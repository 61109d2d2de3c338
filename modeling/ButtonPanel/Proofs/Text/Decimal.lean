/-
  ButtonPanel.Proofs.Text.Decimal — numbers in decimal: digits only, one at least, and no zero before
  others (`Decimal`). There is one way to write a number so (`repr_eq_iff`). Its first digits are
  themselves a number, and no larger one (`prefix_toDigits`). An integer below zero has a minus before
  them (`toList_repr_int`).
-/

import Mathlib.Data.List.Basic

namespace ButtonPanel

structure Decimal (n : Nat) (text : String) : Prop where
  nonempty : text ≠ ""
  digits : ∀ c ∈ text.toList, c.isDigit = true
  leading : text.toList.head? = some '0' → text = "0"
  value : Nat.ofDigitChars 10 text.toList 0 = n

theorem toNat_of_isDigit {c : Char} (h : c.isDigit = true) : 48 ≤ c.toNat ∧ c.toNat ≤ 57 := by
  simpa [Char.isDigit, UInt32.le_iff_toNat_le] using h

theorem digitChar_of_isDigit {c : Char} (h : c.isDigit = true) :
    c.toNat - '0'.toNat < 10 ∧ Nat.digitChar (c.toNat - '0'.toNat) = c := by
  have hrange := toNat_of_isDigit h
  have hlt : c.toNat - '0'.toNat < 10 := by
    show c.toNat - 48 < 10
    omega
  refine ⟨hlt, Char.toNat_inj.mp ?_⟩
  rw [Nat.toNat_digitChar_of_lt_ten hlt]
  show 48 + (c.toNat - 48) = c.toNat
  omega

/-- Only zero starts with a zero. -/
theorem head_toDigits {n : Nat} (h : n ≠ 0) : (Nat.toDigits 10 n).head? ≠ some '0' := by
  induction n using Nat.strongRecOn with
  | _ n ih =>
    by_cases hlt : n < 10
    · rw [Nat.toDigits_of_lt_base hlt, List.head?_cons]
      intro hzero
      exact h (Nat.digitChar_eq_zero.mp (Option.some.inj hzero))
    · have hle : 10 ≤ n := Nat.not_lt.mp hlt
      rw [Nat.toDigits_of_base_le (by decide) hle, List.head?_append_of_ne_nil _ Nat.toDigits_ne_nil]
      exact ih (n / 10) (by omega) (by omega)

/-- Digits behind a number that is not zero are the further digits of the number they go on to. -/
theorem toDigits_ofDigitChars {cs : List Char} (h : ∀ c ∈ cs, c.isDigit = true) {n : Nat} (hn : 0 < n) :
    Nat.toDigits 10 (Nat.ofDigitChars 10 cs n) = Nat.toDigits 10 n ++ cs := by
  induction cs generalizing n with
  | nil => rw [Nat.ofDigitChars_nil, List.append_nil]
  | cons c cs ih =>
    obtain ⟨hlt, hchar⟩ := digitChar_of_isDigit (h c List.mem_cons_self)
    have hlast : Nat.toDigits 10 (10 * n + (c.toNat - '0'.toNat)) = Nat.toDigits 10 n ++ [c] := by
      rw [← Nat.toDigits_append_toDigits (by decide) hn hlt, Nat.toDigits_of_lt_base hlt, hchar]
    rw [Nat.ofDigitChars_cons, ih (fun d hd => h d (List.mem_cons_of_mem c hd)) (by omega), hlast, List.append_assoc]
    rfl

/-- The first digits of a number are a number, no larger, and zero only if it is zero itself. -/
theorem prefix_toDigits {n : Nat} {ds : List Char} (h : ds <+: Nat.toDigits 10 n) (hne : ds ≠ []) :
    ∃ m, ds = Nat.toDigits 10 m ∧ m ≤ n ∧ (m = 0 → n = 0) := by
  induction n using Nat.strongRecOn with
  | _ n ih =>
    by_cases hlt : n < 10
    · rw [Nat.toDigits_of_lt_base hlt] at h
      rcases List.prefix_cons_iff.mp h with hds | ⟨rest, hds, hrest⟩
      · exact absurd hds hne
      · exact ⟨n, by rw [hds, List.prefix_nil.mp hrest, Nat.toDigits_of_lt_base hlt], Nat.le_refl n, id⟩
    · have hle : 10 ≤ n := Nat.not_lt.mp hlt
      have hlast : Nat.toDigits 10 n = Nat.toDigits 10 (n / 10) ++ [Nat.digitChar (n % 10)] :=
        Nat.toDigits_of_base_le (by decide) hle
      rw [hlast] at h
      rcases List.prefix_concat_iff.mp h with hds | hds
      · exact ⟨n, by rw [hds, hlast], Nat.le_refl n, id⟩
      · obtain ⟨m, hm, hmn, hzero⟩ := ih (n / 10) (by omega) hds
        exact ⟨m, hm, by omega, fun h0 => by have := hzero h0; omega⟩

theorem decimal_repr (n : Nat) : Decimal n n.repr where
  nonempty h := by
    have hnil : Nat.toDigits 10 n = [] := by
      rw [← Nat.toList_repr, h]
      rfl
    exact Nat.toDigits_ne_nil hnil
  digits c hc := by
    rw [Nat.toList_repr] at hc
    exact Nat.isDigit_of_mem_toDigits (by decide) (by decide) hc
  leading h := by
    rw [Nat.toList_repr] at h
    obtain rfl : n = 0 := by
      by_contra hn
      exact head_toDigits hn h
    rfl
  value := by rw [Nat.toList_repr, Nat.ofDigitChars_toDigits (by decide) (by decide)]

theorem repr_eq_iff {n : Nat} {text : String} : n.repr = text ↔ Decimal n text := by
  constructor
  · rintro rfl
    exact decimal_repr n
  · intro h
    rw [← String.toList_inj, Nat.toList_repr, ← h.value]
    cases htext : text.toList with
    | nil => exact absurd (String.toList_inj.mp htext) h.nonempty
    | cons c cs =>
      by_cases hc : c = '0'
      · have hzero : text = "0" := h.leading (by rw [htext, hc]; rfl)
        rw [hzero] at htext
        rw [← htext]
        rfl
      · have hdigits : ∀ d ∈ c :: cs, d.isDigit = true := htext ▸ h.digits
        obtain ⟨hlt, hchar⟩ := digitChar_of_isDigit (hdigits c List.mem_cons_self)
        have hpos : 0 < c.toNat - '0'.toNat := by
          refine Nat.pos_of_ne_zero fun hd => hc ?_
          rw [← hchar, hd]
          rfl
        rw [Nat.ofDigitChars_cons, Nat.mul_zero, Nat.zero_add,
          toDigits_ofDigitChars (fun d hd => hdigits d (List.mem_cons_of_mem c hd)) hpos, Nat.toDigits_of_lt_base hlt, hchar]
        rfl

/-! ## Integers -/

theorem toList_repr_int (i : Int) :
    i.repr.toList = (if i < 0 then ['-'] else []) ++ Nat.toDigits 10 i.natAbs := by
  rw [Int.repr_eq_if]
  by_cases h : i < 0
  · have habs : (-i).toNat = i.natAbs := by omega
    rw [if_neg (by omega), if_pos h, habs, String.toList_append, Nat.toList_repr]
    rfl
  · have habs : i.toNat = i.natAbs := by omega
    rw [if_pos (by omega), if_neg h, habs, Nat.toList_repr, List.nil_append]

theorem mem_repr_int {i : Int} {c : Char} (h : c ∈ i.repr.toList) : c = '-' ∨ c.isDigit = true := by
  rw [toList_repr_int] at h
  rcases List.mem_append.mp h with h | h
  · by_cases hneg : i < 0
    · rw [if_pos hneg] at h
      exact Or.inl (List.mem_singleton.mp h)
    · rw [if_neg hneg] at h
      cases h
  · exact Or.inr (Nat.isDigit_of_mem_toDigits (by decide) (by decide) h)

end ButtonPanel
