/-
  ButtonPanel.Proofs.Json.Numeral — an integer that is written in decimal is read back
  (`number_repr`). Its digits have no leading zero (`wholeDigits_append`) and spell its absolute
  value (`natOf_toDigits`); they are a whole numeral as long as what follows does not go on with it
  (`Numeral.Ends`), and its value is an integer as long as it fits 64 bits (`FitsWord`).
-/

import ButtonPanel.Json.Token
import ButtonPanel.Proofs.Text.Decimal

namespace ButtonPanel.Json

/-- Whether an integer fits 64 bits, signed or unsigned. -/
def FitsWord (i : Int) : Prop := Int64.minValue.toInt ≤ i ∧ i ≤ Numeral.maxWord

instance (i : Int) : Decidable (FitsWord i) := inferInstanceAs (Decidable (_ ∧ _))

namespace Numeral

/-- Whether a numeral ends before a text: the text does not start with a digit, a fraction or
    an exponent. -/
def Ends (rest : List Char) : Prop :=
  ∀ c ∈ rest.head?, c.isDigit = false ∧ c ≠ '.' ∧ c ≠ 'e' ∧ c ≠ 'E'

theorem ends_nil : Ends [] := nofun

/-! ## Digits -/

theorem natOf_toDigits (n : Nat) : natOf (Nat.toDigits 10 n) = n := by
  have hfold : natOf (Nat.toDigits 10 n) = Nat.ofDigitChars 10 (Nat.toDigits 10 n) 0 := by
    unfold natOf Nat.ofDigitChars digitValue
    simp only [Nat.mul_comm 10]
  rw [hfold, Nat.ofDigitChars_toDigits (by decide) (by decide)]

theorem isDigit_of_mem {n : Nat} {c : Char} (h : c ∈ Nat.toDigits 10 n) : c.isDigit = true :=
  Nat.isDigit_of_mem_toDigits (by decide) (by decide) h

theorem digits_append {ds rest : List Char} (hne : ds ≠ []) (hd : ∀ d ∈ ds, d.isDigit = true) (hr : Ends rest) :
    digits (ds ++ rest) = .ok (ds, rest) := by
  have hstop : rest.takeWhile Char.isDigit = [] ∧ rest.dropWhile Char.isDigit = rest := by
    cases rest with
    | nil => exact ⟨rfl, rfl⟩
    | cons c rest =>
      have hc : c.isDigit = false := (hr c rfl).1
      simp [hc]
  unfold digits
  rw [List.takeWhile_append_of_pos hd, List.dropWhile_append_of_pos hd, hstop.1, hstop.2, List.append_nil]
  cases ds with
  | nil => exact absurd rfl hne
  | cons d ds => rfl

theorem wholeDigits_append (n : Nat) {rest : List Char} (hr : Ends rest) :
    wholeDigits (Nat.toDigits 10 n ++ rest) = .ok (Nat.toDigits 10 n, rest) := by
  unfold wholeDigits
  rw [digits_append Nat.toDigits_ne_nil (fun _ => isDigit_of_mem) hr]
  split
  · next d ds _ heq =>
    have hn : n ≠ 0 := by
      rintro rfl
      cases heq
    have hwhole : Nat.toDigits 10 n = '0' :: d :: ds := (Prod.mk.inj (Except.ok.inj heq)).1
    exact absurd (by rw [hwhole]; rfl) (head_toDigits hn)
  · rfl

/-! ## Numerals -/

theorem withFraction_of_ends {rest : List Char} (h : Ends rest) (n : Numeral) :
    withFraction n rest = .ok (n, rest) := by
  unfold withFraction
  split
  · exact absurd rfl (h '.' rfl).2.1
  · rfl

theorem withExponent_of_ends {rest : List Char} (h : Ends rest) (n : Numeral) :
    withExponent n rest = .ok (n, rest) := by
  unfold withExponent
  split
  · exact absurd rfl (h 'e' rfl).2.2.1
  · exact absurd rfl (h 'E' rfl).2.2.2
  · rfl

def ofInt (i : Int) : Numeral := { negative := i < 0, whole := Nat.toDigits 10 i.natAbs }

theorem exists_cons_toDigits (n : Nat) : ∃ d ds, Nat.toDigits 10 n = d :: ds ∧ d.isDigit = true := by
  cases h : Nat.toDigits 10 n with
  | nil => exact absurd h Nat.toDigits_ne_nil
  | cons d ds => exact ⟨d, ds, rfl, isDigit_of_mem (n := n) (by rw [h]; exact List.mem_cons_self)⟩

/-- An integer starts with a minus or a digit. -/
theorem exists_cons_repr (i : Int) : ∃ c s, i.repr.toList = c :: s ∧ (c = '-' ∨ c.isDigit = true) := by
  rw [toList_repr_int]
  by_cases h : i < 0
  · exact ⟨'-', _, by rw [if_pos h]; rfl, Or.inl rfl⟩
  · obtain ⟨d, ds, hds, hd⟩ := exists_cons_toDigits i.natAbs
    exact ⟨d, ds, by rw [if_neg h, List.nil_append, hds], Or.inr hd⟩

theorem minusSign_digits (n : Nat) (rest : List Char) :
    minusSign (Nat.toDigits 10 n ++ rest) = (false, Nat.toDigits 10 n ++ rest) := by
  unfold minusSign
  split
  · next s heq =>
    obtain ⟨d, ds, hds, hd⟩ := exists_cons_toDigits n
    rw [hds] at heq
    rw [(List.cons.inj heq).1] at hd
    exact absurd hd (by decide)
  · rfl

theorem scan_repr (i : Int) {rest : List Char} (hr : Ends rest) :
    scan (i.repr.toList ++ rest) = .ok (ofInt i, rest) := by
  have hsign : minusSign (i.repr.toList ++ rest) = (decide (i < 0), Nat.toDigits 10 i.natAbs ++ rest) := by
    rw [toList_repr_int]
    by_cases h : i < 0
    · rw [if_pos h, decide_eq_true h]
      rfl
    · rw [if_neg h, decide_eq_false h, List.nil_append, minusSign_digits]
  simp only [scan, hsign, wholeDigits_append _ hr]
  show (withFraction _ rest).bind _ = _
  rw [withFraction_of_ends hr]
  exact withExponent_of_ends hr _

theorem value_ofInt {i : Int} (h : FitsWord i) : (ofInt i).value = .ok (.integer i) := by
  obtain ⟨hmin, hmax⟩ := h
  have hinteger : (ofInt i).integer? = some i := by
    unfold integer? ofInt
    simp only [natOf_toDigits]
    by_cases hneg : i < 0
    · have habs : -(i.natAbs : Int) = i := by omega
      rw [if_pos (decide_eq_true hneg), habs, if_pos ⟨by omega, hmin⟩]
    · have habs : (i.natAbs : Int) = i := by omega
      rw [if_neg (by simpa using hneg), habs, if_pos (by omega)]
  have hplain : (ofInt i).isPlain = true := rfl
  rw [value, hplain, if_pos rfl, hinteger]

end Numeral

theorem Lexeme.number_repr {i : Int} (h : FitsWord i) {rest : List Char} (hr : Numeral.Ends rest) :
    Lexeme.number (i.repr.toList ++ rest) = (.token (.integer i), rest) := by
  simp only [Lexeme.number, Numeral.scan_repr i hr, Numeral.value_ofInt h]

end ButtonPanel.Json
