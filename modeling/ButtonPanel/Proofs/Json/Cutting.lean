/-
  ButtonPanel.Proofs.Json.Cutting — what is read of a text that was cut short. A stub is a beginning
  of a text that is not all of it (`Stub`).

  Of tokens that are written one after the other a stub holds some whole and of the next one a
  part or nothing (`Cut`). A part of a token breaks off because the text ends (`Token.Part`), with one
  exception: the first digits of an integer are an integer too, no further from zero, so
  nothing in them shows that digits are missing (`stub_repr`).

  `Scannable.cut`: every stub of what is written is read as tokens that were cut short, wherever
  the cut is, be it inside an escape (`decode_stub_char`) or behind a minus.
-/

import ButtonPanel.Proofs.Json.Spelling

namespace ButtonPanel.Json

/-! ## Stubs -/

/-- A beginning of a text that is not all of it. -/
def Stub (s t : List Char) : Prop := s <+: t ∧ s ≠ t

section Stub

variable {s t u : List Char} {c : Char}

theorem not_stub_nil : ¬ Stub s [] := by
  intro h
  exact h.2 (List.prefix_nil.mp h.1)

theorem Stub.of_cons (h : Stub s (c :: t)) : s = [] ∨ ∃ r, s = c :: r ∧ Stub r t := by
  rcases List.prefix_cons_iff.mp h.1 with hs | ⟨r, hs, hr⟩
  · exact Or.inl hs
  · exact Or.inr ⟨r, hs, hr, fun e => h.2 (by rw [hs, e])⟩

theorem Stub.of_singleton (h : Stub s [c]) : s = [] := by
  rcases h.of_cons with hs | ⟨r, -, hr⟩
  · exact hs
  · exact absurd hr not_stub_nil

/-- Two texts one after the other are cut inside the first or behind it. -/
theorem Stub.of_append (h : Stub s (t ++ u)) : Stub s t ∨ ∃ r, s = t ++ r ∧ Stub r u := by
  obtain ⟨⟨rest, hrest⟩, hne⟩ := h
  rcases List.append_eq_append_iff.mp hrest with ⟨left, ht, hleft⟩ | ⟨r, hs, hu⟩
  · by_cases hnil : left = []
    · rw [hnil, List.append_nil] at ht
      exact Or.inr ⟨[], by rw [ht, List.append_nil], List.nil_prefix, fun e => hne (by rw [← e, ht, List.append_nil])⟩
    · exact Or.inl ⟨⟨left, ht.symm⟩, fun e => hnil (by simpa [e] using ht)⟩
  · exact Or.inr ⟨r, hs, ⟨rest, hu.symm⟩, fun e => hne (by rw [hs, e])⟩

end Stub

/-! ## Integers -/

/-- Of an integer nothing is left, or its minus, or an integer no further from zero. -/
theorem stub_repr {i : Int} {s : List Char} (h : Stub s i.repr.toList) :
    s = [] ∨ s = ['-'] ∨ ∃ j, s = j.repr.toList ∧ min 0 i ≤ j ∧ j ≤ max 0 i := by
  have hdigits : ∀ ds, Stub ds (Nat.toDigits 10 i.natAbs) → ds = [] ∨
      ∃ m : Nat, ds = Nat.toDigits 10 m ∧ m ≤ i.natAbs ∧ (m = 0 → i.natAbs = 0) := by
    intro ds hds
    by_cases hnil : ds = []
    · exact Or.inl hnil
    · exact Or.inr (prefix_toDigits hds.1 hnil)
  rw [toList_repr_int] at h
  by_cases hneg : i < 0
  · rw [if_pos hneg] at h
    rcases h.of_cons with hs | ⟨ds, hs, hds⟩
    · exact Or.inl hs
    · rcases hdigits ds hds with hnil | ⟨m, hm, hle, hzero⟩
      · exact Or.inr (Or.inl (by rw [hs, hnil]))
      · -- the digits are not those of zero, which has no minus
        have hpos : m ≠ 0 := fun h0 => by have := hzero h0; omega
        have hrepr : (-(m : Int)).repr.toList = '-' :: Nat.toDigits 10 m := by
          rw [toList_repr_int, if_pos (by omega), Int.natAbs_neg, Int.natAbs_natCast]
          rfl
        exact Or.inr (Or.inr ⟨-m, by rw [hrepr, hs, hm], by omega, by omega⟩)
  · rw [if_neg hneg, List.nil_append] at h
    rcases hdigits s h with hnil | ⟨m, hm, hle, -⟩
    · exact Or.inl hnil
    · have hrepr : (m : Int).repr.toList = Nat.toDigits 10 m := by
        rw [toList_repr_int, if_neg (by omega), Int.natAbs_natCast, List.nil_append]
      exact Or.inr (Or.inr ⟨m, by rw [hrepr, hm], by omega, by omega⟩)

theorem FitsWord.between {i j : Int} (h : FitsWord i) (hmin : min 0 i ≤ j) (hmax : j ≤ max 0 i) : FitsWord j := by
  obtain ⟨hlow, hhigh⟩ := h
  have hnonpos : Int64.minValue.toInt ≤ 0 := by decide
  exact ⟨by omega, by omega⟩

/-- What ends a numeral still does when it is cut short itself. -/
theorem Numeral.Ends.cut_short {s t : List Char} (h : Ends t) (hs : s <+: t) : Ends s := by
  intro c hc
  obtain ⟨rest, rfl⟩ := hs
  refine h c ?_
  rw [List.head?_append, Option.mem_def.mp hc]
  rfl

/-! ## Texts -/

namespace Quoted

theorem decode_escaped_error {s : List Char} {f : Fault} (h : escaped s = .error f) : decode ('\\' :: s) = .error f := by
  rw [decode, if_neg (by decide), if_pos rfl]
  split
  · next hx =>
    rw [h] at hx
    cases hx
  · next hf =>
    rw [h] at hf
    cases hf
    rfl

theorem decode_nil : decode [] = .error .truncated := by rw [decode]

/-- Of the digits of a control character fewer than four are too few, whatever they are. -/
theorem escaped_stub_digits {n : Nat} (hn : n < 32) {s : List Char} (h : Stub s ('u' :: '0' :: '0' :: Hex.byte n)) :
    escaped s = .error .truncated := by
  have hthird : byteSize ['0', '0', Nat.digitChar (n / 16)] < 4 := by
    have hall : ∀ n < 32, byteSize ['0', '0', Nat.digitChar (n / 16)] < 4 := by decide
    exact hall n hn
  rcases h.of_cons with rfl | ⟨s₁, rfl, h₁⟩
  · rfl
  rcases h₁.of_cons with rfl | ⟨s₂, rfl, h₂⟩
  · rfl
  rcases h₂.of_cons with rfl | ⟨s₃, rfl, h₃⟩
  · rfl
  rcases h₃.of_cons with rfl | ⟨s₄, rfl, h₄⟩
  · rfl
  have hunit : codeUnit ['0', '0', Nat.digitChar (n / 16)] = .error .truncated := by simp [codeUnit, hthird]
  rw [h₄.of_singleton, escaped, if_pos rfl, unicode, hunit]

/-- An escape breaks off if what follows the backslash does. -/
theorem decode_stub_escape {t : List Char} (ht : ∀ s, Stub s t → escaped s = .error .truncated) {s : List Char}
    (h : Stub s ('\\' :: t)) : decode s = .error .truncated := by
  rcases h.of_cons with hs | ⟨r, hs, hr⟩
  · rw [hs, decode_nil]
  · rw [hs, decode_escaped_error (ht r hr)]

theorem decode_stub_char {c : Char} {s : List Char} (h : Stub s (encodeChar c)) : decode s = .error .truncated := by
  rcases encodeChar_cases c with ⟨l, -, henc⟩ | ⟨hcontrol, henc⟩ | ⟨-, -, -, henc⟩
  · rw [henc] at h
    refine decode_stub_escape (fun r hr => ?_) h
    rw [hr.of_singleton]
    rfl
  · rw [henc] at h
    exact decode_stub_escape (fun r hr => escaped_stub_digits hcontrol hr) h
  · rw [henc] at h
    rw [h.of_singleton, decode_nil]

/-- A text that is cut anywhere before its closing quote, or just before it, breaks off. -/
theorem decode_stub {cs s : List Char} (h : Stub s (encode cs ++ ['"'])) : decode s = .error .truncated := by
  induction cs generalizing s with
  | nil => rw [h.of_singleton, decode_nil]
  | cons c cs ih =>
    have hsplit : encode (c :: cs) ++ ['"'] = encodeChar c ++ (encode cs ++ ['"']) := by
      simp only [encode, List.flatMap_cons, List.append_assoc]
    rw [hsplit] at h
    rcases h.of_append with h | ⟨r, hs, hr⟩
    · exact decode_stub_char h
    · rw [hs, decode_append (writes_encodeChar c), ih hr]
      rfl

end Quoted

/-! ## Tokens -/

inductive Token.Part : Token → Lexeme → Prop
  | null : Part .null (.broken .truncated)
  | bool (b : Bool) : Part (.bool b) (.broken .truncated)
  | text (s : String) : Part (.text s) (.brokenText .truncated)
  | minus (i : Int) : Part (.integer i) (.broken .truncated)
  | digits {i j : Int} : min 0 i ≤ j → j ≤ max 0 i → Part (.integer i) (.token (.integer j))

/-- The lexemes that are read of tokens that were cut short. -/
inductive Cut : List Token → List Lexeme → Prop
  | before (t : Token) (ts : List Token) : Cut (t :: ts) []
  | inside {t : Token} {l : Lexeme} (ts : List Token) : t.Part l → Cut (t :: ts) [l]
  | behind (t : Token) {ts : List Token} {ls : List Lexeme} : Cut ts ls → Cut (t :: ts) (.token t :: ls)

namespace Lexeme

theorem scan_nil : scan [] = [] := by rw [scan]

theorem literal_stub {t : Token} {es s : List Char} (h : Stub s es) : literal t es s = (.broken .truncated, []) := by
  induction es generalizing s with
  | nil => exact absurd h not_stub_nil
  | cons e es ih =>
    rcases h.of_cons with hs | ⟨r, hs, hr⟩
    · rw [hs, literal]
    · rw [hs, literal, if_pos rfl, ih hr]

/-- A part of a word is one lexeme. -/
theorem scan_stub_word {c : Char} {es s : List Char} {l : Lexeme} (hc : isBlank c = false) (h : Stub s (c :: es))
    (hnext : ∀ r, Stub r es → next c r = (l, [])) : s = [] ∨ scan s = [l] := by
  rcases h.of_cons with hs | ⟨r, hs, hr⟩
  · exact Or.inl hs
  · rw [hs, scan_word hc (hnext r hr), scan_nil]
    exact Or.inr rfl

theorem scan_stub {t : Token} (hfits : t.Fits) {s : List Char} (h : Stub s t.spelling) :
    s = [] ∨ ∃ l, t.Part l ∧ scan s = [l] := by
  cases t with
  | null =>
    have hnext : ∀ r, Stub r ['u', 'l', 'l'] → next 'n' r = (.broken .truncated, []) := fun r hr => literal_stub hr
    exact (scan_stub_word (by decide) h hnext).imp_right fun hs => ⟨_, .null, hs⟩
  | bool b =>
    cases b with
    | true =>
      have hnext : ∀ r, Stub r ['r', 'u', 'e'] → next 't' r = (.broken .truncated, []) := fun r hr => literal_stub hr
      exact (scan_stub_word (by decide) h hnext).imp_right fun hs => ⟨_, .bool true, hs⟩
    | false =>
      have hnext : ∀ r, Stub r ['a', 'l', 's', 'e'] → next 'f' r = (.broken .truncated, []) := fun r hr => literal_stub hr
      exact (scan_stub_word (by decide) h hnext).imp_right fun hs => ⟨_, .bool false, hs⟩
  | text t =>
    have hnext : ∀ r, Stub r (Quoted.encode t.toList ++ ['"']) → next '"' r = (.brokenText .truncated, []) := by
      intro r hr
      show quoted r = _
      rw [quoted, Quoted.decode_stub hr]
    exact (scan_stub_word (by decide) h hnext).imp_right fun hs => ⟨_, .text t, hs⟩
  | integer i =>
    rcases stub_repr h with hs | hs | ⟨j, hs, hmin, hmax⟩
    · exact Or.inl hs
    · have hminus : next '-' [] = (.broken .truncated, []) := rfl
      rw [hs, scan_word (by decide) hminus, scan_nil]
      exact Or.inr ⟨_, .minus i, rfl⟩
    · have hfit : (Token.integer j).Fits := FitsWord.between hfits hmin hmax
      have hscan := scan_spelling hfit fun _ => Numeral.ends_nil
      rw [List.append_nil, scan_nil] at hscan
      rw [hs]
      exact Or.inr ⟨_, .digits hmin hmax, hscan⟩
  | _ => exact Or.inl h.of_singleton

end Lexeme

/-- A stub of what is written is read as tokens that were cut short. -/
theorem Scannable.cut {ts : List Token} (h : Scannable ts) {s : List Char} (hs : Stub s (ts.flatMap Token.spelling)) :
    Cut ts (Lexeme.scan s) := by
  induction ts generalizing s with
  | nil => exact absurd hs not_stub_nil
  | cons t ts ih =>
    obtain ⟨hfits, hends, hlater⟩ := h.of_cons
    rw [List.flatMap_cons] at hs
    rcases hs.of_append with hs | ⟨r, rfl, hr⟩
    · rcases Lexeme.scan_stub hfits hs with rfl | ⟨l, hl, hscan⟩
      · rw [Lexeme.scan_nil]
        exact .before t ts
      · rw [hscan]
        exact .inside ts hl
    · rw [Lexeme.scan_spelling hfits fun hi => (hends hi).cut_short hr.1]
      exact .behind t (ih hlater hr)

end ButtonPanel.Json
