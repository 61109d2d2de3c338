/-
  ButtonPanel.Proofs.Json.Quoted — a text that is written between quotes is read back, however
  its characters are written (`decode_writes`). A character has several ways to be written
  (`Writes`): as it stands, by the escape of one letter, by four digits or by two surrogates.
  Reading takes just the characters written and gives that character (`decode_append`). The one
  way in which it is written here is among them (`writes_encodeChar`).
-/

import Mathlib.Data.List.Forall2
import ButtonPanel.Json.Quoted

namespace ButtonPanel.Json.Quoted

theorem decode_quote (rest : List Char) : decode ('"' :: rest) = .ok ([], rest) := by
  rw [decode, if_pos rfl]

theorem decode_escaped {s after : List Char} {c : Char} (h : escaped s = .ok (c, after)) :
    decode ('\\' :: s) = (decode after).map fun (text, rest) => (c :: text, rest) := by
  rw [decode, if_neg (by decide), if_pos rfl]
  split
  · next x rest hx =>
    rw [h] at hx
    cases hx
    rfl
  · next f hf =>
    rw [h] at hf
    cases hf

theorem decode_plain {c : Char} (hquote : c ≠ '"') (hslash : c ≠ '\\') (hcontrol : ¬ c < ' ') (s : List Char) :
    decode (c :: s) = (decode s).map fun (text, rest) => (c :: text, rest) := by
  rw [decode, if_neg hquote, if_neg hslash, if_neg hcontrol]

inductive Writes (c : Char) : List Char → Prop
  | plain : c ≠ '"' → c ≠ '\\' → ¬ c < ' ' → Writes c [c]
  | letter {l : Char} : (l, c) ∈ shorthands → Writes c ['\\', l]
  | digits {d₁ d₂ d₃ d₄ : Char} : Hex.four? d₁ d₂ d₃ d₄ = some c.toNat → Writes c ['\\', 'u', d₁, d₂, d₃, d₄]
  | surrogates {d₁ d₂ d₃ d₄ e₁ e₂ e₃ e₄ : Char} {high low : Nat} :
      Hex.four? d₁ d₂ d₃ d₄ = some high → Hex.four? e₁ e₂ e₃ e₄ = some low → 0xD800 ≤ high ∧ high ≤ 0xDBFF →
      0xDC00 ≤ low ∧ low ≤ 0xDFFF → c.toNat = 0x10000 + (high - 0xD800) * 0x400 + (low - 0xDC00) →
      Writes c ['\\', 'u', d₁, d₂, d₃, d₄, '\\', 'u', e₁, e₂, e₃, e₄]

/-! ## Reading what is written -/

theorem shorthands_lookup : ∀ x ∈ shorthands, x.1 ≠ 'u' ∧ shorthands.lookup x.1 = some x.2 := by decide

theorem codeUnit_digits {d₁ d₂ d₃ d₄ : Char} {n : Nat} (h : Hex.four? d₁ d₂ d₃ d₄ = some n) (s : List Char) :
    codeUnit (d₁ :: d₂ :: d₃ :: d₄ :: s) = .ok (n, s) := by
  simp only [codeUnit, h]

/-- The number of a character is never that of a surrogate. -/
theorem not_surrogate (c : Char) : ¬ (0xD800 ≤ c.toNat ∧ c.toNat ≤ 0xDFFF) := by
  rcases c.valid with h | h
  · have hlt : c.toNat < 0xD800 := h
    omega
  · have hlt : 0xDFFF < c.toNat := h.1
    omega

theorem escaped_digits {c : Char} {d₁ d₂ d₃ d₄ : Char} (h : Hex.four? d₁ d₂ d₃ d₄ = some c.toNat) (s : List Char) :
    escaped ('u' :: d₁ :: d₂ :: d₃ :: d₄ :: s) = .ok (c, s) := by
  have hnot := not_surrogate c
  rw [escaped, if_pos rfl, unicode, codeUnit_digits h]
  show (if 0xDC00 ≤ c.toNat ∧ c.toNat ≤ 0xDFFF then _ else _) = _
  rw [if_neg (by omega), if_neg (by omega), Char.ofNat_toNat]

theorem escaped_surrogates {c : Char} {d₁ d₂ d₃ d₄ e₁ e₂ e₃ e₄ : Char} {high low : Nat}
    (hd : Hex.four? d₁ d₂ d₃ d₄ = some high) (he : Hex.four? e₁ e₂ e₃ e₄ = some low)
    (hhigh : 0xD800 ≤ high ∧ high ≤ 0xDBFF) (hlow : 0xDC00 ≤ low ∧ low ≤ 0xDFFF)
    (hc : c.toNat = 0x10000 + (high - 0xD800) * 0x400 + (low - 0xDC00)) (s : List Char) :
    escaped ('u' :: d₁ :: d₂ :: d₃ :: d₄ :: '\\' :: 'u' :: e₁ :: e₂ :: e₃ :: e₄ :: s) = .ok (c, s) := by
  have hsecond : lowSurrogate ('\\' :: 'u' :: e₁ :: e₂ :: e₃ :: e₄ :: s) = .ok (low, s) := by
    simp only [lowSurrogate, codeUnit_digits he, if_pos hlow]
  have hjoin : joinSurrogates high low = c := by rw [joinSurrogates, ← hc, Char.ofNat_toNat]
  rw [escaped, if_pos rfl, unicode, codeUnit_digits hd]
  show (if 0xDC00 ≤ high ∧ high ≤ 0xDFFF then _ else _) = _
  rw [if_neg (by omega), if_pos hhigh, hsecond]
  show Except.ok (joinSurrogates high low, s) = _
  rw [hjoin]

/-- However a character is written, it is read as it is. -/
theorem decode_append {c : Char} {v : List Char} (h : Writes c v) (s : List Char) :
    decode (v ++ s) = (decode s).map fun (text, rest) => (c :: text, rest) := by
  cases h with
  | plain hquote hslash hcontrol => exact decode_plain hquote hslash hcontrol s
  | @letter l hmem =>
    obtain ⟨hu, hlookup⟩ := shorthands_lookup _ hmem
    have hread : escaped (l :: s) = .ok (c, s) := by rw [escaped, if_neg hu, hlookup]
    exact decode_escaped hread
  | digits hd => exact decode_escaped (escaped_digits hd s)
  | surrogates hd he hhigh hlow hc => exact decode_escaped (escaped_surrogates hd he hhigh hlow hc s)

theorem decode_writes {t : List Char} {vs : List (List Char)} (h : List.Forall₂ Writes t vs) (rest : List Char) :
    decode (vs.flatten ++ '"' :: rest) = .ok (t, rest) := by
  induction h with
  | nil => exact decode_quote rest
  | cons hc _ ih =>
    rw [List.flatten_cons, List.append_assoc, decode_append hc, ih]
    rfl

/-! ## Writing -/

theorem encodeChar_shorthand : ∀ x ∈ shorthands, x.1 ≠ '/' → encodeChar x.2 = ['\\', x.1] := by decide

theorem four_byte : ∀ n < 32, Hex.four? '0' '0' (Nat.digitChar (n / 16)) (Nat.digitChar (n % 16)) = some n := by
  decide

/-- A character is written by the escape of one letter, by four digits or as it stands. -/
theorem encodeChar_cases (c : Char) :
    (∃ l, (l, c) ∈ shorthands ∧ encodeChar c = ['\\', l]) ∨
    (c < ' ' ∧ encodeChar c = '\\' :: 'u' :: '0' :: '0' :: Hex.byte c.toNat) ∨
    (c ≠ '"' ∧ c ≠ '\\' ∧ ¬ c < ' ' ∧ encodeChar c = [c]) := by
  by_cases hletter : ∃ x ∈ shorthands, x.1 ≠ '/' ∧ c = x.2
  · obtain ⟨⟨letter, c⟩, hmem, hslash, rfl⟩ := hletter
    exact Or.inl ⟨letter, hmem, encodeChar_shorthand _ hmem hslash⟩
  · obtain ⟨hquote, hslash, hb, hf, hn, hr, ht⟩ : c ≠ '"' ∧ c ≠ '\\' ∧ c ≠ '\x08' ∧ c ≠ '\x0c' ∧ c ≠ '\n' ∧
        c ≠ '\r' ∧ c ≠ '\t' := by
      simpa [shorthands] using hletter
    by_cases hcontrol : c < ' '
    · exact Or.inr (Or.inl ⟨hcontrol, by simp [encodeChar, *]⟩)
    · exact Or.inr (Or.inr ⟨hquote, hslash, hcontrol, by simp [encodeChar, *]⟩)

/-- What is written for a character is one of the ways to write it. -/
theorem writes_encodeChar (c : Char) : Writes c (encodeChar c) := by
  rcases encodeChar_cases c with ⟨l, hmem, henc⟩ | ⟨hcontrol, henc⟩ | ⟨hquote, hslash, hcontrol, henc⟩
  · rw [henc]
    exact .letter hmem
  · rw [henc]
    exact .digits (four_byte c.toNat hcontrol)
  · rw [henc]
    exact .plain hquote hslash hcontrol

theorem writes_encode (s : List Char) : List.Forall₂ Writes s (s.map encodeChar) :=
  List.forall₂_map_right_iff.mpr (List.forall₂_same.mpr fun c _ => writes_encodeChar c)

end ButtonPanel.Json.Quoted
