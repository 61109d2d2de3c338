/-
  ButtonPanel.Json.Quoted — text between quotes. Writing escapes the quote, the backslash
  and the characters below U+0020, and nothing else. Reading takes every escape of JSON;
  a character outside the basic plane is escaped as two surrogates.
-/

import ButtonPanel.Json.Fault
import ButtonPanel.Text.Hex

namespace ButtonPanel.Json.Quoted

/-- The escapes of one letter: the letter and the character it stands for. -/
def shorthands : List (Char × Char) :=
  [('"', '"'), ('\\', '\\'), ('/', '/'), ('b', '\x08'), ('f', '\x0c'), ('n', '\n'), ('r', '\r'), ('t', '\t')]

/-! ## Writing -/

def encodeChar (c : Char) : List Char :=
  if c = '"' then ['\\', '"']
  else if c = '\\' then ['\\', '\\']
  else if c = '\x08' then ['\\', 'b']
  else if c = '\x0c' then ['\\', 'f']
  else if c = '\n' then ['\\', 'n']
  else if c = '\r' then ['\\', 'r']
  else if c = '\t' then ['\\', 't']
  else if c < ' ' then '\\' :: 'u' :: '0' :: '0' :: Hex.byte c.toNat
  else [c]

def encode (s : List Char) : List Char := s.flatMap encodeChar

/-! ## Reading -/

/-- The number of bytes of a text in UTF-8. -/
def byteSize (s : List Char) : Nat := (String.ofList s).utf8ByteSize

/-- Four hexadecimal digits. A text with fewer than four bytes left is cut short, whatever they are. -/
def codeUnit : List Char → Except Fault (Nat × List Char)
  | a :: b :: c :: d :: rest =>
    match Hex.four? a b c d with
    | some n => .ok (n, rest)
    | none => .error .malformed
  | s => .error (if byteSize s < 4 then .truncated else .malformed)

def lowSurrogate : List Char → Except Fault (Nat × List Char)
  | '\\' :: 'u' :: rest =>
    match codeUnit rest with
    | .ok (n, rest) => if 0xDC00 ≤ n ∧ n ≤ 0xDFFF then .ok (n, rest) else .error .malformed
    | .error f => .error f
  | [] | ['\\'] => .error .truncated
  | _ => .error .malformed

/-- The character that two surrogates stand for. -/
def joinSurrogates (high low : Nat) : Char := Char.ofNat (0x10000 + (high - 0xD800) * 0x400 + (low - 0xDC00))

def unicode (s : List Char) : Except Fault (Char × List Char) :=
  match codeUnit s with
  | .error f => .error f
  | .ok (n, rest) =>
    if 0xDC00 ≤ n ∧ n ≤ 0xDFFF then .error .malformed
    else if 0xD800 ≤ n ∧ n ≤ 0xDBFF then
      match lowSurrogate rest with
      | .ok (m, rest) => .ok (joinSurrogates n m, rest)
      | .error f => .error f
    else .ok (Char.ofNat n, rest)

def escaped : List Char → Except Fault (Char × List Char)
  | [] => .error .truncated
  | c :: rest =>
    if c = 'u' then unicode rest
    else match shorthands.lookup c with
      | some x => .ok (x, rest)
      | none => .error .malformed

theorem length_of_codeUnit {s r : List Char} {n : Nat} (h : codeUnit s = .ok (n, r)) : r.length < s.length := by
  unfold codeUnit at h
  split at h
  · split at h
    · cases h; simp only [List.length_cons]; omega
    · cases h
  · cases h

theorem length_of_lowSurrogate {s r : List Char} {n : Nat} (h : lowSurrogate s = .ok (n, r)) :
    r.length < s.length := by
  unfold lowSurrogate at h
  split at h
  · split at h
    · next hc =>
      have := length_of_codeUnit hc
      split at h
      · cases h; simp only [List.length_cons]; omega
      · cases h
    · cases h
  · cases h
  · cases h
  · cases h

theorem length_of_unicode {s r : List Char} {c : Char} (h : unicode s = .ok (c, r)) : r.length < s.length := by
  simp only [unicode] at h
  cases hc : codeUnit s with
  | error f => simp [hc] at h
  | ok p =>
    have hp := length_of_codeUnit hc
    simp only [hc] at h
    split at h
    · cases h
    · split at h
      · cases hl : lowSurrogate p.2 with
        | error f => simp [hl] at h
        | ok q =>
          have hq := length_of_lowSurrogate hl
          simp only [hl, Except.ok.injEq, Prod.mk.injEq] at h
          rw [← h.2]; omega
      · simp only [Except.ok.injEq, Prod.mk.injEq] at h
        rw [← h.2]; exact hp

theorem length_of_escaped {s r : List Char} {c : Char} (h : escaped s = .ok (c, r)) : r.length < s.length := by
  unfold escaped at h
  split at h
  · cases h
  · split at h
    · have := length_of_unicode h
      simp only [List.length_cons]; omega
    · split at h
      · cases h; simp
      · cases h

/-- Reads up to the closing quote. Gives the text and what follows the quote. -/
def decode (s : List Char) : Except Fault (List Char × List Char) :=
  match s with
  | [] => .error .truncated
  | c :: rest =>
    if c = '"' then .ok ([], rest)
    else if c = '\\' then
      match _h : escaped rest with
      | .ok (x, after) => (decode after).map fun (text, rest) => (x :: text, rest)
      | .error f => .error f
    else if c < ' ' then .error .malformed
    else (decode rest).map fun (text, rest) => (c :: text, rest)
termination_by s.length
decreasing_by
  · have := length_of_escaped _h
    simp only [List.length_cons]; omega
  · simp

theorem eq_ok_of_map_cons {e : Except Fault (List Char × List Char)} {c : Char} {t r : List Char}
    (h : (e.map fun (text, rest) => (c :: text, rest)) = .ok (t, r)) : ∃ u, e = .ok (u, r) ∧ t = c :: u := by
  cases e with
  | error f => cases h
  | ok p => cases h; exact ⟨p.1, rfl, rfl⟩

theorem length_of_decode {s t r : List Char} (h : decode s = .ok (t, r)) : r.length < s.length := by
  fun_induction decode s generalizing t with
  | case1 => cases h
  | case2 => cases h; simp
  | case3 rest x after he _ ih =>
    obtain ⟨u, hu, _⟩ := eq_ok_of_map_cons h
    have := ih hu
    have := length_of_escaped he
    simp only [List.length_cons]; omega
  | case4 => cases h
  | case5 => cases h
  | case6 c rest _ _ _ ih =>
    obtain ⟨u, hu, _⟩ := eq_ok_of_map_cons h
    have := ih hu
    simp only [List.length_cons]; omega

end ButtonPanel.Json.Quoted
