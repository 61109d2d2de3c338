/-
  ButtonPanel.Json.Number — numerals. A numeral without fraction and exponent that fits
  64 bits, signed or unsigned, is an integer; any other is a real, also `-0`. A real has
  to be within the range of double precision, which is decided on its leading digits:
  as many as fit 64 bits are kept as a significand and the rest is a power of ten.
-/

import ButtonPanel.Json.Fault

namespace ButtonPanel.Json

/-- The parts of a numeral. A fraction has at least one digit, so an empty one is none. -/
structure Numeral where
  negative : Bool
  whole : List Char
  fraction : List Char := []
  exponent : Option Int := none
  deriving DecidableEq, Repr

inductive NumberValue
  | integer (i : Int)
  | real
  deriving DecidableEq, Repr

namespace Numeral

/-! ## Shape -/

def digitValue (c : Char) : Nat := c.toNat - '0'.toNat

def natOf (ds : List Char) : Nat := ds.foldl (fun n d => n * 10 + digitValue d) 0

def digits (s : List Char) : Except Fault (List Char × List Char) :=
  match s.takeWhile Char.isDigit with
  | [] => .error (if s.isEmpty then .truncated else .malformed)
  | ds => .ok (ds, s.dropWhile Char.isDigit)

/-- Digits without a leading zero, unless zero is all there is. -/
def wholeDigits (s : List Char) : Except Fault (List Char × List Char) :=
  match digits s with
  | .ok ('0' :: _ :: _, _) => .error .malformed
  | r => r

def minusSign : List Char → Bool × List Char
  | '-' :: rest => (true, rest)
  | s => (false, s)

def exponentSign : List Char → Bool × List Char
  | '+' :: rest => (false, rest)
  | '-' :: rest => (true, rest)
  | s => (false, s)

def withFraction (n : Numeral) : List Char → Except Fault (Numeral × List Char)
  | '.' :: rest => (digits rest).map fun (ds, rest) => ({ n with fraction := ds }, rest)
  | s => .ok (n, s)

def withExponent (n : Numeral) : List Char → Except Fault (Numeral × List Char)
  | 'e' :: rest | 'E' :: rest =>
    let (negative, rest) := exponentSign rest
    (digits rest).map fun (ds, rest) =>
      ({ n with exponent := some (if negative then -(natOf ds : Int) else natOf ds) }, rest)
  | s => .ok (n, s)

def scan (s : List Char) : Except Fault (Numeral × List Char) := do
  let (whole, rest) ← wholeDigits (minusSign s).2
  let (n, rest) ← withFraction { negative := (minusSign s).1, whole } rest
  withExponent n rest

/-! ## Size -/

def maxWord : Nat := UInt64.size - 1

/-- Appends digits to a significand while it fits a word. Gives it and the number of digits that are left over. -/
def appendDigits (m : Nat) : List Char → Nat × Nat
  | [] => (m, 0)
  | d :: ds =>
    if m * 10 + digitValue d ≤ maxWord then appendDigits (m * 10 + digitValue d) ds
    else (m, ds.length + 1)

/-- The significand and the power of ten that a numeral is read as. Whole digits that do not
    fit count as tens; digits of the fraction that do not fit are dropped. -/
def scaled (n : Numeral) : Nat × Int :=
  let (m, tens) := appendDigits 0 n.whole
  let (m, dropped) := appendDigits m n.fraction
  (m, tens - (n.fraction.length - dropped : Nat) + n.exponent.getD 0)

/-- The nearest number of 53 significant bits; a tie goes to the even one. -/
def roundToDouble (n : Nat) : Nat :=
  let shift := n.log2 - 52
  let unit := 1 <<< shift
  let rest := n % unit
  let low := n / unit
  if unit < 2 * rest ∨ (unit = 2 * rest ∧ low % 2 = 1) then (low + 1) * unit else low * unit

/-- The powers of ten up to this one are within the range of doubles. -/
def maxTens : Int := 308

/-- Whether the numeral, read as a product of two doubles, is beyond the largest double. -/
def isTooLarge (n : Numeral) : Bool :=
  let (m, e) := n.scaled
  if m = 0 ∨ e < 0 then false
  else if maxTens < e then true
  else 1 <<< 1024 ≤ roundToDouble (roundToDouble m * roundToDouble (Nat.pow 10 e.toNat))

/-- Whether there is neither a fraction nor an exponent. -/
def isPlain (n : Numeral) : Bool := n.fraction.isEmpty && n.exponent.isNone

/-- The value of a plain numeral, if it is an integer of 64 bits. -/
def integer? (n : Numeral) : Option Int :=
  let m := natOf n.whole
  if n.negative then if 0 < m ∧ Int64.minValue.toInt ≤ -(m : Int) then some (-(m : Int)) else none
  else if m ≤ maxWord then some m else none

def value (n : Numeral) : Except Fault NumberValue :=
  match if n.isPlain then n.integer? else none with
  | some i => .ok (.integer i)
  | none => if n.isTooLarge then .error .malformed else .ok .real

/-! ## Progress -/

theorem length_of_digits {s ds r : List Char} (h : digits s = .ok (ds, r)) : r.length < s.length := by
  unfold digits at h
  split at h
  · cases h
  · next hne =>
    cases h
    have hl : (s.takeWhile Char.isDigit).length + (s.dropWhile Char.isDigit).length = s.length := by
      rw [← List.length_append, List.takeWhile_append_dropWhile]
    have : (s.takeWhile Char.isDigit).length ≠ 0 := by
      intro h0
      exact hne (List.eq_nil_of_length_eq_zero h0)
    omega

theorem length_of_wholeDigits {s ds r : List Char} (h : wholeDigits s = .ok (ds, r)) : r.length < s.length := by
  unfold wholeDigits at h
  split at h
  · cases h
  · exact length_of_digits h

theorem length_of_withFraction {n m : Numeral} {s r : List Char} (h : withFraction n s = .ok (m, r)) :
    r.length ≤ s.length := by
  unfold withFraction at h
  split at h
  · next rest =>
    cases hd : digits rest with
    | error f => simp [hd, Except.map] at h
    | ok p =>
      have := length_of_digits hd
      simp only [hd, Except.map, Except.ok.injEq, Prod.mk.injEq] at h
      simp only [List.length_cons, ← h.2]; omega
  · cases h; exact Nat.le_refl _

theorem length_exponentSign (s : List Char) : (exponentSign s).2.length ≤ s.length := by
  unfold exponentSign
  split <;> simp

theorem length_of_withExponent {n m : Numeral} {s r : List Char} (h : withExponent n s = .ok (m, r)) :
    r.length ≤ s.length := by
  have key : ∀ rest : List Char, ∀ x : Char,
      ((digits (exponentSign rest).2).map fun (p : List Char × List Char) =>
        ({ n with exponent := some (if (exponentSign rest).1 then -(natOf p.1 : Int) else natOf p.1) }, p.2)) =
          .ok (m, r) → r.length ≤ (x :: rest).length := by
    intro rest x h
    have hs := length_exponentSign rest
    cases hd : digits (exponentSign rest).2 with
    | error f => simp [hd, Except.map] at h
    | ok p =>
      have := length_of_digits hd
      simp only [hd, Except.map, Except.ok.injEq, Prod.mk.injEq] at h
      simp only [List.length_cons, ← h.2]; omega
  unfold withExponent at h
  split at h
  · exact key _ _ h
  · exact key _ _ h
  · cases h; exact Nat.le_refl _

theorem length_minusSign (s : List Char) : (minusSign s).2.length ≤ s.length := by
  unfold minusSign
  split <;> simp

theorem length_of_scan {n : Numeral} {s r : List Char} (h : scan s = .ok (n, r)) : r.length < s.length := by
  simp only [scan, bind, Except.bind] at h
  cases hw : wholeDigits (minusSign s).2 with
  | error f => simp [hw] at h
  | ok p =>
    cases hf : withFraction { negative := (minusSign s).1, whole := p.1 } p.2 with
    | error f => simp [hw, hf] at h
    | ok q =>
      simp only [hw, hf] at h
      have h0 := length_minusSign s
      have h1 := length_of_wholeDigits hw
      have h2 := length_of_withFraction hf
      have h3 := length_of_withExponent h
      omega

end Numeral

end ButtonPanel.Json
