/-
  ButtonPanel.Text.Hex — hexadecimal digits: two lower-case ones for a byte, and the
  value of one digit in either case.
-/

namespace ButtonPanel.Hex

/-- The two lower-case digits of a number below 256. -/
def byte (n : Nat) : List Char := [Nat.digitChar (n / 16), Nat.digitChar (n % 16)]

def value? (c : Char) : Option Nat :=
  if c.isDigit then some (c.toNat - '0'.toNat)
  else if 'a' ≤ c ∧ c ≤ 'f' then some (c.toNat - 'a'.toNat + 10)
  else if 'A' ≤ c ∧ c ≤ 'F' then some (c.toNat - 'A'.toNat + 10)
  else none

def four? (a b c d : Char) : Option Nat := do
  return (← value? a) * 4096 + (← value? b) * 256 + (← value? c) * 16 + (← value? d)

end ButtonPanel.Hex
