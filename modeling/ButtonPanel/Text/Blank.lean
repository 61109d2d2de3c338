/-
  ButtonPanel.Text.Blank — the characters with the Unicode property White_Space, and
  cutting them off both ends of a text.
-/

namespace ButtonPanel.Blank

/-- The code points with the property, as ranges with both ends included. -/
def ranges : List (Nat × Nat) :=
  [(0x09, 0x0D), (0x20, 0x20), (0x85, 0x85), (0xA0, 0xA0), (0x1680, 0x1680), (0x2000, 0x200A),
   (0x2028, 0x2029), (0x202F, 0x202F), (0x205F, 0x205F), (0x3000, 0x3000)]

def isBlank (c : Char) : Bool := ranges.any fun (lo, hi) => lo ≤ c.toNat && c.toNat ≤ hi

def trimRight : List Char → List Char
  | [] => []
  | c :: s =>
    match trimRight s with
    | [] => if isBlank c then [] else [c]
    | t => c :: t

/-- The text without the blanks at its ends. -/
def trim (s : List Char) : List Char := trimRight (s.dropWhile isBlank)

end ButtonPanel.Blank
