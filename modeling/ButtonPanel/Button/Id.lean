/-
  ButtonPanel.Button.Id — the number that names a button. It is one byte wide; its text
  is `#` and the number.
-/

namespace ButtonPanel

structure ButtonId where
  num : UInt8
  deriving DecidableEq, Repr

namespace ButtonId

def toNat (id : ButtonId) : Nat := id.num.toNat

def ofNat (n : Nat) : ButtonId := ⟨n.toUInt8⟩

theorem toNat_lt (id : ButtonId) : id.toNat < 256 := id.num.toNat_lt

theorem toNat_ofNat {n : Nat} (h : n < 256) : (ofNat n).toNat = n := by
  simp [ofNat, toNat, Nat.mod_eq_of_lt h]

theorem toNat_inj {a b : ButtonId} : a.toNat = b.toNat ↔ a = b := by
  cases a; cases b; simp [toNat, UInt8.toNat_inj]

/-- Buttons are ordered by number. -/
instance : Ord ButtonId := ⟨fun a b => compare a.num b.num⟩

/-- The number in decimal, as a key on the command line spells it. -/
def numeral (id : ButtonId) : String := id.toNat.repr

def text (id : ButtonId) : String := "#" ++ id.numeral

structure OutOfRange where
  value : Int
  deriving DecidableEq, Repr

def OutOfRange.message (e : OutOfRange) : String := "button id " ++ e.value.repr ++ " is outside 0..=255"

/-- The button with a given number, which has to fit a byte. -/
def ofInt (i : Int) : Except OutOfRange ButtonId :=
  if 0 ≤ i ∧ i ≤ 255 then .ok (ofNat i.toNat) else .error ⟨i⟩

end ButtonId

end ButtonPanel
