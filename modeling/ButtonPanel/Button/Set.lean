/-
  ButtonPanel.Button.Set — a set of buttons numbered below a fixed bound. A button at or
  beyond the bound is never in, and putting it in changes nothing.
-/

import ButtonPanel.Button.Id

namespace ButtonPanel

structure ButtonSet (n : Nat) where
  bits : Vector Bool n
  deriving DecidableEq

namespace ButtonSet

variable {n : Nat}

def empty : ButtonSet n := ⟨Vector.replicate n false⟩

def contains (s : ButtonSet n) (id : ButtonId) : Bool := s.bits[id.toNat]?.getD false

def put (s : ButtonSet n) (id : ButtonId) (b : Bool) : ButtonSet n :=
  if h : id.toNat < n then ⟨s.bits.set id.toNat b h⟩ else s

/-- The members in ascending order. -/
def toList (s : ButtonSet n) : List ButtonId :=
  ((List.range (min n 256)).map ButtonId.ofNat).filter s.contains

@[simp] theorem contains_empty (id : ButtonId) : (empty : ButtonSet n).contains id = false := by
  simp only [contains, empty, Vector.getElem?_replicate]
  split <;> rfl

theorem contains_of_le {s : ButtonSet n} {id : ButtonId} (h : n ≤ id.toNat) : s.contains id = false := by
  simp [contains, Vector.getElem?_eq_none h]

theorem contains_put (s : ButtonSet n) (id j : ButtonId) (b : Bool) :
    (s.put id b).contains j = if j = id ∧ id.toNat < n then b else s.contains j := by
  unfold put
  split
  · next h =>
    by_cases e : j = id
    · subst e; simp [contains, h]
    · have hn : id.toNat ≠ j.toNat := fun c => e (ButtonId.toNat_inj.mp c.symm)
      simp [contains, e, Vector.getElem?_set_ne h hn]
  · next h => simp [h]

/-- Putting a button as it is changes nothing. -/
theorem put_contains (s : ButtonSet n) (id : ButtonId) : s.put id (s.contains id) = s := by
  unfold put
  split
  · next h =>
    have hb : s.contains id = s.bits[id.toNat] := by simp [contains, h]
    rw [hb, Vector.set_getElem_self]
  · rfl

/-- Of two changes to one button the later one counts. -/
theorem put_put (s : ButtonSet n) (id : ButtonId) (a b : Bool) : (s.put id a).put id b = s.put id b := by
  unfold put
  split
  · rw [Vector.set_set]
  · rfl

theorem mem_toList {s : ButtonSet n} {id : ButtonId} : id ∈ s.toList ↔ s.contains id = true := by
  simp only [toList, List.mem_filter, List.mem_map, List.mem_range]
  constructor
  · exact fun h => h.2
  · intro h
    refine ⟨⟨id.toNat, ?_, ?_⟩, h⟩
    · have := id.toNat_lt
      by_cases hn : id.toNat < n
      · omega
      · simp [contains_of_le (Nat.le_of_not_lt hn)] at h
    · exact ButtonId.toNat_inj.mp (ButtonId.toNat_ofNat id.toNat_lt)

end ButtonSet

end ButtonPanel
