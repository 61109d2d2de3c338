/-
  ButtonPanel.Board.Touch — the touch contact of a board. A contact is followed from the
  place where it went down; a move is worth an event only when it leads further than a
  limit on one axis. The first move of a contact has a limit of its own.
-/

import ButtonPanel.Event

namespace ButtonPanel

/-- A contact that is down: its last reported place, and whether it has moved since it went down. -/
structure Contact where
  x : Int32
  y : Int32
  moved : Bool
  deriving DecidableEq, Repr

structure Touch where
  firstLimit : UInt32 := 8
  laterLimit : UInt32 := 2
  contact : Option Contact := none
  deriving DecidableEq, Repr

inductive TouchReport
  | pressed (x y : Int32)
  | moved (x y : Int32)
  | released
  deriving DecidableEq, Repr

/-- The distance of two coordinates: the smaller taken from the larger, modulo the word size. -/
def axisDistance (a b : Int32) : UInt32 :=
  if a ≤ b then b.toUInt32 - a.toUInt32 else a.toUInt32 - b.toUInt32

theorem toNat_sub_of_le {a b : Int32} (h : a ≤ b) :
    (b.toUInt32 - a.toUInt32).toNat = (b.toInt - a.toInt).toNat := by
  rw [Int32.le_iff_toInt_le] at h
  simp only [Int32.toInt, Int32.toBitVec, BitVec.toInt_eq_toNat_cond] at h ⊢
  rw [UInt32.toNat_sub]
  simp only [UInt32.toNat] at h ⊢
  have ha := a.toUInt32.toBitVec.isLt
  have hb := b.toUInt32.toBitVec.isLt
  split at h <;> split at h <;> simp only [*, if_true, if_false] <;> omega

/-- No difference is too large for the word: the distance is exact. -/
theorem toNat_axisDistance (a b : Int32) : (axisDistance a b).toNat = (a.toInt - b.toInt).natAbs := by
  unfold axisDistance
  split
  · rename_i h
    rw [toNat_sub_of_le h]
    rw [Int32.le_iff_toInt_le] at h
    omega
  · rename_i h
    rw [Int32.le_iff_toInt_le] at h
    rw [toNat_sub_of_le (Int32.le_iff_toInt_le.mpr (by omega))]
    omega

namespace Touch

def isDown (t : Touch) : Bool := t.contact.isSome

def position? (t : Touch) : Option (Int32 × Int32) := t.contact.map fun c => (c.x, c.y)

/-- The limit that the next move of a contact has to exceed. -/
def limit (t : Touch) (c : Contact) : UInt32 := if c.moved then t.laterLimit else t.firstLimit

/-- Whether a place is further than the limit in force on at least one axis. -/
def isMove (t : Touch) (c : Contact) (x y : Int32) : Bool :=
  t.limit c < axisDistance x c.x || t.limit c < axisDistance y c.y

/-- The event to offer after a report, and the contact once it is taken. A press of a
    contact that is down is a move; a move or release without a contact is ignored. -/
def plan (t : Touch) (r : TouchReport) : Option Event × Touch :=
  match t.contact, r with
  | none, .pressed x y => (some (.touchPressed x y), { t with contact := some ⟨x, y, false⟩ })
  | none, _ => (none, t)
  | some c, .pressed x y | some c, .moved x y =>
    if t.isMove c x y then (some (.touchMoved x y), { t with contact := some ⟨x, y, true⟩ })
    else (none, t)
  | some _, .released => (some .touchReleased, { t with contact := none })

/-- What a report can plan: nothing, the start of a contact, a move of it that leads far
    enough, or its end. -/
theorem plan_cases (t : Touch) (r : TouchReport) :
    t.plan r = (none, t) ∨
    (∃ x y, r = .pressed x y ∧ t.contact = none ∧
      t.plan r = (some (.touchPressed x y), { t with contact := some ⟨x, y, false⟩ })) ∨
    (∃ c x y, (r = .pressed x y ∨ r = .moved x y) ∧ t.contact = some c ∧ t.isMove c x y = true ∧
      t.plan r = (some (.touchMoved x y), { t with contact := some ⟨x, y, true⟩ })) ∨
    (∃ c, r = .released ∧ t.contact = some c ∧ t.plan r = (some .touchReleased, { t with contact := none })) := by
  cases hc : t.contact with
  | none =>
    cases r with
    | pressed x y => exact Or.inr (Or.inl ⟨x, y, rfl, rfl, by simp [plan, hc]⟩)
    | moved x y => exact Or.inl (by simp [plan, hc])
    | released => exact Or.inl (by simp [plan, hc])
  | some c =>
    cases r with
    | pressed x y =>
      cases hm : t.isMove c x y with
      | false => exact Or.inl (by simp [plan, hc, hm])
      | true => exact Or.inr (Or.inr (Or.inl ⟨c, x, y, Or.inl rfl, rfl, hm, by simp [plan, hc, hm]⟩))
    | moved x y =>
      cases hm : t.isMove c x y with
      | false => exact Or.inl (by simp [plan, hc, hm])
      | true => exact Or.inr (Or.inr (Or.inl ⟨c, x, y, Or.inr rfl, rfl, hm, by simp [plan, hc, hm]⟩))
    | released => exact Or.inr (Or.inr (Or.inr ⟨c, rfl, rfl, by simp [plan, hc]⟩))

end Touch

end ButtonPanel
