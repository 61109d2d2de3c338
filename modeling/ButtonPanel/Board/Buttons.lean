/-
  ButtonPanel.Board.Buttons — the buttons of a board, numbered below `n`, as the software
  sees them: which are down. A raw report plans an event and the state that holds once the
  event is taken.

  A button that is reported down while it is down already is held; a button that is
  reported up while it is up has nothing to say; a button out of range is ignored.
-/

import ButtonPanel.Button.Set
import ButtonPanel.Settings

namespace ButtonPanel

inductive ButtonReport
  | pressed
  | repeated
  | released
  deriving DecidableEq, Repr

namespace ButtonReport

def isDown : ButtonReport → Bool
  | pressed | repeated => true
  | released => false

/-- The phase that a report amounts to, given whether the button was down before. -/
def phase? (r : ButtonReport) (wasDown : Bool) : Option Phase :=
  match r.isDown, wasDown with
  | true, false => some .press
  | true, true => some .hold
  | false, true => some .release
  | false, false => none

/-- A report amounts to a press exactly when the button was up. -/
theorem phase?_fits {r : ButtonReport} {wasDown : Bool} {p : Phase} (h : r.phase? wasDown = some p) :
    (p = .press ↔ wasDown = false) ∧ r.isDown = decide (p ≠ .release) := by
  cases r <;> cases wasDown <;> simp [phase?, isDown] at h <;> subst h <;> simp [isDown]

/-- A report that amounts to nothing finds the button as it says. -/
theorem isDown_of_phase?_none {r : ButtonReport} {wasDown : Bool} (h : r.phase? wasDown = none) : r.isDown = wasDown := by
  cases r <;> cases wasDown <;> simp [phase?, isDown] at h ⊢

end ButtonReport

/-- The event to offer after a report, and the buttons that are down once it is taken. -/
def ButtonSet.plan {n : Nat} (down : ButtonSet n) (s : Settings) (id : ButtonId) (r : ButtonReport) :
    Option Event × ButtonSet n :=
  if id.toNat < n then
    ((r.phase? (down.contains id)).bind (s.boardEvent? id), down.put id r.isDown)
  else (none, down)

namespace ButtonSet

variable {n : Nat} {down : ButtonSet n} {id : ButtonId}

theorem plan_of_lt (s : Settings) (r : ButtonReport) (h : id.toNat < n) :
    down.plan s id r = ((r.phase? (down.contains id)).bind (s.boardEvent? id), down.put id r.isDown) := if_pos h

theorem plan_of_le (s : Settings) (r : ButtonReport) (h : n ≤ id.toNat) : down.plan s id r = (none, down) :=
  if_neg (Nat.not_lt.mpr h)

/-- A report has nothing to say of other buttons. -/
theorem contains_plan_of_ne (s : Settings) (r : ButtonReport) {j : ButtonId} (h : j ≠ id) :
    (down.plan s id r).2.contains j = down.contains j := by
  unfold plan
  split
  · rw [contains_put, if_neg fun he => h he.1]
  · rfl

end ButtonSet

end ButtonPanel
