/-
  ButtonPanel.Proofs.Cycle — cycles of a press, any number of holds and a release, and what
  an application is told of one button or of the touch contact, read as such phases.

  A list of phases is `Orderly` when each of them fits what came before it: a press comes
  exactly when nothing is open, so a hold or a release comes only after a press that was not
  released yet. `Orderly.prefix_cycles`: an orderly list is the beginning of a list of whole
  cycles.
-/

import Mathlib.Computability.Language
import ButtonPanel.Settings

open scoped Computability

namespace ButtonPanel

namespace Phase

/-- A press, any number of holds, a release. -/
def cycle : Language Phase := {[.press]} * {[.hold]}∗ * {[.release]}

def cycles : Language Phase := cycle∗

/-- Whether these phases end in one that leaves the button down. -/
def isOpen (ps : List Phase) : Bool := ps.getLast?.any (· ≠ .release)

/-- Each phase is a press exactly when nothing was open before it. -/
def Orderly (ps : List Phase) : Prop :=
  ∀ before p, before ++ [p] <+: ps → (p = .press ↔ isOpen before = false)

@[simp] theorem isOpen_nil : isOpen [] = false := rfl

@[simp] theorem isOpen_concat (ps : List Phase) (p : Phase) : isOpen (ps ++ [p]) = decide (p ≠ .release) := by
  simp [isOpen]

theorem orderly_nil : Orderly [] := fun before p h => by simp at h

theorem orderly_concat {ps : List Phase} {p : Phase} :
    Orderly (ps ++ [p]) ↔ Orderly ps ∧ (p = .press ↔ isOpen ps = false) := by
  constructor
  · intro h
    exact ⟨fun before q hq => h before q (hq.trans (List.prefix_append ps [p])), h ps p (List.prefix_refl _)⟩
  · intro ⟨h, hp⟩ before q hq
    rcases List.prefix_concat_iff.mp hq with e | hq
    · obtain ⟨rfl, hqp⟩ := List.append_inj' e rfl
      obtain rfl := List.singleton_inj.mp hqp
      exact hp
    · exact h before q hq

theorem mem_kstar_concat {l : Language Phase} {xs ys : List Phase} (hx : xs ∈ l∗) (hy : ys ∈ l) : xs ++ ys ∈ l∗ :=
  Set.mem_of_mem_of_subset (Language.append_mem_mul hx hy) (kstar_mul_le_kstar (a := l))

theorem mem_cycle {hs : List Phase} (h : hs ∈ ({[.hold]}∗ : Language Phase)) : [.press] ++ hs ++ [.release] ∈ cycle :=
  Language.append_mem_mul (Language.append_mem_mul (Set.mem_singleton _) h) (Set.mem_singleton _)

/-- An orderly list is a list of cycles, followed by an open one if its last phase is open. -/
theorem Orderly.split {ps : List Phase} (h : Orderly ps) :
    (isOpen ps = false → ps ∈ cycles) ∧
      (isOpen ps = true → ∃ xs ∈ cycles, ∃ hs ∈ ({[.hold]}∗ : Language Phase), ps = xs ++ ([.press] ++ hs)) := by
  induction ps using List.reverseRecOn with
  | nil => exact ⟨fun _ => Language.nil_mem_kstar _, fun ho => by simp at ho⟩
  | append_singleton ps p ih =>
    obtain ⟨hps, hp⟩ := orderly_concat.mp h
    obtain ⟨closed, opened⟩ := ih hps
    rw [isOpen_concat]
    cases p with
    | press =>
      exact ⟨fun hc => by simp at hc, fun _ => ⟨ps, closed (hp.mp rfl), [], Language.nil_mem_kstar _, rfl⟩⟩
    | hold =>
      obtain ⟨xs, hxs, hs, hhs, e⟩ := opened (by simpa using mt hp.mpr)
      exact ⟨fun hc => by simp at hc, fun _ =>
        ⟨xs, hxs, hs ++ [.hold], mem_kstar_concat hhs (Set.mem_singleton _), by simp [e]⟩⟩
    | release =>
      obtain ⟨xs, hxs, hs, hhs, e⟩ := opened (by simpa using mt hp.mpr)
      refine ⟨fun _ => ?_, fun ho => by simp at ho⟩
      rw [e, List.append_assoc]
      exact mem_kstar_concat hxs (mem_cycle hhs)

/-- An orderly list is the beginning of a list of whole cycles: one release may be missing. -/
theorem Orderly.prefix_cycles {ps : List Phase} (h : Orderly ps) : ∃ w ∈ cycles, ps <+: w := by
  obtain ⟨closed, opened⟩ := h.split
  cases ho : isOpen ps with
  | false => exact ⟨ps, closed ho, List.prefix_refl ps⟩
  | true =>
    obtain ⟨xs, hxs, hs, hhs, rfl⟩ := opened ho
    refine ⟨xs ++ ([.press] ++ hs ++ [.release]), mem_kstar_concat hxs (mem_cycle hhs), ?_⟩
    exact (List.prefix_append_right_inj xs).mpr (List.prefix_append _ _)

end Phase

end ButtonPanel
