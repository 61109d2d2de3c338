/-
  ButtonPanel.Proofs.Board.Loss — a report whose event was refused has not happened.

  `loss_is_absence`: over any sink, leave out of a run exactly the reports whose event was
  refused and replay the rest over a sink that takes everything: the board ends with the
  same belief (the buttons that are down, the contact and the limit in force for it), and the
  application is told the same events. A report makes at most one offer, and the journal that
  shows what was refused has changed nothing.

  A report that plans no event is not refused and stays in: in command and home mode it may
  still change which buttons are down.
-/

import ButtonPanel.Proofs.Board.Run

namespace ButtonPanel

structure Willing

instance : Sink Willing := ⟨fun s _ => (.accepted, s)⟩

namespace Board

variable {n : Nat} {σ : Type} [Sink σ]

def loses (b : Board n (Journal σ)) (r : Report) : Bool :=
  (b.step r).emitter.sink.refused ≠ b.emitter.sink.refused

/-- The reports of a run whose event is not refused. -/
def kept (b : Board n (Journal σ)) : List (Turn (σ → σ)) → List Report
  | [] => []
  | .outside f :: ts => (b.turn Journal.disturb (.outside f)).kept ts
  | .report r :: ts => if b.loses r then (b.step r).kept ts else r :: (b.step r).kept ts

/-- A report that is not lost comes last among those that are kept. -/
theorem kept_concat (b : Board n (Journal σ)) (ts : List (Turn (σ → σ))) {r : Report}
    (hr : (b.turns Journal.disturb ts).loses r = false) : b.kept (ts ++ [.report r]) = b.kept ts ++ [r] := by
  induction ts generalizing b with
  | nil => simp [kept, show b.loses r = false from hr]
  | cons t ts ih =>
    cases t with
    | outside f => exact ih (b.turn Journal.disturb (.outside f)) hr
    | report r' =>
      have hlater := ih (b.step r') hr
      simp only [List.cons_append, kept, hlater]
      split <;> rfl

theorem offered_step (b : Board n (Journal σ)) (r : Report) :
    (b.step r).emitter.sink.offered = b.emitter.sink.offered ++ (b.belief.plan b.emitter.settings r).1.toList := by
  rw [(step_settle b r).2]
  exact (Journal.settle b.emitter b.belief _).1

/-- A report is lost and changes neither the belief nor what was told, or its plan is taken. -/
theorem step_outcome (b : Board n (Journal σ)) (r : Report) :
    (b.loses r = true ∧ (b.step r).belief = b.belief ∧ (b.step r).emitter.sink.accepted = b.emitter.sink.accepted) ∨
      (b.loses r = false ∧ (b.step r).belief = (b.belief.plan b.emitter.settings r).2 ∧
        (b.step r).emitter.sink.accepted =
          b.emitter.sink.accepted ++ (b.belief.plan b.emitter.settings r).1.toList) := by
  obtain ⟨hb, he⟩ := step_settle b r
  rw [hb, loses, he]
  rcases (Journal.settle b.emitter b.belief (b.belief.plan b.emitter.settings r)).2 with
    ⟨h1, h2, h3⟩ | ⟨h1, h2, e, -, h3⟩
  · right; rw [h1, h2, h3]; simp
  · left; rw [h1, h2, h3]; simp

/-- A willing sink loses nothing. -/
theorem loses_willing (c : Board n (Journal Willing)) (r : Report) : c.loses r = false := by
  rw [loses, (step_settle c r).2]
  rcases c.emitter.settle_cases c.belief (c.belief.plan c.emitter.settings r) with
    ⟨-, h⟩ | ⟨e, -, -, h⟩ | ⟨e, why, -, hr, -⟩
  · rw [h]; simp
  · rw [h, show (Sink.send c.emitter.sink e).2.refused = c.emitter.sink.refused from Journal.refused_send _ e]
    simp
  · cases hr

/-- `c` replays `b`, which was told `past` before: same belief, and the rest was told to both. -/
structure Replays (past : List Event) (b : Board n (Journal σ)) (c : Board n (Journal Willing)) : Prop where
  settings : c.emitter.settings = b.emitter.settings
  belief : c.belief = b.belief
  accepted : b.emitter.sink.accepted = past ++ c.emitter.sink.accepted

theorem Replays.lost {past : List Event} {b : Board n (Journal σ)} {c : Board n (Journal Willing)}
    (h : Replays past b c) {r : Report} (hr : b.loses r = true) : Replays past (b.step r) c := by
  rcases step_outcome b r with ⟨-, hb, ha⟩ | ⟨hf, -, -⟩
  · exact ⟨h.settings.trans (settings_step b r).symm, h.belief.trans hb.symm, ha.trans h.accepted⟩
  · rw [hr] at hf; cases hf

theorem Replays.step {past : List Event} {b : Board n (Journal σ)} {c : Board n (Journal Willing)}
    (h : Replays past b c) {r : Report} (hr : b.loses r = false) : Replays past (b.step r) (c.step r) := by
  rcases step_outcome b r with ⟨hf, -, -⟩ | ⟨-, hb, ha⟩
  · rw [hr] at hf; cases hf
  rcases step_outcome c r with ⟨hf, -, -⟩ | ⟨-, hb', ha'⟩
  · rw [loses_willing c r] at hf; cases hf
  refine ⟨?_, ?_, ?_⟩
  · rw [settings_step, settings_step, h.settings]
  · rw [hb, hb', h.belief, h.settings]
  · rw [ha, ha', h.accepted, h.belief, h.settings, List.append_assoc]

theorem Replays.turns {past : List Event} {b : Board n (Journal σ)} {c : Board n (Journal Willing)}
    (h : Replays past b c) (ts : List (Turn (σ → σ))) :
    Replays past (b.turns Journal.disturb ts) (c.run (b.kept ts)) := by
  induction ts generalizing b c with
  | nil => exact h
  | cons t ts ih =>
    cases t with
    | outside f => exact ih (b := b.turn Journal.disturb (.outside f)) ⟨h.settings, h.belief, h.accepted⟩
    | report r =>
      show Replays past ((b.step r).turns Journal.disturb ts)
        (c.run (if b.loses r then (b.step r).kept ts else r :: (b.step r).kept ts))
      cases hr : b.loses r with
      | true => exact ih (h.lost hr)
      | false => exact ih (h.step hr)

theorem loss_is_absence (b : Board n (Journal σ)) (ts : List (Turn (σ → σ))) :
    let b' := b.turns Journal.disturb ts
    let c := (b.withSink ({ sink := {} } : Journal Willing)).run (b.kept ts)
    c.belief = b'.belief ∧ b'.emitter.sink.accepted = b.emitter.sink.accepted ++ c.emitter.sink.accepted ∧
      (∀ r, (b'.step r).emitter.sink.offered.length ≤ b'.emitter.sink.offered.length + 1) ∧
      b'.unjournaled = b.unjournaled.turns (fun sink f => f sink) ts := by
  intro b' c
  have h : Replays b.emitter.sink.accepted b' c :=
    Replays.turns (b := b) ⟨rfl, rfl, (List.append_nil _).symm⟩ ts
  refine ⟨h.belief, h.accepted, fun r => ?_, unjournaled_turns b ts⟩
  rw [offered_step, List.length_append]
  cases (b'.belief.plan b'.emitter.settings r).1 <;> simp

end Board

end ButtonPanel
