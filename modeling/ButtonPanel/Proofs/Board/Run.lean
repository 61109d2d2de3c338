/-
  ButtonPanel.Proofs.Board.Run — runs of a board. What a board believes is which buttons are
  down and what the touch contact does (`Belief`); a report plans an event and the belief
  that holds once the event is taken, and a step settles that plan (`step_settle`).

  Between two reports something outside may act on the sink: a consumer takes events, a
  framework starts or stops rejecting. A run is a list of such turns. `turns_keep`: whatever
  ties the belief to a log of the sink and is kept by every plan holds after every run. One such
  log is that of a journal, and keeping it changes nothing in a run (`unjournaled_turns`).
-/

import ButtonPanel.Board
import ButtonPanel.Proofs.Log

namespace ButtonPanel

structure Belief (n : Nat) where
  down : ButtonSet n
  touch : Touch
  deriving DecidableEq

def Belief.plan {n : Nat} (k : Belief n) (s : Settings) : Report → Option Event × Belief n
  | .button id r => ((k.down.plan s id r).1, { k with down := (k.down.plan s id r).2 })
  | .touch r => ((k.touch.plan r).1, { k with touch := (k.touch.plan r).2 })

/-- What can happen to a board: a report, or an act of kind `α` on its sink. -/
inductive Turn (α : Type)
  | report (r : Report)
  | outside (a : α)

namespace Board

variable {n : Nat} {σ α : Type}

def fresh (firstLimit laterLimit : UInt32) (m : Emitter σ) : Board n σ :=
  { touch := { firstLimit, laterLimit }, emitter := m }

def belief (b : Board n σ) : Belief n := ⟨b.down, b.touch⟩

def withSink (b : Board n σ) {τ : Type} (sink : τ) : Board n τ :=
  { down := b.down, touch := b.touch, emitter := { settings := b.emitter.settings, sink } }

/-- The board over the sink behind its journal. -/
def unjournaled (b : Board n (Journal σ)) : Board n σ := b.withSink b.emitter.sink.sink

variable [Sink σ]

def turn (act : σ → α → σ) (b : Board n σ) : Turn α → Board n σ
  | .report r => b.step r
  | .outside a => b.withSink (act b.emitter.sink a)

def turns (act : σ → α → σ) (b : Board n σ) (ts : List (Turn α)) : Board n σ := ts.foldl (turn act) b

theorem turns_concat (act : σ → α → σ) (b : Board n σ) (ts : List (Turn α)) (t : Turn α) :
    b.turns act (ts ++ [t]) = (b.turns act ts).turn act t := by
  simp [turns]

/-- A step settles the plan of the report. -/
theorem step_settle (b : Board n σ) (r : Report) :
    (b.step r).belief = (b.emitter.settle b.belief (b.belief.plan b.emitter.settings r)).1 ∧
      (b.step r).emitter = (b.emitter.settle b.belief (b.belief.plan b.emitter.settings r)).2 := by
  cases r with
  | button id r =>
    have h := Emitter.settle_map (fun d => { b.belief with down := d }) b.emitter b.down
      (b.down.plan b.emitter.settings id r)
    exact ⟨congrArg Prod.fst h.symm, congrArg Prod.snd h.symm⟩
  | touch r =>
    have h := Emitter.settle_map (fun t => { b.belief with touch := t }) b.emitter b.touch (b.touch.plan r)
    exact ⟨congrArg Prod.fst h.symm, congrArg Prod.snd h.symm⟩

@[simp] theorem settings_step (b : Board n σ) (r : Report) : (b.step r).emitter.settings = b.emitter.settings := by
  rw [(step_settle b r).2, Emitter.settings_settle]

/-- Keeping a journal changes nothing that a step does. -/
theorem unjournaled_step (b : Board n (Journal σ)) (r : Report) : (b.step r).unjournaled = b.unjournaled.step r := by
  cases r with
  | button id r =>
    obtain ⟨hs, he⟩ := Journal.settle_sink b.emitter b.down (b.down.plan b.emitter.settings id r)
    simp only [step, unjournaled, withSink, hs, he]
  | touch r =>
    obtain ⟨hs, he⟩ := Journal.settle_sink b.emitter b.touch (b.touch.plan r)
    simp only [step, unjournaled, withSink, hs, he]

theorem unjournaled_turns (b : Board n (Journal σ)) (ts : List (Turn (σ → σ))) :
    (b.turns Journal.disturb ts).unjournaled = b.unjournaled.turns (fun sink f => f sink) ts := by
  induction ts generalizing b with
  | nil => rfl
  | cons t ts ih =>
    cases t with
    | report r =>
      have hrest := ih (b.step r)
      rw [unjournaled_step] at hrest
      exact hrest
    | outside f => exact ih (b.withSink (b.emitter.sink.disturb f))

section Keep

variable {log : σ → List Event} {act : σ → α → σ} {I : Belief n → List Event → Prop}

/-- What a plan keeps, whether or not its event is taken, a step keeps. -/
theorem step_keeps (hl : IsLog log) (b : Board n σ)
    (hplan : ∀ k es r, I k es → I (k.plan b.emitter.settings r).2 (es ++ (k.plan b.emitter.settings r).1.toList))
    (r : Report) (h : I b.belief (log b.emitter.sink)) : I (b.step r).belief (log (b.step r).emitter.sink) := by
  obtain ⟨hb, he⟩ := step_settle b r
  rw [hb, he]
  rcases hl.settle b.emitter b.belief (b.belief.plan b.emitter.settings r) with ⟨h1, h2⟩ | ⟨h1, h2⟩
  · rw [h1, h2]; exact hplan _ _ _ h
  · rw [h1, h2]; exact h

/-- A relation of the belief with a log that every plan keeps holds after every run of
    reports and outside acts, if those acts leave the log as it is. -/
theorem turns_keep (hl : IsLog log) (hact : ∀ s a, log (act s a) = log s) (b : Board n σ)
    (hplan : ∀ k es r, I k es → I (k.plan b.emitter.settings r).2 (es ++ (k.plan b.emitter.settings r).1.toList))
    (h : I b.belief (log b.emitter.sink)) (ts : List (Turn α)) :
    I (b.turns act ts).belief (log (b.turns act ts).emitter.sink) := by
  induction ts generalizing b with
  | nil => exact h
  | cons t ts ih =>
    cases t with
    | report r =>
      refine ih (b.step r) ?_ (step_keeps hl b hplan r h)
      rw [settings_step]
      exact hplan
    | outside a =>
      refine ih (b.withSink (act b.emitter.sink a)) hplan ?_
      show I b.belief (log (act b.emitter.sink a))
      rw [hact]
      exact h

end Keep

end Board

end ButtonPanel
