/-
  ButtonPanel.Emitter — settings wired to a sink. An emitter turns what a button does into
  at most one offer to its sink. Where the settings have nothing to say the call succeeds
  and the sink is not asked.
-/

import ButtonPanel.Settings
import ButtonPanel.Sink

namespace ButtonPanel

structure Emitter (σ : Type) where
  settings : Settings
  sink : σ
  deriving DecidableEq, Repr

namespace Emitter

variable {σ : Type} [Sink σ]

def offer (m : Emitter σ) : Option Event → Reply × Emitter σ
  | none => (.accepted, m)
  | some e =>
    let answer := Sink.send m.sink e
    (answer.1, { m with sink := answer.2 })

def tell (m : Emitter σ) (es : List Event) : Emitter σ :=
  { m with sink := es.foldl (fun s e => (Sink.send s e).2) m.sink }

/-- A front panel button was pressed or released. A refused event is lost. -/
def strike (m : Emitter σ) (id : ButtonId) (stroke : Stroke) : Emitter σ :=
  (m.offer (m.settings.panelEvent? id stroke)).2

/-- A board button was pressed, held or released. -/
def advance (m : Emitter σ) (id : ButtonId) (phase : Phase) : Reply × Emitter σ :=
  m.offer (m.settings.boardEvent? id phase)

/-- Offers the event of a planned step. The step is taken unless the event is refused;
    then the state stays as it was. -/
def settle {τ : Type} (m : Emitter σ) (state : τ) (plan : Option Event × τ) : τ × Emitter σ :=
  match m.offer plan.1 with
  | (.accepted, m) => (plan.2, m)
  | (.refused _, m) => (state, m)

@[simp] theorem settings_offer (m : Emitter σ) (e? : Option Event) : (m.offer e?).2.settings = m.settings := by
  cases e? <;> rfl

theorem tell_append (m : Emitter σ) (es fs : List Event) : m.tell (es ++ fs) = (m.tell es).tell fs := by
  simp only [tell, List.foldl_append]

/-- What settling a plan can do: nothing to offer and the plan is taken, an offer accepted and
    the plan is taken, or an offer refused and the state stays. -/
theorem settle_cases {τ : Type} (m : Emitter σ) (state : τ) (plan : Option Event × τ) :
    (plan.1 = none ∧ m.settle state plan = (plan.2, m)) ∨
    (∃ e, plan.1 = some e ∧ (Sink.send m.sink e).1 = .accepted ∧
      m.settle state plan = (plan.2, { m with sink := (Sink.send m.sink e).2 })) ∨
    (∃ e why, plan.1 = some e ∧ (Sink.send m.sink e).1 = .refused why ∧
      m.settle state plan = (state, { m with sink := (Sink.send m.sink e).2 })) := by
  obtain ⟨_ | e, next⟩ := plan
  · exact Or.inl ⟨rfl, rfl⟩
  · rcases h : (Sink.send m.sink e).1 with _ | why
    · exact Or.inr (Or.inl ⟨e, rfl, h, by simp only [settle, offer, h]⟩)
    · exact Or.inr (Or.inr ⟨e, why, rfl, h, by simp only [settle, offer, h]⟩)

/-- Settling a plan takes it or leaves the state as it was. -/
theorem settle_state {τ : Type} (m : Emitter σ) (state : τ) (plan : Option Event × τ) :
    (m.settle state plan).1 = plan.2 ∨ (m.settle state plan).1 = state := by
  rcases settle_cases m state plan with ⟨-, h⟩ | ⟨e, -, -, h⟩ | ⟨e, why, -, -, h⟩
  · exact Or.inl (congrArg Prod.fst h)
  · exact Or.inl (congrArg Prod.fst h)
  · exact Or.inr (congrArg Prod.fst h)

/-- Settling a plan offers its event, if it has one, whatever the answer is. -/
theorem settle_emitter {τ : Type} (m : Emitter σ) (state : τ) (plan : Option Event × τ) :
    (m.settle state plan).2 = m.tell plan.1.toList := by
  rcases settle_cases m state plan with ⟨hp, h⟩ | ⟨e, hp, -, h⟩ | ⟨e, why, hp, -, h⟩
  · rw [h, hp]
    rfl
  · rw [h, hp]
    rfl
  · rw [h, hp]
    rfl

/-- Settling a plan for part of a state is settling it for the whole. -/
theorem settle_map {τ υ : Type} (f : τ → υ) (m : Emitter σ) (state : τ) (plan : Option Event × τ) :
    m.settle (f state) (plan.1, f plan.2) = (f (m.settle state plan).1, (m.settle state plan).2) := by
  simp only [settle]
  rcases m.offer plan.1 with ⟨_ | why, m'⟩ <;> rfl

@[simp] theorem settings_settle {τ : Type} (m : Emitter σ) (state : τ) (plan : Option Event × τ) :
    (m.settle state plan).2.settings = m.settings := by
  rcases settle_cases m state plan with ⟨_, h⟩ | ⟨e, _, _, h⟩ | ⟨e, why, _, _, h⟩ <;> rw [h]

end Emitter

end ButtonPanel
