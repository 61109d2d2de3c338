/-
  ButtonPanel.Proofs.Log — what a sink has taken, and what settling a plan adds to it.

  A log of a sink is a list of events, read off its state, that grows by the events the sink
  accepts and by nothing else (`IsLog`). Two logs:
  - the accepted events of a journal, whatever sink stands behind it (`Journal.isLog`), also
    when something outside changes that sink between two offers (`Journal.disturb`);
  - the delivery of a queue: what its consumer took from it so far, followed by what is
    still unread (`Delivery.isLog`). Taking events leaves it as it is (`delivered_take`).
  `IsLog.settle` and `Journal.settle` say what settling a plan does to a log: the plan is
  taken and its event is logged, or the state stays and the log with it.
-/

import ButtonPanel.Emitter
import ButtonPanel.Sink.Journal
import ButtonPanel.Sink.Queue

namespace ButtonPanel

section Log
variable {σ τ : Type} [Sink σ]

structure IsLog (log : σ → List Event) : Prop where
  accepted : ∀ s e, (Sink.send s e).1 = .accepted → log (Sink.send s e).2 = log s ++ [e]
  refused : ∀ s e why, (Sink.send s e).1 = .refused why → log (Sink.send s e).2 = log s

theorem IsLog.settle {log : σ → List Event} (hl : IsLog log) (m : Emitter σ) (state : τ) (plan : Option Event × τ) :
    ((m.settle state plan).1 = plan.2 ∧ log (m.settle state plan).2.sink = log m.sink ++ plan.1.toList) ∨
      ((m.settle state plan).1 = state ∧ log (m.settle state plan).2.sink = log m.sink) := by
  rcases m.settle_cases state plan with ⟨hp, h⟩ | ⟨e, hp, ha, h⟩ | ⟨e, why, hp, hr, h⟩
  · left; rw [h, hp]; simp
  · left; rw [h, hp]; exact ⟨rfl, hl.accepted _ _ ha⟩
  · right; rw [h]; exact ⟨rfl, hl.refused _ _ why hr⟩

end Log

/-! ## Journals -/

namespace Journal

variable {σ τ : Type}

def disturb (j : Journal σ) (f : σ → σ) : Journal σ := { j with sink := f j.sink }

@[simp] theorem accepted_disturb (j : Journal σ) (f : σ → σ) : (j.disturb f).accepted = j.accepted := rfl

/-- If nothing was refused from `j` to `l`, nothing was refused on either side of a journal between. -/
theorem refused_between {j k l : Journal σ} (hjk : j.entries <+: k.entries) (hkl : k.entries <+: l.entries)
    (h : l.refused = j.refused) : k.refused = j.refused ∧ l.refused = k.refused := by
  have h₁ : j.refused <+: k.refused := (hjk.filter _).map _
  have h₂ : k.refused <+: l.refused := (hkl.filter _).map _
  have hk : j.refused = k.refused := h₁.eq_of_length_le (h ▸ h₂.length_le)
  exact ⟨hk.symm, h.trans hk⟩

/-- If nothing was refused, what was offered was accepted. -/
theorem accepted_of_refused_eq {j k : Journal σ} (h : j.entries <+: k.entries) (hr : k.refused = j.refused)
    {news : List Event} (ho : k.offered = j.offered ++ news) : k.accepted = j.accepted ++ news := by
  obtain ⟨new, he⟩ := h
  simp only [refused, ← he, List.filter_append, List.map_append, List.append_right_eq_self, List.map_eq_nil_iff,
    List.filter_eq_nil_iff] at hr
  simp only [offered, ← he, List.map_append, List.append_cancel_left_eq] at ho
  have hall : new.filter (·.2 = .accepted) = new := List.filter_eq_self.mpr fun x hx => by simpa using hr x hx
  simp only [accepted, ← he, List.filter_append, List.map_append, hall, ho]

variable [Sink σ]

theorem isLog : IsLog (accepted : Journal σ → List Event) where
  accepted j e h := (accepted_send j e).trans (if_pos h)
  refused j e why h := (accepted_send j e).trans (if_neg (by
    rw [show (Sink.send j.sink e).1 = .refused why from h]; nofun))

/-- Keeping a journal changes nothing that settling does. -/
theorem settle_sink (m : Emitter (Journal σ)) (state : τ) (plan : Option Event × τ) :
    (m.settle state plan).1 = (Emitter.settle ⟨m.settings, m.sink.sink⟩ state plan).1 ∧
      (⟨(m.settle state plan).2.settings, (m.settle state plan).2.sink.sink⟩ : Emitter σ) =
        (Emitter.settle ⟨m.settings, m.sink.sink⟩ state plan).2 := by
  obtain ⟨_ | e, next⟩ := plan
  · exact ⟨rfl, rfl⟩
  · simp only [Emitter.settle, Emitter.offer, Sink.send, Journal.send]
    rcases Sink.send m.sink.sink e with ⟨_ | why, sink⟩ <;> exact ⟨rfl, rfl⟩

theorem entries_settle (m : Emitter (Journal σ)) (state : τ) (plan : Option Event × τ) :
    m.sink.entries <+: (m.settle state plan).2.sink.entries := by
  rcases m.settle_cases state plan with ⟨-, h⟩ | ⟨e, -, -, h⟩ | ⟨e, why, -, -, h⟩
  · exact h ▸ List.prefix_refl _
  · exact h ▸ List.prefix_append _ _
  · exact h ▸ List.prefix_append _ _

/-- Settling over a journal: the event of the plan is offered, and it is either accepted and
    the plan is taken, or refused and the state stays. -/
theorem settle (m : Emitter (Journal σ)) (state : τ) (plan : Option Event × τ) :
    (m.settle state plan).2.sink.offered = m.sink.offered ++ plan.1.toList ∧
      (((m.settle state plan).1 = plan.2 ∧ (m.settle state plan).2.sink.refused = m.sink.refused ∧
          (m.settle state plan).2.sink.accepted = m.sink.accepted ++ plan.1.toList) ∨
        ((m.settle state plan).1 = state ∧ (m.settle state plan).2.sink.accepted = m.sink.accepted ∧
          ∃ e, plan.1 = some e ∧ (m.settle state plan).2.sink.refused = m.sink.refused ++ [e])) := by
  rcases m.settle_cases state plan with ⟨hp, h⟩ | ⟨e, hp, ha, h⟩ | ⟨e, why, hp, hr, h⟩
  · rw [h, hp]
    exact ⟨by simp, Or.inl ⟨rfl, rfl, by simp⟩⟩
  · rw [h, hp]
    exact ⟨offered_send m.sink e, Or.inl ⟨rfl, (refused_send m.sink e).trans (if_pos ha), isLog.accepted _ _ ha⟩⟩
  · rw [h, hp]
    have hne : (Sink.send m.sink.sink e).1 ≠ .accepted := by
      rw [show (Sink.send m.sink.sink e).1 = .refused why from hr]; nofun
    exact ⟨offered_send m.sink e, Or.inr ⟨rfl, isLog.refused _ _ why hr, e, rfl,
      (refused_send m.sink e).trans (if_neg hne)⟩⟩

end Journal

/-! ## Deliveries -/

structure Delivery where
  queue : Queue
  taken : List Event := []
  deriving DecidableEq, Repr

inductive Take
  | poll
  | drain
  deriving DecidableEq, Repr

namespace Delivery

def send (d : Delivery) (e : Event) : Reply × Delivery :=
  let answer := d.queue.send e
  (answer.1, { d with queue := answer.2 })

instance : Sink Delivery := ⟨send⟩

def take (d : Delivery) : Take → Delivery
  | .poll => { queue := d.queue.poll.2, taken := d.taken ++ d.queue.poll.1.toList }
  | .drain => { queue := d.queue.drain.2, taken := d.taken ++ d.queue.drain.1 }

/-- What was taken, followed by what is unread. -/
def delivered (d : Delivery) : List Event := d.taken ++ d.queue.unread

theorem delivered_take (d : Delivery) (t : Take) : (d.take t).delivered = d.delivered := by
  cases t with
  | poll =>
    rcases hq : d.queue.unread with _ | ⟨e, rest⟩
    · simp [take, delivered, Queue.poll, hq]
    · simp [take, delivered, Queue.poll, hq]
  | drain => simp [take, delivered, Queue.drain]

theorem isLog : IsLog delivered where
  accepted d e h := by
    simp only [Sink.send, send, Queue.send] at h ⊢
    split at h
    · cases h
    · rename_i hroom
      simp [hroom, delivered]
  refused d e why h := by
    simp only [Sink.send, send, Queue.send] at h ⊢
    split at h
    · rename_i hfull
      simp [hfull, delivered]
    · cases h

end Delivery

end ButtonPanel
