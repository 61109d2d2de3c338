/-
  ButtonPanel.Sink.Journal — any sink together with a journal of what it was offered and
  how it answered. The journal does not change what the sink does.
-/

import ButtonPanel.Sink

namespace ButtonPanel

structure Journal (σ : Type) where
  sink : σ
  entries : List (Event × Reply) := []

namespace Journal

variable {σ : Type}

def offered (j : Journal σ) : List Event := j.entries.map (·.1)

def accepted (j : Journal σ) : List Event := (j.entries.filter (·.2 = .accepted)).map (·.1)

def refused (j : Journal σ) : List Event := (j.entries.filter (·.2 ≠ .accepted)).map (·.1)

variable [Sink σ]

def send (j : Journal σ) (e : Event) : Reply × Journal σ :=
  let answer := Sink.send j.sink e
  (answer.1, { sink := answer.2, entries := j.entries ++ [(e, answer.1)] })

instance : Sink (Journal σ) := ⟨send⟩

@[simp] theorem sink_send (j : Journal σ) (e : Event) : (j.send e).2.sink = (Sink.send j.sink e).2 := rfl

@[simp] theorem offered_send (j : Journal σ) (e : Event) : (j.send e).2.offered = j.offered ++ [e] := by
  simp [send, offered]

@[simp] theorem accepted_send (j : Journal σ) (e : Event) :
    (j.send e).2.accepted = if (Sink.send j.sink e).1 = .accepted then j.accepted ++ [e] else j.accepted := by
  simp only [send, accepted, List.filter_append, List.map_append]
  split <;> simp_all

@[simp] theorem refused_send (j : Journal σ) (e : Event) :
    (j.send e).2.refused = if (Sink.send j.sink e).1 = .accepted then j.refused else j.refused ++ [e] := by
  simp only [send, refused, List.filter_append, List.map_append]
  split <;> simp_all

end Journal

end ButtonPanel
