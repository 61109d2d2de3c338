/-
  ButtonPanel.Sink — a destination for events. It is offered one event at a time and
  takes it or refuses it; what it does next may depend on anything it was offered before.
-/

import ButtonPanel.Event

namespace ButtonPanel

inductive Refusal
  | queueFull
  | rejected
  deriving DecidableEq, Repr

def Refusal.message : Refusal → String
  | queueFull => "UI event queue is full"
  | rejected => "UI framework rejected the event"

inductive Reply
  | accepted
  | refused (why : Refusal)
  deriving DecidableEq, Repr

/-- A destination with state `σ`: `send` answers an offer and gives the state after it. -/
class Sink (σ : Type) where
  send : σ → Event → Reply × σ

end ButtonPanel
