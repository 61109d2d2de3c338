/-
  ButtonPanel.Panel.Config — what a front panel is built from: its buttons, the settings
  of its emitter and the depth of its event queue. A configuration is valid when the queue
  has room and the buttons can be placed one after the other; a valid one can still ask
  for more room than can be allocated.
-/

import ButtonPanel.Panel
import ButtonPanel.Sink.Queue

namespace ButtonPanel

structure PanelConfig where
  buttons : List Widget := [⟨.ofNat 0, "USER"⟩]
  listener : Settings := {}
  queueDepth : UInt64 := 32
  deriving DecidableEq, Repr

inductive PanelConfig.Invalid
  | zeroQueueDepth
  | buttons (e : PanelError)
  deriving DecidableEq, Repr

inductive PanelConfig.BuildError
  | invalid (e : PanelConfig.Invalid)
  | capacityOverflow
  deriving DecidableEq, Repr

/-- The first button in a list that cannot be placed after those before it, and why. -/
def firstConflict? (placed : List Widget) : List Widget → Option PanelError
  | [] => none
  | w :: rest =>
    match w.conflict? placed with
    | some e => some e
    | none => firstConflict? (placed ++ [w]) rest

namespace PanelConfig

instance : Inhabited PanelConfig := ⟨{}⟩

def withMode (c : PanelConfig) (m : Mode) : PanelConfig := { c with listener := c.listener.set (.mode m) }

def validate (c : PanelConfig) : Except Invalid Unit :=
  if c.queueDepth = 0 then .error .zeroQueueDepth
  else match firstConflict? [] c.buttons with
    | some e => .error (.buttons e)
    | none => .ok ()

def build (c : PanelConfig) : Except BuildError (Panel Queue) :=
  if c.queueDepth = 0 then .error (.invalid .zeroQueueDepth)
  else match Queue.ofCapacity? c.queueDepth.toNat with
    | none => .error .capacityOverflow
    | some queue =>
      let panel : Panel Queue := { emitter := { settings := c.listener, sink := queue } }
      match panel.addAll c.buttons with
      | .ok panel => .ok panel
      | .error e => .error (.invalid (.buttons e))

end PanelConfig

end ButtonPanel
