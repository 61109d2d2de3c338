/-
  ButtonPanel.Panel.Document — a configuration as a JSON document. Members that are
  missing take their defaults, except those of a button, which has to have a number and a
  label.
-/

import ButtonPanel.Json.Codec
import ButtonPanel.Panel.Config

namespace ButtonPanel.Document

open Json (Codec)

def buttonId : Codec ButtonId := .integer (fun i => (ButtonId.ofInt i).toOption) (fun id => id.toNat)

def command : Codec Command := .choice Command.ofName? Command.name

def mode : Codec Mode := .choice Mode.ofName? Mode.name

/-- A signed number of 32 bits. -/
def homeValue : Codec Int32 :=
  .integer (fun i => if Int32.minValue.toInt ≤ i ∧ i ≤ Int32.maxValue.toInt then some (Int32.ofInt i) else none) Int32.toInt

/-- An unsigned number of 64 bits. -/
def queueDepth : Codec UInt64 :=
  .integer (fun i => if 0 ≤ i ∧ i < UInt64.size then some i.toNat.toUInt64 else none) (fun d => d.toNat)

def settings : Codec Settings :=
  .record
    [.of "mode" mode (fun s m => { s with mode := m }) (·.mode),
     .of "command" command (fun s c => { s with command := c }) (·.command),
     .of "home_value" homeValue (fun s v => { s with homeValue := v }) (·.homeValue)]
    default some

structure WidgetDraft where
  id? : Option ButtonId := none
  label? : Option String := none

def WidgetDraft.finish (d : WidgetDraft) : Option Widget := do return ⟨← d.id?, ← d.label?⟩

def widget : Codec Widget :=
  .record
    [.of "id" buttonId (fun d id => { d with id? := some id }) (·.id),
     .of "label" .text (fun d label => { d with label? := some label }) (·.label)]
    {} WidgetDraft.finish

def panelConfig : Codec PanelConfig :=
  .record
    [.of "buttons" widget.list (fun c bs => { c with buttons := bs }) (·.buttons),
     .of "listener" settings (fun c s => { c with listener := s }) (·.listener),
     .of "queue_depth" queueDepth (fun c d => { c with queueDepth := d }) (·.queueDepth)]
    default some

end ButtonPanel.Document
