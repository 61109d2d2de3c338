/-
  ButtonPanel.Panel — the front panel: labelled buttons, the set of those held down, and
  the emitter that hears of presses and releases. A button is addressed by its label or by
  its number; a label wins over a number. The panel never learns whether an event was
  taken.
-/

import ButtonPanel.Button.Set
import ButtonPanel.Panel.Widget
import ButtonPanel.Emitter

namespace ButtonPanel

inductive PanelError
  | unknownButton (key : String)
  | duplicateId (id : ButtonId)
  | duplicateLabel (label : String)
  | emptyLabel
  deriving DecidableEq, Repr

def PanelError.message : PanelError → String
  | unknownButton key => "No button named or numbered '" ++ key ++ "'"
  | duplicateId id => "Button " ++ id.text ++ " is already on the panel"
  | duplicateLabel label => "Button label '" ++ label ++ "' is already used"
  | emptyLabel => "Button label is empty"

structure Panel (σ : Type) where
  widgets : List Widget := []
  held : ButtonSet 256 := .empty
  emitter : Emitter σ

def Widget.conflict? (w : Widget) (others : List Widget) : Option PanelError :=
  if w.label = "" then some .emptyLabel
  else if others.any (·.id = w.id) then some (.duplicateId w.id)
  else if others.any (·.label = w.label) then some (.duplicateLabel w.label)
  else none

namespace Panel

variable {σ : Type}

def add (p : Panel σ) (w : Widget) : Except PanelError (Panel σ) :=
  match w.conflict? p.widgets with
  | some e => .error e
  | none => .ok { p with widgets := p.widgets ++ [w] }

def addAll (p : Panel σ) : List Widget → Except PanelError (Panel σ)
  | [] => .ok p
  | w :: rest => (p.add w).bind (·.addAll rest)

/-- The button that a key addresses: the one so labelled, or else the one so numbered. -/
def resolve (p : Panel σ) (key : String) : Except PanelError Widget :=
  match p.widgets.find? (·.label == key) <|> p.widgets.find? (·.matches key) with
  | some w => .ok w
  | none => .error (.unknownButton key)

def isHeld (p : Panel σ) (key : String) : Except PanelError Bool :=
  (p.resolve key).map fun w => p.held.contains w.id

variable [Sink σ]

def strike (p : Panel σ) (id : ButtonId) (stroke : Stroke) : Panel σ :=
  { p with held := p.held.put id (stroke = .press), emitter := p.emitter.strike id stroke }

def strikeAt (p : Panel σ) (key : String) (stroke : Stroke) : Except PanelError (ButtonId × Panel σ) :=
  (p.resolve key).map fun w => (w.id, p.strike w.id stroke)

def press (p : Panel σ) (key : String) : Except PanelError (ButtonId × Panel σ) := p.strikeAt key .press

def release (p : Panel σ) (key : String) : Except PanelError (ButtonId × Panel σ) := p.strikeAt key .release

def click (p : Panel σ) (key : String) : Except PanelError (ButtonId × Panel σ) :=
  (p.press key).bind fun (_, p) => p.release key

end Panel

end ButtonPanel
