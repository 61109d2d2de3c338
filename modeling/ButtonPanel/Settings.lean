/-
  ButtonPanel.Settings — a mode with the command and the home value it may need, and the
  event, if any, that the settings make of what a button does.

  On the front panel a button is pressed and released; on the board it is pressed, held
  and released. The two disagree on one point: in button mode the panel announces a
  release as another press.
-/

import ButtonPanel.Event
import ButtonPanel.Mode

namespace ButtonPanel

structure Settings where
  mode : Mode := .home
  command : Command := .esc
  homeValue : Int32 := 1
  deriving DecidableEq, Repr

inductive Stroke
  | press
  | release
  deriving DecidableEq, Repr

inductive Phase
  | press
  | hold
  | release
  deriving DecidableEq, Repr

inductive Setting
  | mode (m : Mode)
  | command (c : Command)
  | homeValue (v : Int32)
  deriving DecidableEq, Repr

namespace Settings

instance : Inhabited Settings := ⟨{}⟩

/-- The generator that the home event is addressed to. -/
def homeGenerator : String := "WADAPPS"

def set (s : Settings) : Setting → Settings
  | .mode m => { s with mode := m }
  | .command c => { s with command := c }
  | .homeValue v => { s with homeValue := v }

def panelEvent? (s : Settings) (id : ButtonId) (stroke : Stroke) : Option Event :=
  match s.mode, stroke with
  | .button, _ => some (.buttonPressed id)
  | .command, .press => some (.command s.command)
  | .home, .press => some (.generic homeGenerator s.homeValue)
  | _, .release => none

def boardEvent? (s : Settings) (id : ButtonId) (phase : Phase) : Option Event :=
  match s.mode, phase with
  | .button, .press => some (.buttonPressed id)
  | .button, .hold => some (.buttonRepeated id)
  | .button, .release => some (.buttonReleased id)
  | .command, .press => some (.command s.command)
  | .command, .hold => some (.command s.command)
  | .home, .press => some (.generic homeGenerator s.homeValue)
  | _, _ => none

end Settings

end ButtonPanel
