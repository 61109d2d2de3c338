/-
  ButtonPanel.Command — the commands a button can stand for. A command has a wire code,
  which is its place in the list of all commands, and a lower-case name.
-/

namespace ButtonPanel

inductive Command
  | esc | back | up | left | down | right | select | cancel | help | menu | exit | start | stop | pause | resume
  | copy | cut | paste | clockwise | anticlockwise | previous | next | display
  deriving DecidableEq, Repr

namespace Command

def all : List Command :=
  [esc, back, up, left, down, right, select, cancel, help, menu, exit, start, stop, pause, resume,
   copy, cut, paste, clockwise, anticlockwise, previous, next, display]

def code (c : Command) : UInt8 := (all.idxOf c).toUInt8

def ofCode? (code : UInt8) : Option Command := all[code.toNat]?

def name : Command → String
  | esc => "esc"
  | back => "back"
  | up => "up"
  | left => "left"
  | down => "down"
  | right => "right"
  | select => "select"
  | cancel => "cancel"
  | help => "help"
  | menu => "menu"
  | exit => "exit"
  | start => "start"
  | stop => "stop"
  | pause => "pause"
  | resume => "resume"
  | copy => "copy"
  | cut => "cut"
  | paste => "paste"
  | clockwise => "clockwise"
  | anticlockwise => "anticlockwise"
  | previous => "previous"
  | next => "next"
  | display => "display"

def ofName? (name : String) : Option Command := all.find? (·.name = name)

theorem mem_all (c : Command) : c ∈ all := by cases c <;> decide

theorem ofCode?_code (c : Command) : ofCode? c.code = some c := by cases c <;> rfl

theorem ofName?_name (c : Command) : ofName? c.name = some c := by cases c <;> decide

end Command

end ButtonPanel
