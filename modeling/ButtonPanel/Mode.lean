/-
  ButtonPanel.Mode — which family of events a button gives rise to: events that carry its
  number, one fixed command, or the home event. A mode is chosen once and has a name.
-/

namespace ButtonPanel

inductive Mode
  | button
  | command
  | home
  deriving DecidableEq, Repr

namespace Mode

instance : Inhabited Mode := ⟨home⟩

def all : List Mode := [button, command, home]

def name : Mode → String
  | button => "button"
  | command => "command"
  | home => "home"

def ofName? (name : String) : Option Mode := all.find? (·.name = name)

def unknownMessage : String := "unknown button mode (expected button, command or home)"

theorem ofName?_name (m : Mode) : ofName? m.name = some m := by cases m <;> decide

end Mode

end ButtonPanel
