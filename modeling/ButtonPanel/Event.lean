/-
  ButtonPanel.Event — what the user interface is told: a button changed, a command was
  given, a named generator has a value, or the touch contact changed. Each event has one
  line of text.
-/

import ButtonPanel.Button.Id
import ButtonPanel.Command
import ButtonPanel.Text.Hex

namespace ButtonPanel

inductive Event
  | buttonPressed (id : ButtonId)
  | buttonRepeated (id : ButtonId)
  | buttonReleased (id : ButtonId)
  | command (c : Command)
  | generic (generator : String) (value : Int32)
  | touchPressed (x y : Int32)
  | touchMoved (x y : Int32)
  | touchReleased
  deriving DecidableEq, Repr

namespace Event

/-- A position in brackets, both coordinates in decimal. -/
def pointText (x y : Int32) : String := "(" ++ x.toInt.repr ++ ", " ++ y.toInt.repr ++ ")"

/-- A wire code as `0x` and two hexadecimal digits. -/
def codeText (c : Command) : String := "0x" ++ String.ofList (Hex.byte c.code.toNat)

def text : Event → String
  | buttonPressed id => "button pressed " ++ id.text
  | buttonRepeated id => "button repeated " ++ id.text
  | buttonReleased id => "button released " ++ id.text
  | command c => "command " ++ c.name ++ " (" ++ codeText c ++ ")"
  | generic generator value => "generic " ++ generator ++ "=" ++ value.toInt.repr
  | touchPressed x y => "touch pressed " ++ pointText x y
  | touchMoved x y => "touch moved " ++ pointText x y
  | touchReleased => "touch released"

end Event

end ButtonPanel
