/-
  ButtonPanel.Panel.Widget — a button as it stands on the front panel: a number and a label.
-/

import ButtonPanel.Button.Id

namespace ButtonPanel

structure Widget where
  id : ButtonId
  label : String
  deriving DecidableEq, Repr

/-- Whether a key is the label or the number in decimal. -/
def Widget.matches (w : Widget) (key : String) : Bool := w.label == key || w.id.numeral == key

end ButtonPanel
