/-
  ButtonPanel.Gesture — what a user does to a panel: press, release or click the button
  that a key addresses. A gesture is written as its verb, a colon and the key; the key is
  what follows the first colon, without blanks around it.
-/

import ButtonPanel.Panel
import ButtonPanel.Text.Blank

namespace ButtonPanel

inductive Verb
  | press
  | release
  | click
  deriving DecidableEq, Repr

namespace Verb

def all : List Verb := [press, release, click]

def name : Verb → String
  | press => "press"
  | release => "release"
  | click => "click"

def ofName? (name : String) : Option Verb := all.find? (·.name = name)

end Verb

structure Gesture where
  verb : Verb
  key : String
  deriving DecidableEq, Repr

structure BadGesture where
  text : String
  deriving DecidableEq, Repr

def BadGesture.message (b : BadGesture) : String :=
  "invalid action '" ++ b.text ++ "': expected press:<button>, release:<button> or click:<button>"

namespace Gesture

def text (g : Gesture) : String := g.verb.name ++ ":" ++ g.key

def ofChars? (s : List Char) : Option Gesture :=
  match s.dropWhile (· ≠ ':') with
  | [] => none
  | _ :: after =>
    let verb := String.ofList (Blank.trim (s.takeWhile (· ≠ ':')))
    match Blank.trim after with
    | [] => none
    | key => (Verb.ofName? verb).map fun v => ⟨v, String.ofList key⟩

def parse (s : String) : Except BadGesture Gesture :=
  match ofChars? s.toList with
  | some g => .ok g
  | none => .error ⟨s⟩

variable {σ : Type} [Sink σ]

/-- Does the gesture on a panel. Gives the button that the key addresses. -/
def apply (g : Gesture) (p : Panel σ) : Except PanelError (ButtonId × Panel σ) :=
  match g.verb with
  | .press => p.press g.key
  | .release => p.release g.key
  | .click => p.click g.key

end Gesture

end ButtonPanel
