/-
  ButtonPanel.Script — a text with one gesture a line. Blank lines and lines that start
  with `#` say nothing, blanks around a line do not matter, and lines are counted from 1,
  all of them. The first line that is no gesture makes the whole script bad.
-/

import ButtonPanel.Files
import ButtonPanel.Gesture

namespace ButtonPanel

structure BadLine where
  number : Nat
  cause : BadGesture
  deriving DecidableEq, Repr

def BadLine.message (b : BadLine) : String := "line " ++ b.number.repr

inductive ScriptError
  | unreadable (path : String) (why : ReadFault)
  | badLine (path : String) (why : BadLine)
  deriving DecidableEq, Repr

namespace ScriptError

def message : ScriptError → String
  | unreadable path _ => "reading script " ++ path
  | badLine path _ => "parsing script " ++ path

def causes : ScriptError → List String
  | unreadable _ why => [why.message]
  | badLine _ why => [why.message, why.cause.message]

end ScriptError

namespace Script

/-- The first line of a text and the lines after it, without the line feeds between them. -/
def splitLines : List Char → List Char × List (List Char)
  | [] => ([], [])
  | c :: s =>
    let rest := splitLines s
    if c = '\n' then ([], rest.1 :: rest.2) else (c :: rest.1, rest.2)

/-- The lines of a text; there is always one more than there are line feeds. -/
def lines (s : List Char) : List (List Char) :=
  let split := splitLines s
  split.1 :: split.2

/-- Whether a line, without the blanks around it, says nothing. -/
def isSilent (line : List Char) : Bool := line.isEmpty || line.head? = some '#'

/-- The gestures of lines, the first of which has the given number. -/
def ofLines (number : Nat) : List (List Char) → Except BadLine (List Gesture)
  | [] => .ok []
  | l :: ls =>
    let line := Blank.trim l
    if isSilent line then ofLines (number + 1) ls
    else match Gesture.parse (String.ofList line) with
      | .error cause => .error ⟨number, cause⟩
      | .ok g => (ofLines (number + 1) ls).map (g :: ·)

def parse (text : String) : Except BadLine (List Gesture) := ofLines 1 (lines text.toList)

def load (files : Files) (path : String) : Except ScriptError (List Gesture) :=
  match files.readText path with
  | .error why => .error (.unreadable path why)
  | .ok text =>
    match parse text with
    | .error why => .error (.badLine path why)
    | .ok gs => .ok gs

end Script

end ButtonPanel
