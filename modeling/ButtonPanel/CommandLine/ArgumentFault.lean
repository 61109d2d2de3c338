/-
  ButtonPanel.CommandLine.ArgumentFault — what can be wrong with the arguments of the
  program, and how it is said. A message marks some of its parts for a terminal. Where it
  is written as plain text the marks are taken out, and with them whatever in the arguments
  themselves is made for a terminal.
-/

import ButtonPanel.CommandLine.Options
import ButtonPanel.Gesture
import ButtonPanel.Text.Visible

namespace ButtonPanel.CommandLine

inductive Mark
  | heading
  /-- Something to be written as it stands. -/
  | literal
  /-- Something that is wrong. -/
  | wrong
  deriving DecidableEq, Repr

namespace Mark

def start : Mark → String
  | heading => "\x1b[1m\x1b[31m"
  | literal => "\x1b[1m"
  | wrong => "\x1b[33m"

def apply (m : Mark) (s : String) : String := m.start ++ s ++ "\x1b[0m"

def quote (m : Mark) (s : String) : String := "'" ++ m.apply s ++ "'"

end Mark

inductive ArgumentFault
  | unexpected (shown : String)
  | valueForNotice (n : Notice) (value : String)
  | valueMissing (flag : Flag)
  | repeated (flag : Flag)
  | badMode (text : String)
  | badGesture (why : BadGesture)
  | scriptAndActions (scriptFirst : Bool)
  | nothingToDo
  deriving DecidableEq, Repr

namespace ArgumentFault

def invalidValue (value usage reason : String) : String :=
  "invalid value " ++ Mark.wrong.quote value ++ " for " ++ Mark.literal.quote usage ++ ": " ++ reason

def conflict (first second : String) : String :=
  "the argument " ++ Mark.wrong.quote first ++ " cannot be used with " ++ Mark.wrong.quote second

def marked : ArgumentFault → String
  | unexpected shown => "unexpected argument " ++ Mark.wrong.quote shown ++ " found"
  | valueForNotice n value =>
    "unexpected value " ++ Mark.wrong.quote value ++ " for " ++ Mark.literal.quote n.usage ++
      " found; no more were expected"
  | valueMissing flag => "a value is required for " ++ Mark.literal.quote flag.usage ++ " but none was supplied"
  | repeated flag => "the argument " ++ Mark.wrong.quote flag.usage ++ " cannot be used multiple times"
  | badMode text =>
    invalidValue text Flag.mode.usage ("unknown mode '" ++ text ++ "' (expected button, command or home)")
  | badGesture why => invalidValue why.text actionsUsage why.message
  | scriptAndActions true => conflict Flag.script.usage actionsUsage
  | scriptAndActions false => conflict actionsUsage Flag.script.usage
  | nothingToDo => "the following required arguments were not provided:\n  " ++ Mark.literal.apply "<ACTIONS>..."

/-- The message in plain text: what is wrong, and where there is help. Some faults come with a tip
    and a line on the usage between the two; these are left out. -/
def message (f : ArgumentFault) : String :=
  Visible.text (Mark.heading.apply "error:" ++ " " ++ f.marked ++
    "\n\nFor more information, try " ++ Mark.literal.quote Notice.help.usage ++ ".")

end ArgumentFault

end ButtonPanel.CommandLine
