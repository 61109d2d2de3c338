/-
  ButtonPanel.CommandLine.Run — the whole program as a function of its arguments and the
  files it may read. It loads a configuration, builds the panel and does the gestures one
  by one; after each gesture it takes all events from the queue and prints them. The first
  gesture whose key addresses no button ends the run with an error.
-/

import ButtonPanel.CommandLine.Arguments
import ButtonPanel.CommandLine.ErrorReport
import ButtonPanel.Panel.Load
import ButtonPanel.Panel.Receiver
import ButtonPanel.Script

namespace ButtonPanel.CommandLine

inductive RunError
  | config (path : String) (why : ConfigError)
  | script (why : ScriptError)
  | build (why : PanelConfig.Invalid)
  | capacityOverflow
  | gesture (number : Nat) (g : Gesture) (why : PanelError)
  deriving DecidableEq, Repr

namespace RunError

/-- What is reported. A queue that cannot be allocated is no ordinary error: it ends the run without a report. -/
def report? : RunError → Option ErrorReport
  | config path why => some ⟨"loading panel config " ++ path, why.message :: why.causes⟩
  | script why => some ⟨why.message, why.causes⟩
  | build why => some ⟨"building front panel", (ConfigError.invalid why).message :: (ConfigError.invalid why).causes⟩
  | capacityOverflow => none
  | gesture number g why => some ⟨"action " ++ number.repr ++ " `" ++ g.text ++ "`", [why.message]⟩

def exit : RunError → UInt32
  | capacityOverflow => 101
  | _ => 1

end RunError

structure Trace where
  events : List Event := []
  error : Option RunError := none
  deriving DecidableEq, Repr

/-- Does gestures on a panel and takes the events after each. The first gesture has the given number. -/
def play (p : Panel Queue) (number : Nat) : List Gesture → Trace
  | [] => {}
  | g :: gs =>
    match g.apply p with
    | .error why => { error := some (.gesture number g why) }
    | .ok (_, p) =>
      let taken := p.drain
      let rest := play taken.2 (number + 1) gs
      { rest with events := taken.1 ++ rest.events }

def Arguments.paths (a : Arguments) : List String :=
  a.config.toList ++ match a.source with
    | .script path => [path]
    | .gestures _ => []

def Arguments.loadConfig (a : Arguments) (files : Files) : Except RunError PanelConfig :=
  let config : Except RunError PanelConfig := match a.config with
    | none => .ok {}
    | some path => (PanelConfig.load files path).mapError (.config path)
  config.map fun c => (a.mode.map c.withMode).getD c

def Arguments.loadGestures (a : Arguments) (files : Files) : Except RunError (List Gesture) :=
  match a.source with
  | .script path => (Script.load files path).mapError .script
  | .gestures gs => .ok gs

def simulate (c : PanelConfig) (gs : List Gesture) : Trace :=
  match c.build with
  | .ok p => play p 1 gs
  | .error (.invalid why) => { error := some (.build why) }
  | .error .capacityOverflow => { error := some .capacityOverflow }

def Arguments.trace (a : Arguments) (files : Files) : Trace :=
  match a.loadConfig files with
  | .error e => { error := some e }
  | .ok c =>
    match a.loadGestures files with
    | .error e => { error := some e }
    | .ok gs => simulate c gs

/-- The exit code, the lines of the events, and the report of what ended the run. Warnings that are
    logged on the way and the text of a crash are no part of `stderr` here. -/
structure Outcome where
  exit : UInt32
  stdout : String := ""
  stderr : String := ""
  deriving DecidableEq, Repr

def Trace.outcome (t : Trace) : Outcome where
  exit := (t.error.map RunError.exit).getD 0
  stdout := String.join (t.events.map fun e => e.text ++ "\n")
  stderr := ((t.error.bind RunError.report?).map ErrorReport.render).getD ""

def run (files : Files) (args : List String) : Outcome :=
  match Request.parse args with
  | .error f => { exit := 2, stderr := f.message }
  | .ok (.notice n) => { exit := 0, stdout := n.text ++ "\n" }
  | .ok (.run a) => (a.trace files).outcome

end ButtonPanel.CommandLine
