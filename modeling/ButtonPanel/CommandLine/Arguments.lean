/-
  ButtonPanel.CommandLine.Arguments — the arguments of the program. They are read from
  left to right. An option waits for its value, and plain arguments gather in a run; what
  is pending is settled when another argument begins, and at the end. So of several
  faults the one that is settled first is reported.
-/

import ButtonPanel.CommandLine.ArgumentFault

namespace ButtonPanel.CommandLine

inductive Source
  | script (path : String)
  | gestures (gs : List Gesture)
  deriving DecidableEq, Repr

structure Arguments where
  config : Option String := none
  mode : Option Mode := none
  source : Source
  deriving DecidableEq, Repr

inductive Request
  | notice (n : Notice)
  | run (a : Arguments)
  deriving DecidableEq, Repr

/-! ## One argument -/

inductive Word
  | terminator
  | long (name : String) (value : Option String)
  | short (letter : Char)
  | plain (text : String)
  deriving DecidableEq, Repr

def Word.of (arg : String) : Word :=
  match arg.toList with
  | ['-', '-'] => .terminator
  | '-' :: '-' :: rest =>
    let name := String.ofList (rest.takeWhile (· ≠ '='))
    match rest.dropWhile (· ≠ '=') with
    | [] => .long name none
    | _ :: value => .long name (some (String.ofList value))
  | '-' :: letter :: _ => .short letter
  | _ => .plain arg

/-! ## All arguments -/

/-- An argument that has begun and is not settled: an option, or a run of plain arguments. -/
inductive Pending
  | flag (f : Flag) (value : Option String)
  | actions (texts : List String)
  deriving DecidableEq, Repr

/-- What has been read. The actions are none until there is a plain argument. -/
structure Gathering where
  config : Option String := none
  mode : Option Mode := none
  script : Option String := none
  actions : Option (List Gesture) := none
  scriptFirst : Bool := false
  pending : Option Pending := none
  /-- Whether all that follows is plain. -/
  verbatim : Bool := false
  deriving DecidableEq, Repr

inductive Stop
  | notice (n : Notice)
  | fault (f : ArgumentFault)
  deriving DecidableEq, Repr

namespace Gathering

def has (g : Gathering) : Flag → Bool
  | .config => g.config.isSome
  | .mode => g.mode.isSome
  | .script => g.script.isSome

/-- Settles an option with its value. A path is not empty. -/
def setFlag (g : Gathering) (f : Flag) (value : String) : Except ArgumentFault Gathering :=
  if g.has f then .error (.repeated f)
  else match f with
    | .config => if value = "" then .error (.valueMissing f) else .ok { g with config := some value }
    | .script =>
      if value = "" then .error (.valueMissing f)
      else .ok { g with script := some value, scriptFirst := g.actions.isNone }
    | .mode =>
      match Mode.ofName? value with
      | some m => .ok { g with mode := some m }
      | none => .error (.badMode value)

def settle (g : Gathering) : Except ArgumentFault Gathering :=
  let settled := { g with pending := none }
  match g.pending with
  | none => .ok settled
  | some (.flag f none) => .error (.valueMissing f)
  | some (.flag f (some value)) => settled.setFlag f value
  | some (.actions texts) =>
    match texts.mapM Gesture.parse with
    | .ok gs => .ok { settled with actions := some (g.actions.getD [] ++ gs) }
    | .error why => .error (.badGesture why)

/-- Adds a plain argument to the run that is pending, or begins one. -/
def addAction (g : Gathering) (text : String) : Except ArgumentFault Gathering :=
  match g.pending with
  | some (.actions texts) => .ok { g with pending := some (.actions (texts ++ [text])) }
  | _ => g.settle.map fun g => { g with pending := some (.actions [text]) }

/-- Asks for a notice, once what is pending is settled. -/
def stopFor (g : Gathering) (n : Notice) : Stop :=
  match g.settle with
  | .ok _ => .notice n
  | .error f => .fault f

def step (g : Gathering) (arg : String) : Except Stop Gathering :=
  if g.verbatim then (g.addAction arg).mapError .fault
  else match Word.of arg with
    | .terminator => .ok { g with verbatim := true }
    | .plain text =>
      match g.pending with
      | some (.flag f none) => .ok { g with pending := some (.flag f (some text)) }
      | _ => (g.addAction text).mapError .fault
    | .short letter =>
      match Notice.ofLetter? letter with
      | some n => .error (g.stopFor n)
      | none => .error (.fault (.unexpected (String.ofList ['-', letter])))
    | .long name value =>
      match Flag.ofName? name with
      | some f =>
        match value with
        | none => (g.settle.map fun g => { g with pending := some (.flag f none) }).mapError .fault
        | some value => (g.settle.bind (·.setFlag f value)).mapError .fault
      | none =>
        match Notice.ofName? name, value with
        | some n, none => .error (g.stopFor n)
        | some n, some value => .error (.fault (.valueForNotice n value))
        | none, _ => .error (.fault (.unexpected ("--" ++ name)))

def finish (g : Gathering) : Except ArgumentFault Arguments :=
  g.settle.bind fun g =>
    match g.script, g.actions with
    | some path, none => .ok { config := g.config, mode := g.mode, source := .script path }
    | none, some gs => .ok { config := g.config, mode := g.mode, source := .gestures gs }
    | some _, some _ => .error (.scriptAndActions g.scriptFirst)
    | none, none => .error .nothingToDo

end Gathering

def Request.parse (args : List String) : Except ArgumentFault Request :=
  match args.foldlM Gathering.step {} with
  | .ok g => g.finish.map .run
  | .error (.notice n) => .ok (.notice n)
  | .error (.fault f) => .error f

end ButtonPanel.CommandLine
