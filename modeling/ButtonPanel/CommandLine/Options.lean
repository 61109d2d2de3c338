/-
  ButtonPanel.CommandLine.Options — the options of the program and the help on them. Three
  options take a value (`Flag`). Two ask for a notice instead of a run (`Notice`): the help,
  which is one table of the plain arguments and one of the options, and the version.
-/

namespace ButtonPanel.CommandLine

inductive Flag
  | config
  | mode
  | script
  deriving DecidableEq, Repr

namespace Flag

def all : List Flag := [config, mode, script]

def name : Flag → String
  | config => "config"
  | mode => "mode"
  | script => "script"

def usage : Flag → String
  | config => "--config <CONFIG>"
  | mode => "--mode <MODE>"
  | script => "--script <SCRIPT>"

def purpose : Flag → String
  | config => "Panel layout and listener settings (JSON). Defaults to one USER button"
  | mode => "Listener mode, overriding the config file"
  | script => "File with one action per line"

def ofName? (name : String) : Option Flag := all.find? (·.name = name)

end Flag

inductive Notice
  | help
  | version
  deriving DecidableEq, Repr

namespace Notice

def all : List Notice := [help, version]

def name : Notice → String
  | help => "help"
  | version => "version"

def letter : Notice → Char
  | help => 'h'
  | version => 'V'

def usage (n : Notice) : String := "--" ++ n.name

def purpose : Notice → String
  | help => "Print help"
  | version => "Print version"

def ofName? (name : String) : Option Notice := all.find? (·.name = name)

def ofLetter? (letter : Char) : Option Notice := all.find? (·.letter = letter)

end Notice

def actionsUsage : String := "[ACTIONS]..."

namespace Help

def width : Nat := ((Flag.all.map Flag.usage ++ Notice.all.map Notice.usage).map String.length).foldl max 0

/-- A row of the table of options. What an option is for stands behind its usage in a column of its own. -/
def row (letter : Option Char) (usage purpose : String) : String :=
  let short := match letter with
    | some c => String.ofList ['-', c] ++ ", "
    | none => "    "
  "  " ++ short ++ usage ++ String.ofList (List.replicate (width - usage.length) ' ') ++ "  " ++ purpose

def text : String :=
  "\n".intercalate
    (["Drive the emulated front panel and print the UI events it emits",
      "",
      "Usage: panel-sim [OPTIONS] " ++ actionsUsage,
      "",
      "Arguments:",
      "  " ++ actionsUsage ++ "  Actions to run in order: press:<button>, release:<button>, click:<button>",
      "",
      "Options:"] ++
      Flag.all.map (fun f => row none f.usage f.purpose) ++
      Notice.all.map (fun n => row (some n.letter) n.usage n.purpose))

end Help

def Notice.text : Notice → String
  | help => Help.text
  | version => "panel-sim 0.1.0"

end ButtonPanel.CommandLine
