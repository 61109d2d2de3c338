/-
  ButtonPanel.Main — the command line: reads the files that the arguments name, runs the
  program on them and writes what it leaves behind.
-/

import ButtonPanel.CommandLine.Run

namespace ButtonPanel.CommandLine

/-- The fault that an error of the system means. Its number may come negated. -/
def readFault (e : IO.Error) : ReadFault :=
  match e with
  | .noFileOrDirectory .. => .missing
  | .inappropriateType _ code _ =>
    if code = 20 ∨ code = -20 then .notDirectory
    else if code = 21 ∨ code = -21 then .isDirectory
    else .system (toString e)
  | .invalidArgument _ code _ => if code = 36 ∨ code = -36 then .nameTooLong else .system (toString e)
  | e => .system (toString e)

def readFile (path : String) : IO (Except ReadFault ByteArray) := do
  try
    return .ok (← IO.FS.readBinFile path)
  catch e => return .error (readFault e)

def readFiles (args : List String) : IO Files := do
  let paths := match Request.parse args with
    | .ok (.run a) => a.paths
    | _ => []
  let contents ← paths.mapM fun path => return (path, ← readFile path)
  return fun path => (contents.lookup path).getD (.error .missing)

end ButtonPanel.CommandLine

open ButtonPanel.CommandLine in
def main (args : List String) : IO UInt32 := do
  let outcome := run (← readFiles args) args
  IO.print outcome.stdout
  unless outcome.stderr.isEmpty do IO.eprintln outcome.stderr
  return outcome.exit
