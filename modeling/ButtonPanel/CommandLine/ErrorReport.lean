/-
  ButtonPanel.CommandLine.ErrorReport — how an error is shown with what is behind it: one
  cause is indented, several are numbered from 0, and the further lines of a cause line up
  with its first.
-/

namespace ButtonPanel.CommandLine

structure ErrorReport where
  error : String
  causes : List String := []
  deriving DecidableEq, Repr

namespace ErrorReport

/-- Starts every line but the first with blanks. -/
def hang (width : Nat) (s : List Char) : List Char :=
  s.flatMap fun c => if c = '\n' then '\n' :: List.replicate width ' ' else [c]

def causeLines : List String → List String
  | [] => []
  | [cause] => ["    " ++ String.ofList (hang 4 cause.toList)]
  | causes => causes.zipIdx.map fun (cause, i) => "    " ++ i.repr ++ ": " ++ String.ofList (hang 7 cause.toList)

def render (r : ErrorReport) : String :=
  "Error: " ++ r.error ++
    if r.causes.isEmpty then "" else "\n\nCaused by:\n" ++ "\n".intercalate (causeLines r.causes)

end ErrorReport

end ButtonPanel.CommandLine
