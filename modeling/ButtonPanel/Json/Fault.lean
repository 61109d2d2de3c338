/-
  ButtonPanel.Json.Fault — the three ways in which a text fails to be the document that
  was asked for. Of several faults the first one from the left counts.
-/

namespace ButtonPanel.Json

inductive Fault
  /-- The text ends inside a value. -/
  | truncated
  /-- The text is no JSON. -/
  | malformed
  /-- The text is JSON so far, of another shape than expected. -/
  | mismatched
  deriving DecidableEq, Repr

/-- A text for each of the three, in words of this library. It says neither where the fault is nor
    what was expected there. -/
def Fault.message : Fault → String
  | truncated => "the document ends too early"
  | malformed => "the document is not JSON"
  | mismatched => "the document does not have the expected shape"

end ButtonPanel.Json
