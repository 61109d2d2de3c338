/-
  ButtonPanel.Panel.Load — a configuration from a document or from a file. A document
  that reads well still has to be valid.
-/

import ButtonPanel.Files
import ButtonPanel.Panel.Document

namespace ButtonPanel

inductive ConfigError
  | unreadable (path : String) (why : ReadFault)
  | malformed (why : Json.Fault)
  | invalid (why : PanelConfig.Invalid)
  deriving DecidableEq, Repr

namespace ConfigError

def message : ConfigError → String
  | unreadable path _ => "Cannot read panel config " ++ path
  | malformed _ => "Malformed panel config"
  | invalid .zeroQueueDepth => "Invalid panel config: queue_depth must be > 0"
  | invalid (.buttons e) => "Invalid panel config: " ++ e.message

/-- What is behind the error, outermost first. -/
def causes : ConfigError → List String
  | unreadable _ why => [why.message]
  | malformed why => [why.message]
  | invalid .zeroQueueDepth => []
  | invalid (.buttons e) => [e.message]

end ConfigError

namespace PanelConfig

def parse (text : String) : Except ConfigError PanelConfig :=
  match Document.panelConfig.decode text with
  | .error why => .error (.malformed why)
  | .ok c =>
    match c.validate with
    | .error why => .error (.invalid why)
    | .ok () => .ok c

def load (files : Files) (path : String) : Except ConfigError PanelConfig :=
  match files.readText path with
  | .error why => .error (.unreadable path why)
  | .ok text => parse text

end PanelConfig

end ButtonPanel
