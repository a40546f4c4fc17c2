import Flowgraph.Text.Quoted

/-!
# Notices

Lines that a run leaves in its log beside its result.
-/

namespace Flowgraph

inductive Severity where
  | warning
  | error
deriving DecidableEq, Repr

def Severity.name : Severity → String
  | warning => "WARNING"
  | error => "ERROR"

/-- A line of the log. -/
structure Notice where
  severity : Severity
  text : String
deriving DecidableEq, Repr

def Notice.line (n : Notice) : String :=
  n.severity.name ++ " " ++ n.text

/-- Texts in quotes between brackets. -/
def quotedList (texts : List String) : String :=
  "[" ++ ", ".intercalate (texts.map Text.quoted) ++ "]"

end Flowgraph
