import InterfacePlan.Path.Basic
/-!
# Diagnostics

Messages for the people who write interface declarations: what is wrong, where, in which context,
and what could be done about it.

## Main definitions

* `Severity`, `Diagnostic`: a message with its context and suggestions
* `Diagnostic.render`: the text of a diagnostic, in colour or plain
-/

namespace InterfacePlan

/-- How serious a diagnostic is. -/
inductive Severity where
  | error
  | warning
  deriving DecidableEq, Inhabited

/-- The word for a severity. -/
def Severity.text : Severity → String
  | error => "error"
  | warning => "warning"

/-- **A diagnostic.** -/
structure Diagnostic where
  severity : Severity
  message : String
  /-- Lines that say when the problem arose. -/
  context : List String := []
  /-- What could be done about it. -/
  suggestions : List String := []
  /-- The path that the problem is about. -/
  location : Option Path := none
  deriving DecidableEq, Inhabited

namespace Diagnostic

/-- A text in bold type and in a colour of the terminal, or as it is. -/
def highlight (colored : Bool) (color : Nat) (s : String) : String :=
  if colored then "\x1b[1;" ++ toString color ++ "m" ++ s ++ "\x1b[0m" else s

/-- The colour of a severity on the terminal. -/
def severityColor : Severity → Nat
  | .error => 31
  | .warning => 33

/-- Suggestions, one on a line, numbered from `n` on. -/
def numbered (n : Nat) : List String → String
  | [] => ""
  | s :: ss => "  " ++ toString n ++ ". " ++ s ++ "\n" ++ numbered (n + 1) ss

/-- **The text of a diagnostic.** -/
def render (colored : Bool) (d : Diagnostic) : String :=
  highlight colored (severityColor d.severity) d.severity.text ++ ": " ++ d.message ++ "\n"
    ++ (match d.location with
      | none => ""
      | some path => "  --> " ++ path ++ "\n")
    ++ Text.join "" (d.context.map fun line => "  = " ++ line ++ "\n")
    ++ (if d.suggestions.isEmpty then ""
      else "\n" ++ highlight colored 32 "help" ++ ": consider:\n" ++ numbered 1 d.suggestions)

end Diagnostic

end InterfacePlan
