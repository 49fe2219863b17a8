import InterfacePlan.Data.Decode
import InterfacePlan.FileTree.WorkingTree
import InterfacePlan.PlanError
import InterfacePlan.Toml.Document
/-!
# Errors of loading

A manifest or a configuration file may be unreadable, may not be a well-formed document, may hold
values of the wrong type, or may declare interfaces that do not fit together.

## Main definitions

* `LoadError`: the causes, and what was done when they arose
* `LoadError.message`: the text of an error, from the outermost context to the cause
* `LoadError.planError?`: the defect of the declarations that is the cause
-/

namespace InterfacePlan

/-- **Why a file of a project cannot be used.** -/
inductive LoadError where
  | unreadable (cause : FileError)
  | malformed (cause : TomlError)
  | mistyped (cause : DecodeError)
  | defective (cause : PlanError)
  /-- What was done when the error arose. -/
  | within (context : String) (cause : LoadError)
  deriving DecidableEq, Inhabited

namespace LoadError

/-- The text of an error with its contexts, the outermost one first. -/
def message : LoadError → String
  | unreadable cause => cause.message
  | malformed cause => "TOML parse error: " ++ cause.message
  | mistyped cause => "TOML parse error: " ++ cause.message
  | defective cause => cause.message
  | within context cause => context ++ ": " ++ cause.message

/-- What was being done when an error occurred, from the outside in. -/
def contexts : LoadError → List String
  | within context cause => context :: cause.contexts
  | _ => []

/-- The cause of an error, without contexts. -/
def cause : LoadError → LoadError
  | within _ e => e.cause
  | e => e

/-- The defect of the declarations that is the cause of an error. -/
def planError? : LoadError → Option PlanError
  | defective e => some e
  | within _ e => e.planError?
  | _ => none

end LoadError

/-- A value in a TOML document. -/
def Toml.decode {α : Type} (text : String) (decode : Data → Except DecodeError α) :
    Except LoadError α := do
  let d ← (Toml.read text).mapError .malformed
  (decode d).mapError .mistyped

/-- The text of a file, or an error that says what it was needed for. -/
def WorkingTree.readFor (w : WorkingTree) (context : String) (path : Path) :
    Except LoadError String :=
  (w.read path).mapError fun e => .within (context ++ ": " ++ path) (.unreadable e)

end InterfacePlan
