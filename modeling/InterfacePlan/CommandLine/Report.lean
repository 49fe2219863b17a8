import InterfacePlan.CommandLine.Arguments
import InterfacePlan.Data.JsonText
import InterfacePlan.Plan.Record
import InterfacePlan.Project.Configuration
/-!
# Reports

What the commands answer: lines of text, what is told on the way, and why a command fails.

## Main definitions

* `Report`: the answer to a command
* `Interface.description`: the versions of an interface in one line
* `Report.ofPlan`, `Report.ofVersions`, `Report.ofImports`: the answers to the three commands
* `Command.report`: the answer to a command, for the files of a project
-/

namespace InterfacePlan

/-- **Why a command fails.** -/
inductive Failure where
  | loading (cause : LoadError)
  | planning (cause : PlanError)
  /-- The manifest does not declare the interface that was asked for. -/
  | undeclared (interface : String) (manifest : Path)
  deriving DecidableEq, Inhabited

/-- What users are told about a failure: a diagnostic, if the declarations are to blame. -/
def Failure.text (colored : Bool) : Failure → String
  | loading cause =>
    match cause.planError? with
    | some e => e.diagnostic.render colored
    | none => "error: " ++ cause.message ++ "\n"
  | planning cause => cause.diagnostic.render colored
  | undeclared interface manifest =>
    "error: no interface named `" ++ interface ++ "` in " ++ manifest ++ "\n"

/-- **The answer to a command.** -/
structure Report where
  lines : List String := []
  journal : Journal := []
  failure? : Option Failure := none

/-! ## Plans -/

/-- The line for a module. -/
def Module.line (m : Module) : String := m.name ++ " (" ++ m.kind.tag ++ ")"

/-- The line for a request without sources. -/
def SkippedRequest.line (s : SkippedRequest) : String :=
  "skipped " ++ s.interface ++ " version " ++ s.version ++ " (" ++ s.backend.text
    ++ "): snapshot is empty"

/-- The lines for a plan: its modules, and then the requests without sources. -/
def Plan.lines (p : Plan) : List String :=
  p.graph.modules.values.map Module.line ++ p.skipped.map SkippedRequest.line

/-- **The report of a plan.** -/
def Report.ofPlan (json : Bool) (run : Plan.Run) : Report :=
  match run.result with
  | .error e => { journal := run.journal, failure? := some (.planning e) }
  | .ok p =>
    { journal := run.journal
      lines := if json then [JsonText.pretty 0 p.toData] else p.lines }

/-! ## Versions -/

namespace Interface

/-- The versioned name of the version for the VNDK. -/
def vndkName (i : Interface) : Except PlanError String :=
  i.allVersions.foldlM (fun name version => do
    return if ← i.isForVndk version then i.versionedName version else name) "none"

/-- **The versions of an interface in one line.** -/
def description (i : Interface) : Except PlanError String := do
  if i.unstable then return i.name ++ ": unstable"
  let latest ← if i.hasVersion then i.latestVersion else pure "none"
  let vndk ← i.vndkName
  return i.name ++ ": frozen [" ++ Text.join ", " i.frozenVersions ++ "], next " ++ i.nextVersion
    ++ ", latest " ++ latest ++ ", vndk " ++ vndk

end Interface

/-- **The report of versions**: a line for each interface, up to the first that fails. -/
def Report.ofVersions : List Interface → Report
  | [] => {}
  | i :: is =>
    match i.description with
    | .error e => { failure? := some (.planning e) }
    | .ok line =>
      let rest := Report.ofVersions is
      { rest with lines := line :: rest.lines }

/-! ## Imports -/

/-- **The report of the imports of an interface version.** -/
def Report.ofImports (r : Registry) (manifest : Path) (interface : String)
    (version : Option String) : Report :=
  match r.get? interface with
  | none => { failure? := some (.undeclared interface manifest) }
  | some i =>
    match Import.names r i (version.getD i.nextVersion) with
    | .error e => { failure? := some (.planning e) }
    | .ok names => { lines := names }

/-! ## Commands -/

namespace Command

/-- The manifest that a command reads. -/
def manifest : Command → Path
  | plan manifest _ _ | versions manifest | resolve manifest _ _ => manifest

/-- The directory of the project of a manifest: the one that holds it, or the current one. -/
def projectDirectory (w : WorkingTree) (manifest : Path) : Path :=
  match Path.parent? manifest with
  | some directory => if directory = "" then w.currentPath else directory
  | none => w.currentPath

/-- The settings of the project that a command is about. -/
def settings (w : WorkingTree) (home : Option Path) (c : Command) :
    Except LoadError Settings :=
  Settings.load w (home.map Configuration.pathBelow)
    (Configuration.pathBelow (projectDirectory w c.manifest))

/-- The answer to a command for the interfaces and settings of a project. -/
def answer (w : WorkingTree) (r : Registry) (s : Settings) : Command → Report
  | plan _ json jobs => .ofPlan json (Plan.run { s with jobs := jobs.or s.jobs } w r)
  | versions _ => .ofVersions r.interfaces
  | resolve manifest interface version => .ofImports r manifest interface version

/-- **The answer to a command**, given the files and the home directory of the user. -/
def report (w : WorkingTree) (home : Option Path) (c : Command) : Report :=
  match Registry.load w c.manifest with
  | .error e => { failure? := some (.loading e) }
  | .ok r =>
    let loaded : Journal := [.loaded r.size]
    match c.settings w home with
    | .error e => { journal := loaded, failure? := some (.loading e) }
    | .ok s =>
      let answer := c.answer w r s
      { answer with journal := loaded ++ answer.journal }

end Command

end InterfacePlan
