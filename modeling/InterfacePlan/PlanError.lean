import InterfacePlan.Backend
import InterfacePlan.Diagnostic
/-!
# Errors of planning

Every way in which planning can fail. A failure is a defect of the interface declarations, so every
error has a diagnostic that says what to change.

## Main definitions

* `PlanError`: the causes
* `PlanError.message`, `PlanError.code`, `PlanError.help?`: texts of an error
* `PlanError.inRequest`: an error that arose while a library was generated
* `PlanError.diagnostic`: what users are told
-/

namespace InterfacePlan

/-- **Why planning fails.** -/
inductive PlanError where
  | unsupportedBackend (backend : String)
  | noFrozenVersions (interface : String)
  | invalidVersions (interface reason : String)
  | unknownVndkVersion (interface version : String)
  | duplicateInterface (name : String)
  | unknownInterface (interface imported : String)
  | importBackendDisabled (interface imported : String) (backend : Backend)
  | unknownVersion (interface version : String)
  /-- The names of a component with a cycle, in order as texts. The first one is repeated at the
  end. -/
  | importCycle (names : List String)
  | missingSnapshot (interface version : String) (path : Path)
  | snapshotListing (interface version detail : String)
  | duplicateModule (name : String)
  | alreadyFinished (name : String)
  | notAPlaceholder (name : String)
  /-- An error that arose while the library of an interface version was generated. -/
  | request (interface version : String) (backend : Backend) (cause : PlanError)
  deriving DecidableEq, Inhabited

namespace PlanError

/-- The text of an error. That of a request names the request and not the cause. -/
def message : PlanError → String
  | unsupportedBackend backend => "unsupported language backend `" ++ backend ++ "`"
  | noFrozenVersions interface => "interface `" ++ interface ++ "` has no frozen versions"
  | invalidVersions interface reason =>
    "interface `" ++ interface ++ "` has invalid versions: " ++ reason
  | unknownVndkVersion interface version =>
    "unrecognized vndk_use_version `" ++ version ++ "` for `" ++ interface ++ "`"
  | duplicateInterface name => "interface `" ++ name ++ "` is declared twice"
  | unknownInterface interface imported =>
    "interface `" ++ interface ++ "` imports unknown interface `" ++ imported ++ "`"
  | importBackendDisabled interface imported backend =>
    "interface `" ++ interface ++ "` imports `" ++ imported ++ "`, which does not enable the "
      ++ backend.text ++ " backend"
  | unknownVersion interface version =>
    "interface `" ++ interface ++ "` has no version " ++ version
  | importCycle names => "import cycle detected: " ++ Text.join " -> " names
  | missingSnapshot interface version path =>
    "snapshot directory for `" ++ interface ++ "` version " ++ version ++ " is missing: " ++ path
  | snapshotListing interface version detail =>
    "cannot list snapshot for `" ++ interface ++ "` version " ++ version ++ ": " ++ detail
  | duplicateModule name => "module `" ++ name ++ "` is declared twice"
  | alreadyFinished name => "module `" ++ name ++ "` was already finished"
  | notAPlaceholder name => "module `" ++ name ++ "` is not an implementation placeholder"
  | request interface version backend _ =>
    "failed to generate `" ++ interface ++ "` version `" ++ version ++ "` for the "
      ++ backend.text ++ " backend"

/-- The code that an error is known by. -/
def code : PlanError → String
  | unsupportedBackend _ => "vidl::config::unsupported_backend"
  | noFrozenVersions _ => "vidl::config::no_frozen_versions"
  | invalidVersions .. => "vidl::config::invalid_versions"
  | unknownVndkVersion .. => "vidl::config::unknown_vndk_version"
  | duplicateInterface _ => "vidl::config::duplicate_interface"
  | unknownInterface .. => "vidl::config::unknown_interface"
  | importBackendDisabled .. => "vidl::config::import_backend_disabled"
  | unknownVersion .. => "vidl::config::unknown_version"
  | importCycle _ => "vidl::config::import_cycle"
  | missingSnapshot .. => "vidl::config::missing_snapshot"
  | snapshotListing .. => "vidl::config::snapshot_glob"
  | duplicateModule _ => "vidl::graph::duplicate_module"
  | alreadyFinished _ => "vidl::graph::already_finished"
  | notAPlaceholder _ => "vidl::graph::not_a_placeholder"
  | request .. => "vidl::config::request"

/-- A rule that helps with errors of a kind. -/
def help? : PlanError → Option String
  | invalidVersions .. => some "frozen versions must be 1, 2, 3, ... with no gaps"
  | importBackendDisabled .. =>
    some "enable the backend on the imported interface or disable it on the importing one"
  | importCycle _ => some "an interface version cannot transitively import itself"
  | missingSnapshot .. => some "freeze the API dump for this version or remove it from `versions`"
  | _ => none

/-- **An error that arose while a library was generated.** The innermost request is the one that
failed, so an error that names a request already stays as it is. -/
def inRequest (e : PlanError) (interface version : String) (backend : Backend) : PlanError :=
  match e with
  | request .. => e
  | e => request interface version backend e

/-- The context lines of an error, apart from requests. -/
def ownContext : PlanError → List String
  | unsupportedBackend _ => ["supported backends: java, cpp, ndk, rust, cpp-analyzer"]
  | importCycle names => ["cycle: " ++ Text.join " -> " names]
  | duplicateModule _ | alreadyFinished _ | notAPlaceholder _ =>
    ["this indicates a planning defect, not an interface defect"]
  | _ => []

/-- What could be done about an error, apart from requests. -/
def ownSuggestions : PlanError → List String
  | noFrozenVersions interface =>
    ["Freeze a first version of `" ++ interface ++ "` before depending on its latest version"]
  | invalidVersions interface _ => ["Check the `versions` list of `" ++ interface ++ "`"]
  | unknownVndkVersion interface _ =>
    ["Set `vndk_use_version` of `" ++ interface ++ "` to one of its frozen versions"]
  | duplicateInterface name => ["Rename one of the interfaces called `" ++ name ++ "`"]
  | unknownInterface _ imported =>
    ["Declare an interface named `" ++ imported ++ "`",
      "Check that the import is spelled correctly"]
  | importBackendDisabled interface imported backend =>
    ["Enable the " ++ backend.text ++ " backend of `" ++ imported ++ "`",
      "Disable the " ++ backend.text ++ " backend of `" ++ interface ++ "`"]
  | unknownVersion interface _ =>
    ["Run `vidl versions` to list the frozen and next versions of `" ++ interface ++ "`"]
  | importCycle _ => ["Break the cycle by pinning one import to an explicit version"]
  | missingSnapshot .. => ["Restore the frozen API dump directory"]
  | _ => []

/-- The path that an error is about, apart from requests. -/
def ownLocation : PlanError → Option Path
  | missingSnapshot _ _ path => some path
  | _ => none

/-- A version in a diagnostic. -/
def versionLabel (version : String) : String :=
  if version = "" then "(unversioned)" else version

/-- The line that tells the request in which an error occurred. -/
def requestLine (interface version : String) (backend : Backend) : String :=
  "while generating `" ++ interface ++ "` version " ++ versionLabel version ++ " for the "
    ++ backend.text ++ " backend"

/-- **The diagnostic of an error.** A request adds a context line to the diagnostic of its cause. -/
def diagnostic : PlanError → Diagnostic
  | request interface version backend cause =>
    let d := cause.diagnostic
    { d with context := d.context ++ [requestLine interface version backend] }
  | e =>
    { severity := .error
      message := e.message
      context := e.ownContext
      suggestions := e.ownSuggestions
      location := e.ownLocation }

end PlanError

end InterfacePlan
