import InterfacePlan.CommandLine.Report
/-!
# Output

What a run of the program writes, and how it ends.

## Main definitions

* `Output`: the two texts that are written, and the exit code
* `CommandLine.run`: the output for a command line
-/

namespace InterfacePlan

/-- **What a run writes and how it ends.** -/
structure Output where
  /-- `0` for success, `1` if a command fails, `2` if the arguments cannot be understood. -/
  exit : Nat := 0
  stdout : String := ""
  stderr : String := ""
  deriving DecidableEq, Inhabited

namespace CommandLine

/-- What surrounds a run of the program. -/
structure Environment where
  files : WorkingTree
  home : Option Path := none
  /-- The number of jobs that is asked for. -/
  jobs : Option String := none

/-- What is printed when the version is asked for. -/
def versionText : String := "vidl 0.1.0\n"

/-- What is printed when help is asked for. -/
def usageText : String :=
  Text.join "\n" [
    "Usage: vidl [OPTIONS] COMMAND",
    "",
    "Commands:",
    "  plan [--json] [-j JOBS] [MANIFEST]      generate every module for the declared interfaces",
    "  versions [MANIFEST]                     show the versions of each interface",
    "  resolve MANIFEST INTERFACE [VERSION]    resolve the imports of one interface version",
    "",
    "Options:",
    "  -v, --verbose     enable verbose output",
    "      --no-color    disable colored output",
    "  -h, --help        show this help",
    "  -V, --version     show the version of the program",
    ""]

/-- What is written when there is nothing to run. -/
def stopped : Arguments.Stop → Output
  | .usage => { exit := 2, stderr := usageText }
  | .help => { stdout := usageText }
  | .version => { stdout := versionText }

/-- What is written about a report. -/
def reported (i : Invocation) (r : Report) : Output where
  exit := if r.failure?.isSome then 1 else 0
  stdout := Text.join "" (r.lines.map (· ++ "\n"))
  stderr := Journal.text i.verbose r.journal ++ (match r.failure? with
    | some failure => failure.text (!i.plain)
    | none => "")

/-- **The output for a command line.** -/
def run (e : Environment) (arguments : List String) : Output :=
  match Arguments.parse e.jobs arguments with
  | .error stop => stopped stop
  | .ok i => reported i (i.command.report e.files e.home)

end CommandLine

end InterfacePlan
