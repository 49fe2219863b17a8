import InterfacePlan.Path.Basic
import InterfacePlan.Project.Manifest
import InterfacePlan.Text.Decimal
/-!
# Command-line arguments

A command line has options and operands in any order. The first operand names the command; what
stands before it is for all commands. Reading stops at the first argument that cannot be understood,
or that asks for help or for the version.

## Main definitions

* `Command`, `Invocation`: what is asked for
* `Arguments.Stop`: why there is nothing to run
* `Arguments.parse`: the invocation that a command line stands for
-/

namespace InterfacePlan

/-- **What is asked for.** -/
inductive Command where
  /-- The plan of a manifest, as a list or as JSON. -/
  | plan (manifest : Path) (json : Bool) (jobs : Option Nat)
  /-- The versions of every interface. -/
  | versions (manifest : Path)
  /-- The imports of an interface version, by default of the one in development. -/
  | resolve (manifest : Path) (interface : String) (version : Option String)
  deriving DecidableEq, Inhabited

/-- A command, and how its output is written. -/
structure Invocation where
  command : Command
  verbose : Bool := false
  plain : Bool := false
  deriving DecidableEq, Inhabited

namespace Arguments

/-- Why there is nothing to run. -/
inductive Stop where
  /-- The arguments cannot be understood. -/
  | usage
  | help
  | version
  deriving DecidableEq, Inhabited

/-- What options set; only `jobs` takes a value. -/
inductive Flag where
  | verbose
  | plain
  | help
  | version
  | json
  | jobs
  deriving DecidableEq, Inhabited

namespace Flag

/-- The name of a flag behind two dashes. -/
def long : Flag → String
  | verbose => "verbose"
  | plain => "no-color"
  | help => "help"
  | version => "version"
  | json => "json"
  | jobs => "jobs"

/-- The letter of a flag behind a single dash, if it has one. -/
def short? : Flag → Option Char
  | verbose => some 'v'
  | help => some 'h'
  | version => some 'V'
  | jobs => some 'j'
  | plain | json => none

end Flag

/-- The part of a command line that is read: what stands before the command, or a command's own
arguments. -/
inductive Part where
  | leading
  | plan
  | versions
  | resolve
  deriving DecidableEq, Inhabited

namespace Part

/-- The word that a part starts with, except for the leading one. -/
def name? : Part → Option String
  | leading => none
  | plan => some "plan"
  | versions => some "versions"
  | resolve => some "resolve"

/-- The part that the arguments of a command are. -/
def ofName? (name : String) : Option Part :=
  [plan, versions, resolve].find? fun part => part.name? = some name

/-- The flags that may be given in a part. -/
def flags : Part → List Flag
  | leading => [.verbose, .plain, .help, .version]
  | plan => [.verbose, .plain, .help, .json, .jobs]
  | versions | resolve => [.verbose, .plain, .help]

/-- The number of operands that a part takes at most. -/
def operands : Part → Nat
  | leading => 0
  | plan | versions => 1
  | resolve => 3

end Part

/-- What was given in a part. -/
structure Given where
  flags : List Flag := []
  jobs : Option Nat := none
  operands : List String := []
  deriving DecidableEq, Inhabited

namespace Given

/-- A flag without a value is set, which may happen once. -/
def set (g : Given) (flag : Flag) : Except Stop Given :=
  match flag with
  | .help => throw .help
  | .version => throw .version
  | flag => if flag ∈ g.flags then throw .usage else pure { g with flags := flag :: g.flags }

/-- The number of jobs is set, which may happen once. -/
def setJobs (g : Given) (value : String) : Except Stop Given :=
  match g.jobs, Decimal.readWord? value with
  | none, some n => pure { g with jobs := some n }
  | _, _ => throw .usage

/-- One more operand. The first one is a path and may not be empty. -/
def addOperand (part : Part) (g : Given) (operand : String) : Except Stop Given :=
  if g.operands.length < part.operands ∧ ¬(g.operands = [] ∧ operand = "") then
    pure { g with operands := g.operands ++ [operand] }
  else throw .usage

end Given

/-- Set the flags of a cluster of short names. The result tells whether a value has to follow. -/
def readCluster (part : Part) (g : Given) : List Char → Except Stop (Given × Bool)
  | [] => pure (g, false)
  | c :: cs =>
    match part.flags.find? fun flag => flag.short? = some c with
    | none => throw .usage
    | some .jobs =>
      match cs with
      | [] => pure (g, true)
      -- The rest of the cluster is the value, with or without an equals sign.
      | '=' :: value | value => do
        let g ← g.setJobs (String.ofList value)
        pure (g, false)
    | some flag => do
      let g ← g.set flag
      readCluster part g cs

/-- Set the flag of a long name, which may be followed by an equals sign and a value. The result
tells whether a value has to follow. -/
def readLong (part : Part) (g : Given) (cs : List Char) : Except Stop (Given × Bool) := do
  let name := String.ofList (cs.takeWhile (· ≠ '='))
  match part.flags.find? (fun flag => flag.long = name), cs.dropWhile (· ≠ '=') with
  | some .jobs, [] => pure (g, true)
  | some .jobs, _ :: value => do
    let g ← g.setJobs (String.ofList value)
    pure (g, false)
  | some flag, [] => do
    let g ← g.set flag
    pure (g, false)
  | _, _ => throw .usage

/-- Read operands only. -/
def readOperands (part : Part) (g : Given) (words : List String) : Except Stop Given :=
  words.foldlM (Given.addOperand part) g

/-- Whether a word is an option: it starts with a hyphen and is longer. -/
def isOption (word : String) : Bool :=
  match word.toList with
  | '-' :: _ :: _ => true
  | _ => false

/-- **Read the arguments of a part**, given whether an option waits for its value. Behind `--` all
words are operands. In the leading part, reading ends at the first operand. -/
def read (part : Part) : Bool → Given → List String → Except Stop (Given × List String)
  | false, g, [] => pure (g, [])
  | true, _, [] => throw .usage
  | true, g, value :: words => do
    -- A value is never an option, so a value was left out.
    if isOption value then throw .usage
    let g ← g.setJobs value
    read part false g words
  | false, g, word :: words =>
    match word.toList with
    | ['-', '-'] => do
      let g ← readOperands part g words
      pure (g, [])
    | '-' :: '-' :: cs => do
      let (g, awaiting) ← readLong part g cs
      read part awaiting g words
    | '-' :: c :: cs => do
      let (g, awaiting) ← readCluster part g (c :: cs)
      read part awaiting g words
    | _ =>
      if part = .leading then pure (g, word :: words)
      else do
        let g ← g.addOperand part word
        read part false g words

/-- The number of jobs that the arguments or else the environment ask for. -/
def jobs (g : Given) (environment : Option String) : Except Stop (Option Nat) :=
  match g.jobs, environment with
  | some n, _ => pure (some n)
  | none, none => pure none
  | none, some text =>
    match Decimal.readWord? text with
    | some n => pure (some n)
    | none => throw .usage

/-- The command that the arguments of a part stand for. -/
def command (environment : Option String) (part : Part) (g : Given) : Except Stop Command :=
  match part, g.operands with
  | .plan, operands => do
    let manifest := operands.head?.getD Manifest.fileName
    return .plan manifest (g.flags.contains .json) (← jobs g environment)
  | .versions, operands => pure (.versions (operands.head?.getD Manifest.fileName))
  | .resolve, [manifest, interface] => pure (.resolve manifest interface none)
  | .resolve, [manifest, interface, version] => pure (.resolve manifest interface (some version))
  | _, _ => throw .usage

/-- Why a command line that starts with a request for help is not run. -/
def helpFor : List String → Stop
  | [] => .help
  | [name] => if (Part.ofName? name).isSome || name = "help" then .help else .usage
  | _ => .usage

/-- **The invocation that a command line stands for**, given the number of jobs that the environment
asks for. -/
def parse (environment : Option String) (words : List String) : Except Stop Invocation := do
  let (leading, words) ← read .leading false {} words
  match words with
  | [] => throw .usage
  | name :: words =>
    -- This is a command without a part of its own: nothing is run.
    if name = "help" then throw (helpFor words)
    match Part.ofName? name with
    | none => throw .usage
    | some part => do
      let (own, _) ← read part false {} words
      let command ← command environment part own
      return {
        command
        verbose := (leading.flags ++ own.flags).contains .verbose
        plain := (leading.flags ++ own.flags).contains .plain }

end Arguments

end InterfacePlan
