import InterfacePlan.Glob.Walk
/-!
# Listing files

The regular files that patterns below a directory stand for, sorted by path components and without
repetitions.

## Main definitions

* `Glob.ListingError`: a pattern that is not well formed, or a directory that cannot be read
* `Glob.files`: the files that patterns stand for
-/

namespace InterfacePlan.Glob

/-- Why files cannot be listed. -/
inductive ListingError where
  /-- A pattern is not well formed. -/
  | malformed (pattern : String) (cause : PatternError)
  /-- A directory cannot be read. -/
  | unreadable (cause : WalkError)
  deriving DecidableEq, Inhabited

/-- The text of a listing error. -/
def ListingError.message : ListingError → String
  | malformed pattern cause => "invalid glob pattern: " ++ pattern ++ ": " ++ cause.message
  | unreadable cause => "failed to read directory entry: " ++ cause.message

/-- A list of paths in which, of neighbours with the same components, only the first is kept. -/
def dropRepeats : List Path → List Path
  | p :: q :: ps =>
    if Path.same p q then
      match dropRepeats (q :: ps) with
      | [] => [p]
      | _ :: rest => p :: rest
    else p :: dropRepeats (q :: ps)
  | ps => ps

/-- The regular files that one pattern below a directory stands for. -/
def filesOf (w : WorkingTree) (base : Path) (pattern : String) :
    Except ListingError (List Path) := do
  let p ← (PathPattern.parse (Path.join base pattern)).mapError (.malformed pattern)
  let found ← (p.paths w).mapError .unreadable
  pure (found.filter w.isFile)

/-- **The regular files that patterns below a directory stand for**, in the order of their
components. Of several spellings with the same components the one found first is kept. -/
def files (w : WorkingTree) (base : Path) (patterns : List String) :
    Except ListingError (List Path) := do
  let found ← patterns.mapM (filesOf w base)
  pure (dropRepeats (found.flatten.mergeSort Path.le))

end InterfacePlan.Glob
