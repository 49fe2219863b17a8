import InterfacePlan.FileTree.WorkingTree
import InterfacePlan.Glob.Pattern
/-!
# Walking a pattern

A pattern with slashes is walked component by component through a working tree. The paths found keep
the spelling of the pattern: `a/./*` finds `a/./b`. A walk fails at the first directory that it has
to list and cannot read.

## Main definitions

* `Glob.Found`: a path that the walk has come to
* `Glob.WalkError`: the directory that cannot be read
* `Glob.walk`: the paths that the components of a pattern lead to
* `Glob.PathPattern`: a pattern with slashes
* `Glob.PathPattern.paths`: the paths that it stands for
-/

namespace InterfacePlan.Glob

/-- Whether a path is the current directory and nothing else: a single dot first, and no further
component. -/
def isCurrent (p : Path) : Bool :=
  match p.toList with
  | ['.'] => true
  | '.' :: '/' :: cs => (Text.splitOn '/' cs).all fun part => part = [] || part = ['.']
  | _ => false

/-- The path of something below a directory. Below the current directory it is the way itself. -/
def childPath (directory : Path) (way : Place) : Path :=
  if isCurrent directory then Text.join "/" way else Path.join directory (Text.join "/" way)

/-- **A path that the walk has come to**, and whether a directory stands there. Of what a listing
shows this is known even if its path is too long to be used. -/
structure Found where
  path : Path
  isDirectory : Bool
  deriving DecidableEq, Inhabited

namespace Found

/-- What a path names. -/
def ofPath (w : WorkingTree) (p : Path) : Found := ⟨p, w.isDirectory p⟩

/-- What a listing shows below a directory. -/
def below (directory : Path) (e : Place × Node) : Found :=
  ⟨childPath directory e.1, e.2.isDirectory⟩

/-- A path at the end of the pattern. A pattern that ends in a slash stands for directories only. -/
def result (directoriesOnly : Bool) (f : Found) : List Path :=
  if directoriesOnly && !f.isDirectory then [] else [f.path]

end Found

/-- **A directory that a walk cannot read**, and why. -/
structure WalkError where
  directory : Path
  cause : FileError
  deriving DecidableEq, Inhabited

/-- The text of a walk error. -/
def WalkError.message (e : WalkError) : String :=
  "attempting to read `" ++ e.directory ++ "` resulted in an error: " ++ e.cause.message

/-- What `visit` gives for each thing in a list, one after the other. -/
def visitAll {α : Type} (things : List α) (visit : α → Except WalkError (List Path)) :
    Except WalkError (List Path) :=
  (things.mapM visit).map List.flatten

/-- What `visit` gives for each thing directly in a directory. -/
def visitChildren (w : WorkingTree) (directory : Path)
    (visit : String × Node → Except WalkError (List Path)) : Except WalkError (List Path) := do
  let entries ← (w.children directory).mapError (WalkError.mk directory)
  visitAll entries visit

/-- What `visit` gives for each thing below a directory, and for a directory before the things in
it, which have to be listed then. -/
def visitBelow (w : WorkingTree) (directory : Path)
    (visit : Place × Node → Except WalkError (List Path)) : Except WalkError (List Path) := do
  let entries ← (w.below directory).mapError (WalkError.mk directory)
  visitAll entries fun e => do
    let paths ← visit e
    if e.2.isDirectory then
      let path := childPath directory e.1
      let _ ← (w.find path).mapError (WalkError.mk path)
    pure paths

/-- **The walk.** From a directory on, the paths that the components of a pattern lead to.

A component without special characters is looked up, without listing the directory. A component
`**` goes to everything below the directory, for the component after it to be matched there; at the
end of the pattern it stands for the directories below. Any other component is matched against the
names in the directory, and if it starts with a dot, against the names of the directory itself and
of its parent. -/
def walk (w : WorkingTree) (directoriesOnly : Bool) :
    List Pattern → Found → Except WalkError (List Path)
  | [], _ => .ok []
  | p :: ps, directory =>
    let onward (f : Found) : Except WalkError (List Path) :=
      if ps.isEmpty then .ok (f.result directoriesOnly) else walk w directoriesOnly ps f
    match p.literal? with
    | some name =>
      let q := if isCurrent directory.path then name else Path.join directory.path name
      if name = "." || name = ".." then
        if directory.isDirectory then onward (.ofPath w q) else .ok []
      else match w.node? q with
        | some node => onward ⟨q, node.isDirectory⟩
        | none => .ok []
    | none =>
      if !directory.isDirectory then .ok []
      -- A component `**` is matched together with the one behind it, which the names below are
      -- compared with.
      else if p.isRecursive then
        match ps with
        | [] =>
          visitBelow w directory.path fun e =>
            .ok (if e.2.isDirectory then [childPath directory.path e.1] else [])
        | q :: qs =>
          visitBelow w directory.path fun e =>
            if q.matches (e.1.getLast?.getD "") then
              let f := Found.below directory.path e
              if qs.isEmpty then .ok (f.result directoriesOnly) else walk w directoriesOnly qs f
            else .ok []
      else do
        let special (name : String) : Except WalkError (List Path) :=
          if p.startsWithDot && p.matches name then
            onward (.ofPath w (Path.join directory.path name))
          else .ok []
        -- A listing does not show these two, so they are tried by themselves.
        let parent ← special ".."
        let itself ← special "."
        let children ← visitChildren w directory.path fun e =>
          if p.matches e.1 then onward (.below directory.path ([e.1], e.2)) else .ok []
        pure (parent ++ itself ++ children)

/-- Patterns in which several components `**` in a row are one. -/
def collapse : List Pattern → List Pattern
  | p :: q :: ps =>
    if p.isRecursive && q.isRecursive then collapse (q :: ps) else p :: collapse (q :: ps)
  | ps => ps

/-- The components of a pattern behind its start. A trailing slash is no component; a pattern
without any component stands for the directory that the walk starts from. -/
def componentTexts (cs : List Char) : List (List Char) :=
  if cs.isEmpty then [[]]
  else
    let parts := Text.splitOn '/' cs
    if parts.getLast? = some [] then parts.dropLast else parts

/-- **A pattern with slashes**: where its walk starts, its components, and whether it stands for
directories only. -/
structure PathPattern where
  start : Path
  components : List Pattern
  directoriesOnly : Bool
  deriving DecidableEq, Inhabited

namespace PathPattern

/-- The pattern with slashes that a text is. The text as a whole and each of its components have to
be well formed. -/
def parse (pattern : String) : Except PatternError PathPattern := do
  let cs := pattern.toList
  -- Flaws that no component shows by itself are found in the text as a whole.
  let _ ← Pattern.parse cs
  let (start, behind) := match cs with
    | '/' :: r => ("/", r)
    | r => (".", r)
  let components ← (componentTexts behind).mapM Pattern.parse
  pure ⟨start, collapse components, cs.getLast? = some '/'⟩

/-- **The paths that a pattern stands for**, in the order in which the walk finds them. -/
def paths (p : PathPattern) (w : WorkingTree) : Except WalkError (List Path) :=
  walk w p.directoriesOnly p.components (.ofPath w p.start)

end PathPattern

end InterfacePlan.Glob
