import InterfacePlan.CommandLine.Output
/-!
# The program

Reads the files that a command needs, runs the command, and writes its output. Files are read first,
because the library works on a file tree that is given as a whole: the manifest and the
configuration files with their texts, and then the snapshots of all interfaces, of which only names
matter.

## Main definitions

* `FileTree.scan`, `FileTree.readFile`: parts of the file system entered in a file tree
* `CommandLine.gather`: the files that a command needs
* `main`
-/

namespace InterfacePlan

namespace FileTree

/-- The path of a place of the file system. -/
def pathOf (place : Place) : String := "/" ++ Text.join "/" place

/-- The file or directory at a place of the file system. -/
def locate (place : Place) := IO.FS.realPath (pathOf place)

/-- Enter what stands at a place of the file system in a tree, files without their texts. Nothing is
entered for a place where nothing stands. -/
def note (t : FileTree) (place : Place) : IO FileTree := do
  if (t.node? place).isSome then return t
  try
    let found ← locate place
    return if ← found.isDir then t.addDirectory place else t.addFile place ""
  catch _ => return t

/-- Enter everything below a place of the file system in a tree. -/
partial def scan (t : FileTree) (place : Place) : IO FileTree := do
  let mut t ← t.note place
  if !(t.node? place).any Node.isDirectory then return t
  for entry in ← (← locate place).readDir do
    t ← t.scan (place ++ [entry.fileName])
  return t

/-- The places that a path passes, as seen from a directory. -/
def passed (current : Place) (path : Path) : List Place :=
  let start := if Path.isAbsolute path then [] else current
  let step (place : Place) : Path.Component → Place
    | .root | .current => place
    | .parent => place.dropLast
    | .name s => place ++ [s]
  ((Path.components path).foldl (fun places c => places ++ [step (places.getLastD start) c])
    [start])

/-- Enter everything that a path passes in a tree. -/
def notePath (t : FileTree) (current : Place) (path : Path) : IO FileTree :=
  (passed current path).foldlM note t

/-- Enter everything that a path passes in a tree, with the text of the file that it leads to. -/
def readFile (t : FileTree) (current : Place) (path : Path) : IO FileTree := do
  let t ← t.notePath current path
  let place := (passed current path).getLastD current
  if (t.node? place).any Node.isFile then
    return t.addFile place (← IO.FS.readFile (pathOf place))
  return t

/-- Enter everything below the directory that a path names in a tree. -/
def scanPath (t : FileTree) (current : Place) (path : Path) : IO FileTree := do
  let t ← t.notePath current path
  t.scan ((passed current path).getLastD current)

end FileTree

namespace CommandLine

/-- The snapshot directories of the interfaces of a project. -/
def snapshotDirectories (w : WorkingTree) (home : Option Path) (c : Command) : List Path :=
  match Registry.load w c.manifest, c.settings w home with
  | .ok r, .ok s =>
    r.interfaces.flatMap fun i =>
      (i.frozenVersions.filter fun version => !i.isNextVersion version).map
        (Sources.snapshotDir s i)
  | _, _ => []

/-- The files that a command needs, in a tree. -/
def gather (current : Place) (home : Option Path) (c : Command) : IO FileTree := do
  let w : WorkingTree := ⟨∅, current⟩
  let settings := home.toList ++ [Command.projectDirectory w c.manifest]
  let files := c.manifest :: settings.map Configuration.pathBelow
  let tree ← files.foldlM (fun t path => t.readFile current path)
    (FileTree.addDirectory ∅ current)
  match c with
  | .plan .. =>
    (snapshotDirectories ⟨tree, current⟩ home c).foldlM
      (fun t path => t.scanPath current path) tree
  | _ => return tree

end CommandLine

end InterfacePlan

open InterfacePlan in
/-- The program: it gathers the files that a command needs and runs the command on them. -/
def main (arguments : List String) : IO UInt32 := do
  let here ← IO.FS.realPath "."
  let current := here.components.filter (· ≠ "")
  let home ← IO.getEnv "HOME"
  let jobs ← IO.getEnv "VIDL_JOBS"
  let tree ← match Arguments.parse jobs arguments with
    | .ok i => CommandLine.gather current home i.command
    | .error _ => pure ∅
  let output := CommandLine.run { files := ⟨tree, current⟩, home, jobs } arguments
  IO.print output.stdout
  IO.eprint output.stderr
  return output.exit.toUInt32
