import InterfacePlan.FileTree.Basic
import InterfacePlan.Path.Basic
/-!
# Working trees

A file tree together with the directory that relative paths start from. Paths are followed part by
part: a part may only follow a directory, so `file/..` and `file/` name nothing. Names and paths
have a greatest length, and none of them holds the character NUL.

## Main definitions

* `WorkingTree`: a file tree and a current directory
* `WorkingTree.find`: the place that a path names
* `WorkingTree.isDirectory`, `WorkingTree.isFile`, `WorkingTree.contains`: tests on paths
* `WorkingTree.read`: the text of a file
-/

namespace InterfacePlan

/-- **Why a path leads to no node**, or to none of the right kind. -/
inductive FileError where
  | notFound
  | notADirectory
  | isADirectory
  /-- A path, or a name in it, has more bytes than it may have. -/
  | nameTooLong
  /-- A path holds the character NUL. -/
  | nulInName
  deriving DecidableEq, Inhabited

/-- The text of a file error. One with a number is the operating system's. -/
def FileError.message : FileError → String
  | .notFound => "No such file or directory (os error 2)"
  | .notADirectory => "Not a directory (os error 20)"
  | .isADirectory => "Is a directory (os error 21)"
  | .nameTooLong => "File name too long (os error 36)"
  | .nulInName => "file name contained an unexpected NUL byte"

/-- **A working tree**: a file tree and the place that relative paths start from. -/
structure WorkingTree where
  tree : FileTree
  current : Place

namespace WorkingTree

/-- The greatest number of bytes in a name. -/
def longestName : Nat := 255

/-- The greatest number of bytes in a path. -/
def longestPath : Nat := 4095

/-- Follow the parts of a path from a place on, at which `node` stands. A name is looked up only in
a directory, so what stands there is tested before the length of the name. -/
def follow (t : FileTree) (place : Place) (node : Node) : List (List Char) → Except FileError Place
  | [] => .ok place
  | part :: parts =>
    if node.isFile then .error .notADirectory
    else if part = [] || part = ['.'] then follow t place node parts
    else if part = ['.', '.'] then follow t place.dropLast .directory parts
    else
      let name := String.ofList part
      if longestName < name.utf8ByteSize then .error .nameTooLong
      else match t.node? (place ++ [name]) with
        | some next => follow t (place ++ [name]) next parts
        | none => .error .notFound

/-- Follow a path without the slash that may stand at its start. -/
def followFrom (t : FileTree) (start : Place) (cs : List Char) : Except FileError Place :=
  match t.node? start with
  | some node => follow t start node (Text.splitOn '/' cs)
  | none => .error .notFound

/-- The place that a path names, given by its characters and whatever their number is. The empty
path names nothing. -/
def followAll (w : WorkingTree) : List Char → Except FileError Place
  | [] => .error .notFound
  | '/' :: cs => followFrom w.tree [] cs
  | cs => followFrom w.tree w.current cs

/-- **The place that a path names.** What is wrong with the path as a whole is found before anything
is looked up. -/
def find (w : WorkingTree) (p : Path) : Except FileError Place :=
  let cs := p.toList
  if cs.contains '\x00' then .error .nulInName
  else if longestPath < p.utf8ByteSize then .error .nameTooLong
  else w.followAll cs

/-- What stands at the place that a path names. -/
def node? (w : WorkingTree) (p : Path) : Option Node :=
  match w.find p with
  | .ok place => w.tree.node? place
  | .error _ => none

/-- Whether a path leads to a node. -/
def contains (w : WorkingTree) (p : Path) : Bool := (w.node? p).isSome

/-- Whether a path leads to a directory. -/
def isDirectory (w : WorkingTree) (p : Path) : Bool := (w.node? p).any Node.isDirectory

/-- Whether a path leads to a file. -/
def isFile (w : WorkingTree) (p : Path) : Bool := (w.node? p).any Node.isFile

/-- Everything below the directory that a path names. -/
def below (w : WorkingTree) (p : Path) : Except FileError (List (Place × Node)) :=
  (w.find p).map w.tree.below

/-- The nodes right below the node that a path leads to, with their names. -/
def children (w : WorkingTree) (p : Path) : Except FileError (List (String × Node)) :=
  (w.find p).map w.tree.children

/-- **The text of a file.** -/
def read (w : WorkingTree) (p : Path) : Except FileError String := do
  match w.tree.node? (← w.find p) with
  | some (.file content) => pure content
  | some .directory => throw .isADirectory
  | none => throw .notFound

/-- The path of the current directory. -/
def currentPath (w : WorkingTree) : Path := "/" ++ Text.join "/" w.current

end WorkingTree

end InterfacePlan
