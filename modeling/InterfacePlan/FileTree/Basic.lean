import InterfacePlan.Collection.SortedMap
/-!
# File trees

The files and directories that planning reads. A place in the tree is given by the names on the way
from the root; the root itself is the empty list and always a directory.

## Main definitions

* `FileTree`: files with their contents, and directories
* `FileTree.node?`: what stands at a place
* `FileTree.below`: everything below a directory, in the order of the names on the way
* `FileTree.addDirectory`, `FileTree.addFile`: a tree with more in it
-/

namespace InterfacePlan

/-- What stands at a place of a file tree. -/
inductive Node where
  | directory
  /-- A regular file and its text. -/
  | file (content : String)
  deriving DecidableEq, Inhabited

namespace Node

/-- Whether a node is a directory. -/
def isDirectory : Node → Bool
  | directory => true
  | file _ => false

/-- Whether a node is a file. -/
def isFile : Node → Bool
  | directory => false
  | file _ => true

end Node

/-- The names on the way from the root to a place. -/
abbrev Place := List String

/-- **A file tree**: what stands at every place but the root. -/
structure FileTree where
  nodes : SortedMap Place Node

namespace FileTree

/-- The tree without nodes. -/
def empty : FileTree := ⟨∅⟩

instance : EmptyCollection FileTree := ⟨empty⟩

instance : Inhabited FileTree := ⟨empty⟩

/-- What stands at a place. -/
def node? (t : FileTree) (place : Place) : Option Node :=
  if place = [] then some .directory else t.nodes.get? place

/-- Put a directory at a place where nothing stands yet. -/
def putDirectory (t : FileTree) (place : Place) : FileTree :=
  if (t.node? place).isSome then t else ⟨t.nodes.insert place .directory⟩

/-- Add a directory and all directories on the way to it, which starts at `start`. -/
def addDirectoryFrom (t : FileTree) (start : Place) : Place → FileTree
  | [] => t
  | name :: way => (t.putDirectory (start ++ [name])).addDirectoryFrom (start ++ [name]) way

/-- Add a directory and all directories on the way to it. -/
def addDirectory (t : FileTree) (place : Place) : FileTree := t.addDirectoryFrom [] place

/-- The tree with a file and the directories that lead to it. -/
def addFile (t : FileTree) (place : Place) (content : String) : FileTree :=
  ⟨(t.addDirectory place.dropLast).nodes.insert place (.file content)⟩

/-- The way from one place to another one strictly below it. -/
def wayBelow? : Place → Place → Option Place
  | [], [] => none
  | [], way => some way
  | _ :: _, [] => none
  | a :: start, b :: place => if a = b then wayBelow? start place else none

/-- **Everything below a place**: the way to it and what stands there. -/
def below (t : FileTree) (place : Place) : List (Place × Node) :=
  t.nodes.toList.filterMap fun e => (wayBelow? place e.1).map (·, e.2)

/-- The nodes right below a place, with their names. -/
def children (t : FileTree) (place : Place) : List (String × Node) :=
  (t.below place).filterMap fun e =>
    match e.1 with
    | [name] => some (name, e.2)
    | _ => none

end FileTree

end InterfacePlan
