import InterfacePlan.Text.Split
/-!
# Paths

Paths are texts with slashes. Their text is kept as it was given, because it appears in plans and in
messages; what they name is decided by their components. Repeated slashes, a trailing slash and
single dots behind the start are no components.

## Main definitions

* `Path`: the text of a path
* `Path.Component`, `Path.components`: what a path consists of
* `Path.join`, `Path.parent?`: a path below another one, and the directory that holds it
* `Path.le`: the order of paths, by components
-/

namespace InterfacePlan

/-- The text of a path. -/
abbrev Path := String

namespace Path

/-- One step of a path. -/
inductive Component where
  | root
  /-- The current directory; a component only at the start of a relative path. -/
  | current
  | parent
  | name (s : String)
  deriving DecidableEq, Inhabited

/-- The text of a component. -/
def Component.text : Component → String
  | .root => "/"
  | .current => "."
  | .parent => ".."
  | .name s => s

/-- Components are ordered by kind, in the order of their declaration, and names by their text. -/
def Component.key : Component → List String
  | .root => ["0"]
  | .current => ["1"]
  | .parent => ["2"]
  | .name s => ["3", s]

/-- Whether a path starts from the root. -/
def isAbsolute (p : Path) : Bool := p.toList.head? = some '/'

/-- The component that a part between slashes is, behind the start of a path. -/
def component? (part : List Char) : Option Component :=
  if part = [] || part = ['.'] then none
  else if part = ['.', '.'] then some .parent
  else some (.name (String.ofList part))

/-- **The components of a path.** -/
def components (p : Path) : List Component :=
  match p.toList with
  | '/' :: cs => .root :: (Text.splitOn '/' cs).filterMap component?
  | cs =>
    match Text.splitOn '/' cs with
    -- A single dot counts as a component at the start only.
    | ['.'] :: parts => .current :: parts.filterMap component?
    | parts => parts.filterMap component?

/-- **Joining.** The path `q` as seen from `p`; an absolute path stays as it is. -/
def join (p q : Path) : Path :=
  if isAbsolute q then q
  else if p.toList.getLast?.all (· = '/') then p ++ q
  else p ++ "/" ++ q

/-- Parts of a path without trailing empty parts and single dots. -/
def trimParts (parts : List (List Char)) : List (List Char) :=
  (parts.reverse.dropWhile fun part => part = [] || part = ['.']).reverse

/-- The text of the parts of a path, and of the path without its last part. -/
def parentParts? (start : List Char) (parts : List (List Char)) : Option Path :=
  match trimParts parts with
  | [] => none
  | trimmed => some (String.ofList (start ++ Text.joinWith '/' (trimParts trimmed.dropLast)))

/-- **The directory that holds a path**: its text up to the last component, without trailing
slashes and single dots. The root and the empty path have none. -/
def parent? (p : Path) : Option Path :=
  match p.toList with
  | '/' :: cs => parentParts? ['/'] (Text.splitOn '/' cs)
  | cs =>
    match Text.splitOn '/' cs with
    | ['.'] :: parts =>
      match trimParts parts with
      | [] => some ""
      | trimmed =>
        some (String.ofList (Text.joinWith '/' (['.'] :: trimParts trimmed.dropLast)))
    | parts => parentParts? [] parts

/-- Paths are ordered by their components, one after the other. -/
def compareComponents (p q : Path) : Ordering :=
  compare ((components p).map Component.key) ((components q).map Component.key)

/-- Whether `p` comes before `q` or has the same components. -/
def le (p q : Path) : Bool := (compareComponents p q).isLE

/-- Whether two paths have the same components. -/
def same (p q : Path) : Bool := components p = components q

/-- A path with slashes between all of its components. -/
def toSlash (p : Path) : String := Text.join "/" ((components p).map Component.text)

end Path

end InterfacePlan
