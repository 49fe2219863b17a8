import InterfacePlan.Data.Basic
/-!
# TOML tables

A document builds its tables piece by piece: by headers, by headers of table arrays and by dotted
keys. This module holds the tables under construction and the rules that keep a table from being
defined twice.

## Main definitions

* `TomlError`: why a text is no TOML document
* `Toml.Item`, `Toml.Origin`: what a key holds, and what made a table
* `Toml.update`: a change to the table at the end of a path of keys
* `Toml.define`, `Toml.openTable`, `Toml.openElement`: a value, a header, an array header
-/

namespace InterfacePlan

/-- **Why a text is no TOML document.** -/
inductive TomlError where
  /-- Something else was expected. -/
  | expected (what : String)
  /-- A key or a table is defined twice. -/
  | duplicate (key : String)
  /-- A key that holds a value is extended as if it held a table. -/
  | noTable (key : String)
  /-- Values or keys are nested too deeply. -/
  | tooDeep
  deriving Inhabited, DecidableEq

/-- The text of an error in a document. -/
def TomlError.message : TomlError → String
  | .expected what => "expected " ++ what
  | .duplicate key => "duplicate key `" ++ key ++ "`"
  | .noTable key => "`" ++ key ++ "` is not a table"
  | .tooDeep => "recursion limit exceeded"

namespace Toml

/-- What made a table: its own header, the header of a table below it, or a dotted key. -/
inductive Origin where
  | header
  | implied
  | dotted
  deriving DecidableEq

/-- What a key of a table under construction holds. -/
inductive Item where
  | value (v : Data)
  | table (origin : Origin) (entries : List (String × Item))
  /-- An array of tables, one per header. -/
  | tables (elements : List (List (String × Item)))
  deriving Inhabited

/-- The entries of a table, in the order in which their keys were mentioned. -/
abbrev Entries := List (String × Item)

/-- What the entries hold under `key`. -/
def find? (key : String) : Entries → Option Item
  | [] => none
  | e :: es => if e.1 = key then some e.2 else find? key es

/-- The entries with another item under a `key` that they have. -/
def replace (key : String) (item : Item) : Entries → Entries
  | [] => []
  | e :: es => if e.1 = key then (key, item) :: es else e :: replace key item es

/-- **A change below a path.** Follow the keys of `path` from a table and change the table reached.
Tables on the way that do not exist are made; in an array of tables the way goes through its last
element. A dotted key may not pass through a table that has a header of its own. -/
def update (dotted : Bool) (change : Origin → Entries → Except TomlError Entries) :
    List String → Origin → Entries → Except TomlError Entries
  | [], origin, es => change origin es
  | key :: path, _, es =>
    match find? key es with
    | none => do
      -- The table is made on the way, so its origin is the kind of line that passes it.
      let made := if dotted then Origin.dotted else Origin.implied
      let below ← update dotted change path made []
      pure (es ++ [(key, .table made below)])
    | some (.value _) => throw (.noTable key)
    | some (.table origin below) =>
      if dotted && origin = .header then throw (.duplicate key)
      else do
        let below ← update dotted change path origin below
        pure (replace key (.table origin below) es)
    | some (.tables elements) =>
      match elements.getLast? with
      | none => throw (.noTable key)
      | some last => do
        let last ← update dotted change path .header last
        pure (replace key (.tables (elements.dropLast ++ [last])) es)

/-- Split a non-empty path into its leading keys and its last key. -/
def splitPath : String → List String → List String × String
  | key, [] => ([], key)
  | key, next :: path => let (init, last) := splitPath next path; (key :: init, last)

/-- **A key and its value**, in a table that has the origin `origin`. The last key of a dotted key
goes into a table made by dotted keys only. -/
def define (key : String) (path : List String) (v : Data) (origin : Origin) (es : Entries) :
    Except TomlError Entries :=
  let (init, last) := splitPath key path
  update true (fun origin es =>
    -- A table that dotted keys made takes no plain key, and a dotted key goes into no other table.
    if (origin = .dotted) = (init = []) then throw (.duplicate last)
    else match find? last es with
      | none => pure (es ++ [(last, .value v)])
      | some _ => throw (.duplicate last)) init origin es

/-- **A table header.** It may open a table that only headers below it have mentioned. -/
def openTable (key : String) (path : List String) (root : Entries) : Except TomlError Entries :=
  let (init, last) := splitPath key path
  update false (fun _ es =>
    match find? last es with
    | none => pure (es ++ [(last, .table .header [])])
    -- Headers below it have made this table, and its own header may still follow.
    | some (.table .implied below) => pure (replace last (.table .header below) es)
    | some _ => throw (.duplicate last)) init .header root

/-- **The header of an array of tables.** It appends an element. -/
def openElement (key : String) (path : List String) (root : Entries) : Except TomlError Entries :=
  let (init, last) := splitPath key path
  update false (fun _ es =>
    match find? last es with
    | none => pure (es ++ [(last, .tables [[]])])
    | some (.tables elements) => pure (replace last (.tables (elements ++ [[]])) es)
    | some _ => throw (.duplicate last)) init .header root

mutual

/-- The data that a finished item stands for. -/
def Item.toData : Item → Data
  | .value v => v
  | .table _ es => .record (entriesToData es)
  | .tables elements => .list (elementsToData elements)

/-- The fields that the entries of a finished table stand for. -/
def entriesToData : List (String × Item) → List (String × Data)
  | [] => []
  | (key, item) :: es => (key, item.toData) :: entriesToData es

/-- The records that the elements of a finished array of tables stand for. -/
def elementsToData : List (List (String × Item)) → List Data
  | [] => []
  | es :: elements => .record (entriesToData es) :: elementsToData elements

end

end Toml

end InterfacePlan
