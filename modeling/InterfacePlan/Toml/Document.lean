import InterfacePlan.Toml.Quoted
import InterfacePlan.Toml.Table
/-!
# TOML documents

A document is a sequence of lines: headers, keys with values, comments and blank lines.

## Main definitions

* `Toml.keyPath`: a key, possibly dotted
* `Toml.value`: a value, possibly an array or an inline table
* `Toml.read`: the data that a document stands for

The readers take the text to read as a list of characters and return what they read and the rest of
the text. Values nest, so their readers carry `fuel`, an upper bound of the characters left.
-/

namespace InterfacePlan.Toml

/-- Keys and values may be nested up to this depth, exclusively. -/
def depthLimit : Nat := 80

/-! ## Blanks and comments -/

/-- A text without its leading blanks. -/
def skipBlanks (cs : List Char) : List Char := cs.dropWhile isBlank

/-- A text without its leading blanks, line ends and comments. `comment` says that a comment is
going on. -/
def skipTrivia (comment : Bool) : List Char → List Char
  | [] => []
  | '\n' :: cs => skipTrivia false cs
  | '\r' :: '\n' :: cs => skipTrivia false cs
  | c :: cs =>
    -- A control character ends a comment, and is left for the reader of the next line to refuse.
    if comment then if isPlain c then skipTrivia true cs else c :: cs
    else if isBlank c then skipTrivia false cs
    else if c = '#' then skipTrivia true cs
    else c :: cs

/-- The text after the end of the line, before which only blanks and a comment may stand. -/
def lineEnd (cs : List Char) : Except TomlError (List Char) :=
  let cs := match skipBlanks cs with
    | '#' :: r => r.dropWhile isPlain
    | r => r
  match cs with
  | [] => pure []
  | '\n' :: r => pure r
  | '\r' :: '\n' :: r => pure r
  | _ => throw (.expected "newline")

/-! ## Keys -/

/-- Whether a character may stand in a key without quotes. -/
def isBareKeyChar (c : Char) : Bool := c.isAlphanum || c = '_' || c = '-'

/-- A key without dots: bare, or a string on one line. -/
def simpleKey : List Char → Except TomlError (String × List Char)
  | '"' :: cs =>
    match basic? cs with
    | some (s, r) => pure (String.ofList s, r)
    | none => throw (.expected "a key")
  | '\'' :: cs =>
    match literal? cs with
    | some (s, r) => pure (String.ofList s, r)
    | none => throw (.expected "a key")
  | cs =>
    match cs.takeWhile isBareKeyChar with
    | [] => throw (.expected "a key")
    | s => pure (String.ofList s, cs.dropWhile isBareKeyChar)

/-- The keys that follow the first one of a dotted key. -/
def furtherKeys : Nat → List Char → Except TomlError (List String × List Char)
  | 0, _ => throw .tooDeep
  | fuel + 1, cs =>
    match skipBlanks cs with
    | '.' :: r => do
      let (key, r) ← simpleKey (skipBlanks r)
      let (path, r) ← furtherKeys fuel r
      pure (key :: path, r)
    | r => pure ([], r)

/-- **A dotted key**: its first key and the further ones. Blanks may stand around every key. -/
def keyPath (cs : List Char) : Except TomlError ((String × List String) × List Char) := do
  let (key, r) ← simpleKey (skipBlanks cs)
  let (path, r) ← furtherKeys (depthLimit - 1) r
  pure ((key, path), r)

/-! ## Values -/

/-- Whether a character may stand in a scalar without quotes. -/
def isWordChar (c : Char) : Bool :=
  c.isAlphanum || c = '_' || c = '+' || c = '-' || c = '.' || c = ':'

/-- A scalar without quotes. A date may be followed by a space and a time. -/
def word (cs : List Char) : Except TomlError (Data × List Char) :=
  let first := cs.takeWhile isWordChar
  let rest := cs.dropWhile isWordChar
  let (text, rest) := match rest with
    | ' ' :: r =>
      -- Only a date joins what stands behind a blank; any other word ends there.
      if isDate first && (r.head?.any Char.isDigit) then
        (first ++ ' ' :: r.takeWhile isWordChar, r.dropWhile isWordChar)
      else (first, rest)
    | _ => (first, rest)
  match scalar? text with
  | some d => pure (d, rest)
  | none => throw (.expected "a value")

mutual

/-- **A value** that stands below `depth` arrays and inline tables. -/
def value (fuel depth : Nat) (cs : List Char) : Except TomlError (Data × List Char) :=
  match fuel with
  | 0 => throw .tooDeep
  | fuel + 1 =>
    match cs with
    | '[' :: r =>
      if depth + 1 < depthLimit then do
        let (items, r) ← arrayItems fuel (depth + 1) r
        pure (.list items, r)
      else throw .tooDeep
    | '\x7b' :: r =>
      if depth + 1 < depthLimit then
        match skipBlanks r with
        | '\x7d' :: r => pure (.record [], r)
        | r => do
          let (es, r) ← inlineEntries fuel (depth + 1) [] r
          pure (.record (entriesToData es), r)
      else throw .tooDeep
    | '"' :: _ | '\'' :: _ =>
      match quoted? cs with
      | some (s, r) => pure (.text (String.ofList s), r)
      | none => throw (.expected "a string")
    | _ => word cs

/-- The items of an array up to its closing bracket. The last one may be followed by a comma. -/
def arrayItems (fuel depth : Nat) (cs : List Char) : Except TomlError (List Data × List Char) :=
  match fuel with
  | 0 => throw .tooDeep
  | fuel + 1 =>
    match skipTrivia false cs with
    | ']' :: r => pure ([], r)
    | r => do
      let (item, r) ← value fuel depth r
      match skipTrivia false r with
      | ',' :: r => do
        let (items, r) ← arrayItems fuel depth r
        pure (item :: items, r)
      | ']' :: r => pure ([item], r)
      | _ => throw (.expected "a comma or a closing bracket")

/-- The entries of an inline table, which all stand on one line, up to its closing brace. -/
def inlineEntries (fuel depth : Nat) (es : Entries) (cs : List Char) :
    Except TomlError (Entries × List Char) :=
  match fuel with
  | 0 => throw .tooDeep
  | fuel + 1 => do
    let ((key, path), r) ← keyPath cs
    match r with
    | '=' :: r => do
      let (v, r) ← value fuel depth (skipBlanks r)
      -- No header opens an inline table later, so it counts as one with a header of its own.
      let es ← define key path v .header es
      match skipBlanks r with
      | ',' :: r => inlineEntries fuel depth es r
      | '\x7d' :: r => pure (es, r)
      | _ => throw (.expected "a comma or a closing brace")
    | _ => throw (.expected "an equals sign")

end

/-! ## Documents -/

/-- A document under construction: its root table, and the keys of the header whose table the
current lines belong to. -/
structure Draft where
  root : Entries
  current : List String

/-- One line that is neither blank nor a comment, and the document after it. -/
def line (draft : Draft) : List Char → Except TomlError (Draft × List Char)
  | '[' :: '[' :: cs => do
    let ((key, path), r) ← keyPath cs
    match r with
    | ']' :: ']' :: r => do
      let r ← lineEnd r
      let root ← openElement key path draft.root
      pure (⟨root, key :: path⟩, r)
    | _ => throw (.expected "two closing brackets")
  | '[' :: cs => do
    let ((key, path), r) ← keyPath cs
    match r with
    | ']' :: r => do
      let r ← lineEnd r
      let root ← openTable key path draft.root
      pure (⟨root, key :: path⟩, r)
    | _ => throw (.expected "a closing bracket")
  | cs => do
    let ((key, path), r) ← keyPath cs
    match r with
    | '=' :: r => do
      let r := skipBlanks r
      -- Every nested value takes up a character at least, so the fuel never runs out.
      let (v, r) ← value (r.length + 1) 0 r
      let r ← lineEnd r
      let root ← update false (define key path v) draft.current .header draft.root
      pure ({ draft with root }, r)
    | _ => throw (.expected "an equals sign")

/-- The lines of a document. -/
def lines (draft : Draft) : Nat → List Char → Except TomlError Draft
  | 0, _ => throw .tooDeep
  | fuel + 1, cs =>
    match skipTrivia false cs with
    | [] => pure draft
    | cs => do
      let (draft, r) ← line draft cs
      lines draft fuel r

/-- The characters behind a byte order mark, if they start with one. -/
def dropMark : List Char → List Char
  | '\uFEFF' :: cs => cs
  | cs => cs

/-- **The data that a TOML document stands for**: a record. -/
def read (text : String) : Except TomlError Data := do
  let cs := dropMark text.toList
  let draft ← lines ⟨[], []⟩ (cs.length + 1) cs
  pure (.record (entriesToData draft.root))

end InterfacePlan.Toml
