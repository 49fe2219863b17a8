import InterfacePlan.Data.Basic
/-!
# JSON text

Plans are written as indented JSON: two spaces for each level, one item or field on a line, and
empty lists and records closed at once.

## Main definitions

* `JsonText.quote`: a text as a JSON string
* `JsonText.pretty`: structured data as indented JSON
-/

namespace InterfacePlan.JsonText

/-- The digit of a number below sixteen. -/
def hexDigit (d : Nat) : Char := if d < 10 then Char.ofNat (48 + d) else Char.ofNat (87 + d)

/-- The characters that stand for `c` in a JSON string: quotes, backslashes and control characters
are escaped, all others stand for themselves. -/
def escape (c : Char) : List Char :=
  if c = '"' then ['\\', '"']
  else if c = '\\' then ['\\', '\\']
  else if c = '\n' then ['\\', 'n']
  else if c = '\r' then ['\\', 'r']
  else if c = '\t' then ['\\', 't']
  else if c = '\x08' then ['\\', 'b']
  else if c = '\x0c' then ['\\', 'f']
  else if c.toNat < 0x20 then
    ['\\', 'u', '0', '0', hexDigit (c.toNat / 16), hexDigit (c.toNat % 16)]
  else [c]

/-- A text in quotes, with its characters escaped. -/
def quote (s : String) : String :=
  "\"" ++ String.ofList (s.toList.flatMap escape) ++ "\""

/-- The start of a line at a nesting level. -/
def indent (level : Nat) : String := String.ofList (List.replicate (2 * level) ' ')

mutual

/-- **Indented JSON** of structured data that stands at nesting level `level`. -/
def pretty (level : Nat) : Data → String
  | .null => "null"
  | .bool true => "true"
  | .bool false => "false"
  | .int n => toString n
  | .float literal => literal
  | .datetime literal => quote literal
  | .text s => quote s
  | .list [] => "[]"
  | .list (d :: ds) =>
    "[\n" ++ indent (level + 1) ++ pretty (level + 1) d ++ prettyItems (level + 1) ds
      ++ "\n" ++ indent level ++ "]"
  | .record [] => "\x7b\x7d"
  | .record ((key, d) :: fs) =>
    "\x7b\n" ++ indent (level + 1) ++ quote key ++ ": " ++ pretty (level + 1) d
      ++ prettyFields (level + 1) fs ++ "\n" ++ indent level ++ "\x7d"

/-- The further items of a list. -/
def prettyItems (level : Nat) : List Data → String
  | [] => ""
  | d :: ds => ",\n" ++ indent level ++ pretty level d ++ prettyItems level ds

/-- The further fields of a record. -/
def prettyFields (level : Nat) : List (String × Data) → String
  | [] => ""
  | (key, d) :: fs =>
    ",\n" ++ indent level ++ quote key ++ ": " ++ pretty level d ++ prettyFields level fs

end

end InterfacePlan.JsonText
