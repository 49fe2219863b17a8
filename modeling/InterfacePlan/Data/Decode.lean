import InterfacePlan.Data.Basic
/-!
# Reading structured data

Decoders read typed values from structured data. Every field of a record is read by name, a field
that is left out takes its default, and fields that nobody asks for are ignored.

## Main definitions

* `DecodeError`: why a value cannot be read
* `Data.asText`, `Data.asBool`, `Data.asList`, `Data.asOptional`: decoders of plain values
* `Data.Surplus`: whether a record that is written as a list may have values behind its last field
* `Data.fieldsOf`, `Data.anyFieldsOf`: the fields of a record
* `Data.read`: one field of a record, with a default
-/

namespace InterfacePlan

/-- Why structured data cannot be read as a value of some type. -/
inductive DecodeError where
  /-- Something else was expected. -/
  | expected (what : String)
  /-- A field without a default is left out. -/
  | missing (field : String)
  /-- The value of a field cannot be read. -/
  | inField (field : String) (cause : DecodeError)
  deriving Inhabited, DecidableEq

/-- The text of a decoding error, with the fields that lead to it. -/
def DecodeError.message : DecodeError → String
  | .expected what => "expected " ++ what
  | .missing field => "missing field `" ++ field ++ "`"
  | .inField field cause => field ++ ": " ++ cause.message

namespace Data

/-- Reading a text. -/
def asText : Data → Except DecodeError String
  | .text s => .ok s
  | _ => .error (.expected "a string")

/-- Reading a boolean. -/
def asBool : Data → Except DecodeError Bool
  | .bool b => .ok b
  | _ => .error (.expected "a boolean")

/-- A whole number that fits an unsigned 64-bit word. -/
def asWord : Data → Except DecodeError Nat
  | .int n =>
    if 0 ≤ n ∧ n < UInt64.size then .ok n.toNat else .error (.expected "an unsigned integer")
  | _ => .error (.expected "an unsigned integer")

/-- A list, item by item. -/
def asList {α : Type} (decode : Data → Except DecodeError α) : Data → Except DecodeError (List α)
  | .list items => items.mapM decode
  | _ => .error (.expected "an array")

/-- Reading a list of texts. -/
def asTexts : Data → Except DecodeError (List String) := asList asText

/-- Null is no value; anything else is a value. -/
def asOptional {α : Type} (decode : Data → Except DecodeError α) :
    Data → Except DecodeError (Option α)
  | .null => .ok none
  | d => (decode d).map some

/-- The fields of a record. A date or time counts as a record that has no field anyone asks for. -/
def fieldsOf : Data → Except DecodeError (List (String × Data))
  | .record fields => .ok fields
  | .datetime _ => .ok []
  | _ => .error (.expected "a table")

/-- What becomes of the values behind the last field, when a record is written as a list. -/
inductive Surplus where
  | ignored
  | refused
  deriving DecidableEq, Inhabited

/-- The fields of a record that may also be written as the list of its leading fields, in the
order of `names`. -/
def anyFieldsOf (surplus : Surplus) (names : List String) :
    Data → Except DecodeError (List (String × Data))
  | .list items =>
    if surplus = .refused ∧ names.length < items.length then .error (.expected "a shorter array")
    else .ok (names.zip items)
  | d => fieldsOf d

@[simp] theorem fieldsOf_record (fields : List (String × Data)) :
    fieldsOf (.record fields) = .ok fields := rfl

@[simp] theorem anyFieldsOf_record (surplus : Surplus) (names : List String)
    (fields : List (String × Data)) : anyFieldsOf surplus names (.record fields) = .ok fields := rfl

/-- **Reading a field.** The field `key` of a record, or `default` when it is left out. -/
def read {α : Type} (fields : List (String × Data)) (key : String)
    (decode : Data → Except DecodeError α) (default : α) : Except DecodeError α :=
  match field? key fields with
  | none => .ok default
  | some d => (decode d).mapError (.inField key)

/-- The field `key` of a record, which may not be left out. -/
def require {α : Type} (fields : List (String × Data)) (key : String)
    (decode : Data → Except DecodeError α) : Except DecodeError α :=
  match field? key fields with
  | none => .error (.missing key)
  | some d => (decode d).mapError (.inField key)

end Data

end InterfacePlan
