/-!
# Structured data

Interface declarations, settings and plans are exchanged as structured data. Manifests and
configuration files write it as TOML, plans are written as JSON; `Data` is what both texts stand
for.

## Main definitions

* `Data`: a structured value
* `Data.field?`: the value of a field of a record
* `Data.optional`, `Data.texts`: the data form of an option and of a list of texts
-/

namespace InterfacePlan

/-- **Structured data.** A record lists its fields in the order in which they are written. -/
inductive Data where
  | null
  | bool (b : Bool)
  | int (n : Int)
  /-- A number with a fraction or an exponent, kept as written. -/
  | float (literal : String)
  /-- A date, a time or both, kept as written. -/
  | datetime (literal : String)
  | text (s : String)
  | list (items : List Data)
  | record (fields : List (String × Data))
  deriving Inhabited, BEq

namespace Data

/-- The value of the first field called `key`. -/
def field? (key : String) : List (String × Data) → Option Data
  | [] => none
  | f :: fs => if f.1 = key then some f.2 else field? key fs

@[simp] theorem field?_nil (key : String) : field? key [] = none := rfl

@[simp] theorem field?_cons (key : String) (f : String × Data) (fs : List (String × Data)) :
    field? key (f :: fs) = if f.1 = key then some f.2 else field? key fs := rfl

/-- An option is its value, or null. -/
def optional {α : Type} (encode : α → Data) : Option α → Data
  | none => null
  | some a => encode a

/-- A list of texts. -/
def texts (ss : List String) : Data := list (ss.map text)

/-- The field `key`, left out when the option is empty. -/
def optionalField {α : Type} (key : String) (encode : α → Data) :
    Option α → List (String × Data)
  | none => []
  | some a => [(key, encode a)]

/-- The field `key`, left out when the list of texts is empty. -/
def textsField (key : String) (ss : List String) : List (String × Data) :=
  if ss.isEmpty then [] else [(key, texts ss)]

end Data

end InterfacePlan
