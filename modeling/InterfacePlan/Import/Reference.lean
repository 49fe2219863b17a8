import InterfacePlan.Text.DigitClass
/-!
# Import references

An import names an interface, `baz`, or one of its versions, `baz-V5`. The version starts behind the
last `-V` and consists of decimal digits of any script.

## Main definitions

* `Import.split`: the interface and the version that an import names
* `Import.hasVersion`: whether an import names a version
-/

namespace InterfacePlan.Import

/-- The parts of an import whose characters are given in reverse. -/
def splitReversed? (cs : List Char) : Option (List Char × List Char) :=
  match cs.dropWhile DigitClass.isDecimalDigit with
  | 'V' :: '-' :: name =>
    let digits := cs.takeWhile DigitClass.isDecimalDigit
    -- A mark with no digits behind it belongs to the name.
    if digits.isEmpty then none else some (name.reverse, digits.reverse)
  | _ => none

/-- **The interface that an import names, and the version, if it names one.** -/
def split (s : String) : String × Option String :=
  match splitReversed? s.toList.reverse with
  | some (name, digits) => (String.ofList name, some (String.ofList digits))
  | none => (s, none)

/-- Whether a reference names a version. -/
def hasVersion (s : String) : Bool := (split s).2.isSome

end InterfacePlan.Import
