import InterfacePlan.Collection.SortedMap
import InterfacePlan.Interface.Versions
/-!
# Registries

The interfaces that take part in planning, by name.

## Main definitions

* `Registry`: interfaces by name, with well-formed versions
* `Registry.ofList`: the registry of interfaces with well-formed versions and different names
* `Registry.get?`, `Registry.imported`: look-up, for itself and on behalf of an importing interface
* `Registry.interfaces`: all interfaces, in name order
-/

namespace InterfacePlan

/-- **A registry** of interfaces. -/
structure Registry where
  byName : SortedMap String Interface
  /-- Every interface is registered under its own name, and its versions are well formed. -/
  sound : ∀ name i, byName.get? name = some i → i.name = name ∧ i.validateVersions = .ok ()

namespace Registry

/-- The registry without interfaces. -/
def empty : Registry := ⟨∅, fun _ _ h => by simp at h⟩

instance : EmptyCollection Registry := ⟨empty⟩

instance : Inhabited Registry := ⟨empty⟩

/-- The interface of a name. -/
def get? (r : Registry) (name : String) : Option Interface := r.byName.get? name

/-- All interfaces, in name order. -/
def interfaces (r : Registry) : List Interface := r.byName.values

/-- The number of interfaces. -/
def size (r : Registry) : Nat := r.byName.size

/-- Whether there are no interfaces. -/
def isEmpty (r : Registry) : Bool := r.byName.isEmpty

/-- Register one more interface, whose versions have to be well formed and whose name new. -/
def add (r : Registry) (i : Interface) : Except PlanError Registry :=
  match valid : i.validateVersions with
  | .error e => .error e
  | .ok () =>
    if r.byName.contains i.name then .error (.duplicateInterface i.name)
    else .ok ⟨r.byName.insert i.name i, fun name j h => by
      rw [SortedMap.get?_insert] at h
      split at h
      case isTrue hn =>
        obtain rfl := Option.some.inj h
        exact ⟨hn, valid⟩
      case isFalse => exact r.sound name j h⟩

/-- The registry with several more interfaces, or the first error. -/
def addAll (r : Registry) : List Interface → Except PlanError Registry
  | [] => .ok r
  | i :: is =>
    match r.add i with
    | .error e => .error e
    | .ok r => r.addAll is

/-- **The registry of some interfaces**, or the first error among them. -/
def ofList (is : List Interface) : Except PlanError Registry := addAll ∅ is

/-- The interface that `importer` imports by the name `name`. -/
def imported (r : Registry) (importer name : String) : Except PlanError Interface :=
  match r.get? name with
  | some i => .ok i
  | none => .error (.unknownInterface importer name)

end Registry

end InterfacePlan
