import InterfacePlan.Library.Request
/-!
# The requests of an interface

Planning asks for a library of every version of an interface, for every backend that the interface
enables.

## Main definitions

* `Interface.freezeState`: what the source generator is told about freezing
* `Interface.requests`: the requests for an interface
-/

namespace InterfacePlan

/-- What the source generator is told about freezing. -/
structure FreezeState where
  /-- Whether the version is in development and differs from the latest frozen one. -/
  notFrozen : Bool := false
  /-- Why it has to be frozen. -/
  reason : String := ""
  deriving DecidableEq, Inhabited

/-- The reason that is given for a version which is frozen already. -/
def knownFrozenReason : String := "this is a known frozen version"

namespace Interface

/-- **What the source generator is told about freezing.** Nothing about unstable interfaces, and
about the version in development what the declaration and the settings say. -/
def freezeState (i : Interface) (settings : Settings) (version : String) : FreezeState :=
  if i.unstable then {}
  else if i.isNextVersion version then
    { notFrozen := !i.frozen.getD false
      reason := if settings.requireFrozen then settings.requireFrozenReason else "" }
  else { reason := knownFrozenReason }

/-- Whether libraries are generated for a version and a backend. The analyzer has no version in its
name, so there is one of the version in development only. -/
def generates (i : Interface) (version : String) (backend : Backend) : Bool :=
  i.enables backend && (backend ≠ .analyzer || i.isNextVersion version)

/-- The request for the library of a version. -/
def request (i : Interface) (settings : Settings) (version : String) (backend : Backend) :
    Request :=
  let state := i.freezeState settings version
  { interface := i
    version := version
    backend := backend
    notFrozen := state.notFrozen
    requireFrozenReason := state.reason }

/-- **The requests for an interface**: for one backend after the other, all its versions. -/
def requests (i : Interface) (settings : Settings) : List Request :=
  Backend.all.flatMap fun backend =>
    (i.buildVersions.filter fun version => i.generates version backend).map fun version =>
      i.request settings version backend

theorem mem_requests {i : Interface} {settings : Settings} {r : Request} :
    r ∈ i.requests settings ↔
      ∃ version backend, version ∈ i.buildVersions ∧ i.generates version backend = true
        ∧ r = i.request settings version backend := by
  simp only [requests, List.mem_flatMap, List.mem_map, List.mem_filter]
  constructor
  · rintro ⟨backend, -, version, ⟨hv, hg⟩, rfl⟩
    exact ⟨version, backend, hv, hg, rfl⟩
  · rintro ⟨version, backend, hv, hg, rfl⟩
    exact ⟨backend, Backend.mem_all backend, version, ⟨hv, hg⟩, rfl⟩

end Interface

end InterfacePlan
