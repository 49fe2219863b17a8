import InterfacePlan.Proofs.Plan.Footprint
import InterfacePlan.Proofs.Plan.RequestImports
/-!
# Frozen versions under edits

A frozen version was released. Its sources stand in a snapshot, its imports were recorded, and all
that its source generator is told about freezing is that it is frozen. So it stays as it is when the
version in development is edited, of its own interface or of any other one, and when the settings
ask for this version to be frozen. Imports give no way around this: what they stand for depends on
which versions there are, and an edit leaves these alone.

## Main definitions

* `Development`, `Interface.edited`: what a declaration says of the version in development, and the
  declaration with this replaced
* `Registry.IsEdit`, `Settings.IsEdit`: registries and settings that differ in nothing else

## Main results

* `Request.answer_edited`: the answer to a request for a frozen version survives an edit
* `Plan.frozen_versions_survive_edits`: so does everything that plans hold for it
-/

namespace InterfacePlan

/-- **What a declaration says of the version in development alone.** -/
structure Development where
  srcs : List String := []
  localIncludeDir : String := ""
  imports : List String := []
  frozen : Option Bool := none

/-- A declaration with another version in development. -/
def Interface.edited (i : Interface) (d : Development) : Interface :=
  { i with
    srcs := d.srcs
    localIncludeDir := d.localIncludeDir
    imports := d.imports
    frozen := d.frozen }

/-- A request of the declaration with another version in development. -/
def Request.edited (q : Request) (d : Development) : Request :=
  { q with interface := q.interface.edited d }

@[simp] theorem Request.backend_edited (q : Request) (d : Development) :
    (q.edited d).backend = q.backend :=
  rfl

/-- **Declarations that differ in the version in development alone.** -/
def Interface.IsEdit (i j : Interface) : Prop := ∃ d, j = i.edited d

/-- **Registries that differ in versions in development alone**: both have the same interfaces, and
each of them differs in nothing else. -/
def Registry.IsEdit (r r' : Registry) : Prop :=
  List.Forall₂ Interface.IsEdit r.interfaces r'.interfaces

/-- **Settings that plan the same frozen versions**: they differ at most in whether and why the
version in development has to be frozen, and in the number of threads. -/
def Settings.IsEdit (settings settings' : Settings) : Prop :=
  ∃ required reason jobs, settings' = { settings with
    requireFrozen := required
    requireFrozenReason := reason
    jobs := jobs }

variable {settings settings' : Settings} {w : WorkingTree} {r r' : Registry} {q : Request}
  {p p' : Plan}

/-! ## One interface -/

namespace Interface

variable {i : Interface} {version : String} {d : Development}

/-- An edit leaves the versions alone. -/
theorem sameVersions_edited : i.SameVersions (i.edited d) := ⟨rfl, rfl, rfl⟩

theorem importsFor_edited (hnext : i.isNextVersion version = false) :
    (i.edited d).importsFor version = i.importsFor version := by
  rw [importsFor, importsFor, ← sameVersions_edited.isNextVersion, hnext]
  rfl

theorem freezeState_edited (hnext : i.isNextVersion version = false) :
    (i.edited d).freezeState settings' version = i.freezeState settings version := by
  rw [freezeState, freezeState, ← sameVersions_edited.isNextVersion, hnext]
  rfl

/-- What a request for a frozen version says of freezing does not depend on the version in
development, nor on the settings. -/
theorem request_edited (hnext : i.isNextVersion version = false) (backend : Backend) :
    (i.edited d).request settings' version backend
      = (i.request settings version backend).edited d := by
  rw [request, freezeState_edited hnext]
  rfl

/-- The same requests are made before and after an edit. -/
theorem request_edited_mem_iff {backend : Backend} :
    (i.edited d).request settings' version backend ∈ (i.edited d).requests settings' ↔
      i.request settings version backend ∈ i.requests settings := by
  rw [mem_requests, mem_requests]
  constructor
  · rintro ⟨v, b, hv, hb, heq⟩
    obtain ⟨rfl, rfl⟩ := request_inj.1 heq
    exact ⟨_, _, hv, hb, rfl⟩
  · rintro ⟨v, b, hv, hb, heq⟩
    obtain ⟨rfl, rfl⟩ := request_inj.1 heq
    exact ⟨_, _, hv, hb, rfl⟩

end Interface

/-! ## One request -/

namespace Request

variable (d : Development) (hnext : q.interface.isNextVersion q.version = false)
include hnext

/-- The snapshot of a version is found without looking at the version in development. -/
theorem select_edited (hsettings : settings.IsEdit settings') :
    Sources.select settings' w (q.interface.edited d) q.version
      = Sources.select settings w q.interface q.version := by
  obtain ⟨required, reason, jobs, rfl⟩ := hsettings
  rw [Sources.select, Sources.select, ← Interface.sameVersions_edited.isNextVersion, hnext]
  rfl

theorem sourceGenerator_edited (sources : Sources) :
    (q.edited d).sourceGenerator sources = q.sourceGenerator sources := by
  have himports : (q.edited d).interface.importsFor (q.edited d).version
      = q.interface.importsFor q.version :=
    Interface.importsFor_edited hnext
  rw [sourceGenerator, himports]
  rfl

theorem blueprint_edited (hsettings : settings.IsEdit settings') (sources : Sources) :
    (q.edited d).blueprint settings' sources = q.blueprint settings sources := by
  obtain ⟨required, reason, jobs, rfl⟩ := hsettings
  have hsource := sourceGenerator_edited d hnext sources
  -- Of what an edit changes, backends read the imports alone, and these for the generator.
  unfold blueprint
  rw [backend_edited]
  cases q.backend with
  | cpp =>
    simp only [Native.cpp, hsource]
    rfl
  | ndk =>
    simp only [Native.ndk, hsource]
    rfl
  | analyzer =>
    simp only [Native.analyzer, hsource]
    rfl
  | java =>
    simp only [Managed.java, hsource]
    rfl
  | rust =>
    simp only [MemorySafe.rust, hsource]
    rfl

/-- **The answer to a request for a frozen version survives an edit.** -/
theorem answer_edited (hsettings : settings.IsEdit settings') :
    (q.edited d).answer settings' w = q.answer settings w := by
  have hselect : Sources.select settings' w (q.edited d).interface (q.edited d).version
      = Sources.select settings w q.interface q.version :=
    select_edited d hnext hsettings
  unfold answer
  simp only [hselect, blueprint_edited d hnext hsettings]

end Request

/-! ## All interfaces -/

namespace Registry

/-- An interface has the same versions in both registries, also where it is imported. -/
theorem IsEdit.sameVersions (hr : r.IsEdit r') {name : String} {j j' : Interface}
    (hj : r.get? name = some j) (hj' : r'.get? name = some j') : j.SameVersions j' := by
  obtain ⟨k, hk, d, rfl⟩ :=
    Outcome.exists_right_of_forall₂ hr (mem_interfaces_of_get? hj)
  have hname : (j.edited d).name = j'.name := (r.sound _ j hj).1.trans (r'.sound _ j' hj').1.symm
  obtain rfl := eq_of_name_eq hk (mem_interfaces_of_get? hj') hname
  exact Interface.sameVersions_edited

/-- Requests for a frozen version are alike before and after an edit. -/
theorem IsEdit.alike (hr : r.IsEdit r') (hsettings : settings.IsEdit settings') {i : Interface}
    {version : String} (hnext : i.isNextVersion version = false) (d : Development)
    (backend : Backend) :
    (i.request settings version backend).Alike settings settings' w r r'
      ((i.edited d).request settings' version backend) where
  answer_eq := by
    rw [Interface.request_edited hnext]
    exact (Request.answer_edited d hnext hsettings).symm
  interface := Interface.sameVersions_edited
  version_eq := rfl
  backend_eq := rfl
  importsFor_eq := (Interface.importsFor_edited hnext).symm
  imported := fun _ _ _ _ hj hj' => hr.sameVersions hj hj'

end Registry

namespace Plan

/-- **Frozen versions survive edits.** Let two registries differ in versions in development alone,
and the settings in how these are to be frozen. Then the same libraries are requested of frozen
versions, and for each of them both plans hold the same source generator, the same library and the
same implementation, or skip it both. -/
theorem frozen_versions_survive_edits (hp : ofRegistry settings w r = .ok p)
    (hp' : ofRegistry settings' w r' = .ok p') (hr : r.IsEdit r')
    (hsettings : settings.IsEdit settings') :
    ∀ i ∈ r.interfaces, ∃ j ∈ r'.interfaces, i.IsEdit j
      ∧ ∀ version ∈ i.frozenVersions, ∀ backend,
          (j.request settings' version backend ∈ r'.requests settings' ↔
            i.request settings version backend ∈ r.requests settings)
          ∧ (i.request settings version backend ∈ r.requests settings →
              p.AgreesOn p' (i.request settings version backend)) := by
  intro i hi
  obtain ⟨j, hj, d, rfl⟩ := Outcome.exists_right_of_forall₂ hr hi
  refine ⟨_, hj, ⟨d, rfl⟩, ?_⟩
  intro version hversion backend
  have hnext := Interface.isNextVersion_of_mem_frozenVersions
    (Registry.validateVersions_of_mem hi) hversion
  have hiff : (i.edited d).request settings' version backend ∈ r'.requests settings' ↔
      i.request settings version backend ∈ r.requests settings := by
    rw [Registry.mem_requests_iff, Registry.mem_requests_iff]
    exact and_congr (iff_of_true hj hi) Interface.request_edited_mem_iff
  refine ⟨hiff, ?_⟩
  intro hrequest
  exact (realizes hp).agreesOn (realizes hp') hrequest (hiff.2 hrequest)
    (hr.alike hsettings hnext d backend)

/-- The recorded interfaces after some work on them. -/
def editedInterfaces : List Interface :=
  List.zipWith Interface.edited recordedInterfaces [
    { srcs := ["Foo.aidl", "New.aidl"], localIncludeDir := "api", imports := ["baz"] },
    { srcs := [], frozen := some true }]

theorem recorded_request_survives_edit :
    ∃ p p', ofRegistry {} recordedTree (registryOf recordedInterfaces) = .ok p
      ∧ ofRegistry { requireFrozen := true, requireFrozenReason := "release", jobs := some 4 }
          recordedTree (registryOf editedInterfaces) = .ok p'
      ∧ p.AgreesOn p' recordedRequest := by
  have hok : (ofRegistry {} recordedTree (registryOf recordedInterfaces)).isOk = true := by
    decide +kernel
  have hok' : (ofRegistry
      { requireFrozen := true, requireFrozenReason := "release", jobs := some 4 }
      recordedTree (registryOf editedInterfaces)).isOk = true := by
    decide +kernel
  obtain ⟨p, hp⟩ := Outcome.exists_ok_of_isOk hok
  obtain ⟨p', hp'⟩ := Outcome.exists_ok_of_isOk hok'
  have hedit : (registryOf recordedInterfaces).IsEdit (registryOf editedInterfaces) := by
    have hbefore : (registryOf recordedInterfaces).interfaces
        = [recordedInterfaces[1], recordedInterfaces[0]] := by
      decide +kernel
    have hafter : (registryOf editedInterfaces).interfaces
        = [editedInterfaces[1], editedInterfaces[0]] := by
      decide +kernel
    rw [Registry.IsEdit, hbefore, hafter]
    exact .cons ⟨_, rfl⟩ (.cons ⟨_, rfl⟩ .nil)
  have hfoo : recordedInterfaces[0] ∈ (registryOf recordedInterfaces).interfaces := by
    decide +kernel
  have hrequest : recordedRequest ∈ (registryOf recordedInterfaces).requests {} := by
    decide +kernel
  obtain ⟨j, -, -, hfrozen⟩ :=
    frozen_versions_survive_edits hp hp' hedit ⟨true, "release", some 4, rfl⟩ _ hfoo
  obtain ⟨-, hagrees⟩ := hfrozen "1" (by decide) .cpp
  exact ⟨p, p', hp, hp', hagrees hrequest⟩

end Plan

end InterfacePlan
