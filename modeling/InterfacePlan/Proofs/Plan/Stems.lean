import InterfacePlan.Proofs.Library.CrateNames
import InterfacePlan.Proofs.Library.KeptLinks
import InterfacePlan.Proofs.Plan.Links
/-!
# Stems of memory-safe libraries

A memory-safe library of a plan is written to files that are called after the crate of its version.
The names of modules are different, but crates need not be. So two libraries are written to the same
files exactly if they are built for versions that stand for the same crate. Such versions are never
versions of one interface.

## Main definitions

* `MemorySafeLibrary.IsCalledAfter`: libraries that are called after a crate

## Main results

* `Plan.Realizes.exists_version_of_memorySafe`: where the memory-safe libraries of a plan come from
* `Plan.shared_stem_iff`: which libraries share their files
* `Plan.namesakes_share_stem`: a plan where libraries do
-/

namespace InterfacePlan

open MemorySafe (crateName SharesCrate)

/-- **A memory-safe library that is called after a crate**, in its own files and in the generated
ones. -/
structure MemorySafeLibrary.IsCalledAfter (l : MemorySafeLibrary) (crate : String) : Prop where
  stem : l.stem = "lib" ++ crate
  sourceStem : l.sourceStem = crate

namespace Request

variable {settings : Settings} {w : WorkingTree} {q : Request} {a : Answer} {kind : ModuleKind}

/-- The library that a request for the rust backend declares is called after the crate of the
version. -/
theorem isCalledAfter_of_answer (ha : q.answer settings w = .ok (some a))
    (hproduct : a.product = .library (q.placeholder kind)) (hb : q.backend = .rust) :
    ∃ l, kind = .memorySafeLibrary l
      ∧ l.IsCalledAfter (crateName (q.interface.versionedName q.version)) := by
  obtain ⟨sources, -, -, -, hblueprint⟩ := answer_eq_some_iff.1 ha
  simp only [blueprint, hb, MemorySafe.rust, Except.ok.injEq] at hblueprint
  obtain rfl := kind_of_product_eq (hblueprint.trans hproduct)
  exact ⟨_, rfl, rfl, rfl⟩

end Request

namespace Plan

variable {settings : Settings} {w : WorkingTree} {r : Registry} {p : Plan} {name name' : String}
  {m m' : Module} {l l' : MemorySafeLibrary}

/-- **Where the memory-safe libraries of a plan come from**: each is built for a version of an
interface, and is called after its crate. -/
theorem Realizes.exists_version_of_memorySafe (real : Realizes settings w r p)
    (hm : p.graph.module? name = some m) (hkind : m.kind = .memorySafeLibrary l) :
    ∃ i ∈ r.interfaces, ∃ version ∈ i.allVersions, name = i.versionedName version ++ "-rust"
      ∧ l.IsCalledAfter (crateName (i.versionedName version)) := by
  obtain ⟨q, hq, rfl, hsuits⟩ := real.exists_request_of_module hm (by simp [hkind])
  have hb : q.backend = .rust := ModuleKind.suits_memorySafeLibrary_iff.1 (hkind ▸ hsuits)
  have hne : q.backend ≠ .analyzer := by simp [hb]
  obtain ⟨hr, -⟩ := List.mem_filter.1 hq
  obtain ⟨a, kind, linked, injected, ha, hproduct, -, hlinked, hlibrary, -⟩ :=
    real.exists_completed hq hne
  obtain ⟨declared, rfl, hcalled⟩ := Request.isCalledAfter_of_answer ha hproduct hb
  rw [Request.moduleName_of_ne hne] at hm ⊢
  obtain rfl := Option.some.inj (hm.symm.trans hlibrary)
  cases hlinked.trans (congrArg some hkind)
  refine ⟨q.interface, (Registry.mem_requests_iff.1 hr).1, q.version,
    Registry.version_mem_of_mem_requests hr, ?_, hcalled.stem, hcalled.sourceStem⟩
  rw [Request.libraryName, hb, String.append_assoc]
  rfl

/-- The library of an emitted request for the rust backend. -/
theorem Realizes.exists_memorySafe (real : Realizes settings w r p) {q : Request}
    (hq : q ∈ r.emitted settings w) (hb : q.backend = .rust) :
    ∃ l, p.graph.module? q.libraryName = some ⟨q.libraryName, .memorySafeLibrary l⟩ := by
  obtain ⟨-, kind, -, -, hmodule, hsuits, -⟩ := real.isBuiltIn hq
  rw [Request.moduleName_of_ne (by simp [hb])] at hmodule
  rw [hb] at hsuits
  obtain ⟨l, rfl⟩ : ∃ l, kind = .memorySafeLibrary l := by
    cases kind with
    | memorySafeLibrary l => exact ⟨l, rfl⟩
    | _ => cases hsuits
  exact ⟨l, hmodule⟩

/-! ## Libraries with the same files -/

/-- **Which libraries share their files.** Two memory-safe libraries of a plan are written to the
same files exactly if they are built for versions that stand for the same crate, and these are
versions of different interfaces. -/
theorem shared_stem_iff (hp : ofRegistry settings w r = .ok p)
    (hm : p.graph.module? name = some m) (hkind : m.kind = .memorySafeLibrary l)
    (hm' : p.graph.module? name' = some m') (hkind' : m'.kind = .memorySafeLibrary l')
    (hne : name ≠ name') :
    ∃ i ∈ r.interfaces, ∃ v ∈ i.allVersions, ∃ j ∈ r.interfaces, ∃ w ∈ j.allVersions,
      name = i.versionedName v ++ "-rust" ∧ name' = j.versionedName w ++ "-rust"
        ∧ (l.stem = l'.stem ↔ i.name ≠ j.name ∧ SharesCrate i j v w)
        ∧ (l.sourceStem = l'.sourceStem ↔ i.name ≠ j.name ∧ SharesCrate i j v w) := by
  have real := realizes hp
  obtain ⟨i, hi, v, hv, rfl, hstem, hsource⟩ := real.exists_version_of_memorySafe hm hkind
  obtain ⟨j, hj, w, hw, rfl, hstem', hsource'⟩ := real.exists_version_of_memorySafe hm' hkind'
  have hcrate : crateName (i.versionedName v) = crateName (j.versionedName w) ↔
      i.name ≠ j.name ∧ SharesCrate i j v w := by
    rw [MemorySafe.crateName_eq_iff_sharesCrate (Registry.validateVersions_of_mem hi)
      (Registry.validateVersions_of_mem hj) hv hw, iff_and_self]
    -- Versions of one interface with the same crate are the same, and so are the libraries.
    intro hshares hname
    obtain rfl := Registry.eq_of_name_eq hi hj hname
    exact hne (by rw [hshares.version_eq])
  refine ⟨i, hi, v, hv, j, hj, w, hw, rfl, rfl, ?_, ?_⟩
  · rw [hstem, hstem', String.append_right_inj, hcrate]
  · rw [hsource, hsource', hcrate]

/-- Options under which only the rust backend is enabled. -/
def rustOnly : BackendOptions where
  cpp := { common := { enabled := some false } }
  ndk := { common := { enabled := some false } }
  java := { enabled := some false }
  rust := { enabled := some true }

/-- Two interfaces whose names differ in a character that crates have an underscore for, and an
unstable one that is called like the crate of a version of them. -/
def crateNamesakes : List Interface := [
  { name := "a.b", srcs := ["IFoo.aidl"], backend := rustOnly },
  { name := "a-b", srcs := ["IFoo.aidl"], backend := rustOnly },
  { name := "a_b_V1", unstable := true, srcs := ["IFoo.aidl"], backend := rustOnly }]

theorem exists_plan_of_crateNamesakes :
    ∃ p, ofRegistry {} ⟨∅, []⟩ (registryOf crateNamesakes) = .ok p
      ∧ ∀ name ∈ ["a.b-V1", "a-b-V1", "a_b_V1"], ∃ l,
          p.graph.module? (name ++ "-rust") = some ⟨name ++ "-rust", .memorySafeLibrary l⟩ := by
  have hok : (ofRegistry {} ⟨∅, []⟩ (registryOf crateNamesakes)).isOk = true := by decide +kernel
  obtain ⟨p, hp⟩ := Outcome.exists_ok_of_isOk hok
  have hemitted : ∀ name ∈ ["a.b-V1", "a-b-V1", "a_b_V1"],
      ∃ q ∈ (registryOf crateNamesakes).emitted {} ⟨∅, []⟩,
        q.backend = .rust ∧ q.libraryName = name ++ "-rust" := by
    decide +kernel
  refine ⟨p, hp, fun name hname => ?_⟩
  obtain ⟨q, hq, hb, hlibrary⟩ := hemitted name hname
  obtain ⟨l, hl⟩ := (realizes hp).exists_memorySafe hq hb
  exact ⟨l, hlibrary ▸ hl⟩

/-- A version and the only version of an unstable interface that is called like its crate. -/
theorem shared_stem_iff_of_namesakes :
    ∃ p, ofRegistry {} ⟨∅, []⟩ (registryOf crateNamesakes) = .ok p
      ∧ ∃ l l', p.graph.module? "a.b-V1-rust" = some ⟨"a.b-V1-rust", .memorySafeLibrary l⟩
        ∧ p.graph.module? "a_b_V1-rust" = some ⟨"a_b_V1-rust", .memorySafeLibrary l'⟩
        ∧ l.stem = l'.stem ∧ l.sourceStem = l'.sourceStem := by
  obtain ⟨p, hp, hall⟩ := exists_plan_of_crateNamesakes
  obtain ⟨l, hl⟩ := hall "a.b-V1" (by simp)
  obtain ⟨l', hl'⟩ := hall "a_b_V1" (by simp)
  obtain ⟨i, hi, v, hv, j, hj, w, hw, hname, hname', hstem, hsource⟩ :=
    shared_stem_iff hp hl rfl hl' rfl (by decide)
  have hstable : ∀ i ∈ (registryOf crateNamesakes).interfaces, ∀ v ∈ i.allVersions,
      "a.b-V1" ++ "-rust" = i.versionedName v ++ "-rust" → i.name = "a.b" ∧ v = "1" := by
    decide +kernel
  have hunstable : ∀ i ∈ (registryOf crateNamesakes).interfaces, ∀ v ∈ i.allVersions,
      "a_b_V1" ++ "-rust" = i.versionedName v ++ "-rust" → i.name = "a_b_V1" ∧ v = unversioned := by
    decide +kernel
  obtain ⟨hi, rfl⟩ := hstable i hi v hv hname
  obtain ⟨hj, rfl⟩ := hunstable j hj w hw hname'
  have hshares : i.name ≠ j.name ∧ SharesCrate i j "1" unversioned := by
    rw [hi, hj]
    refine ⟨by decide, .unversionedRight (by decide) ?_⟩
    rw [hi, hj]
    decide
  exact ⟨p, hp, l, l', hl, hl', hstem.2 hshares, hsource.2 hshares⟩

/-- **Different libraries may be written to the same files.** -/
theorem namesakes_share_stem : ∃ p, ofRegistry {} ⟨∅, []⟩ (registryOf crateNamesakes) = .ok p
    ∧ ∀ name ∈ ["a.b-V1", "a-b-V1", "a_b_V1"], ∃ l,
        p.graph.module? (name ++ "-rust") = some ⟨name ++ "-rust", .memorySafeLibrary l⟩
          ∧ l.stem = "liba_b_V1" ∧ l.sourceStem = "a_b_V1" := by
  obtain ⟨p, hp, hall⟩ := exists_plan_of_crateNamesakes
  have hcrate : ∀ name ∈ ["a.b-V1", "a-b-V1", "a_b_V1"], crateName name = "a_b_V1" := by decide
  refine ⟨p, hp, fun name hname => ?_⟩
  obtain ⟨l, hl⟩ := hall name hname
  obtain ⟨i, -, v, -, heq, hstem, hsource⟩ := (realizes hp).exists_version_of_memorySafe hl rfl
  rw [← (String.append_left_inj "-rust").1 heq, hcrate name hname] at hstem hsource
  exact ⟨l, hl, hstem, hsource⟩

end Plan

end InterfacePlan
