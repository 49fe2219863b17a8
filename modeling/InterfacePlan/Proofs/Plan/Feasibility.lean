import InterfacePlan.Proofs.Plan.Structure
/-!
# When a plan exists

Planning has five reasons to fail, each of which can be told from the declarations and the file
tree: sources that are not found, libraries of one name, imports of unknown interfaces, import
cycles, and imports of interfaces that do not enable a backend. There is no other one: in particular
modules never collide within one interface, and completing libraries only fails over imports.

## Main definitions

* `Plan.Feasible`: what planning needs

## Main results

* `Plan.exists_ofRegistry_iff`: planning succeeds exactly when it is feasible
-/

namespace InterfacePlan.Plan

open Relation (TransGen)

variable {settings : Settings} {w : WorkingTree} {r : Registry}

/-- **What planning needs.** -/
structure Feasible (settings : Settings) (w : WorkingTree) (r : Registry) : Prop where
  /-- The sources of every request are found. If there are any, a native library needs to know the
  version for the VNDK. -/
  selectable : ∀ q ∈ r.requests settings,
    ∃ sources, Sources.select settings w q.interface q.version = .ok sources
      ∧ (sources.isEmpty = false → q.backend = .cpp ∨ q.backend = .ndk →
          ∃ selected, q.interface.isForVndk q.version = .ok selected)
  /-- Libraries of different interfaces have different versioned names. -/
  distinct : ∀ p ∈ r.requests settings, ∀ q ∈ r.requests settings, p.interface ≠ q.interface →
    p.hasSources settings w = true → q.hasSources settings w = true →
    p.backend = q.backend → p.backend ≠ .analyzer →
    p.interface.versionedName p.version ≠ q.interface.versionedName q.version
  /-- Imports name registered interfaces. -/
  registered : ∀ i ∈ r.interfaces, ∀ version ∈ i.allVersions,
    ∀ reference ∈ i.importsFor version,
      ∃ imported, r.get? (Import.split reference).1 = some imported
  /-- No versioned name reaches itself through imports. -/
  acyclic : ¬∃ name, TransGen (Import.Imports r) name name
  /-- Imported interfaces enable the backend of the library. -/
  enabled : ∀ q ∈ r.requests settings, q.hasSources settings w = true → q.backend ≠ .analyzer →
    ∀ reference ∈ q.interface.importsFor q.version,
      ∀ imported, r.get? (Import.split reference).1 = some imported →
        imported.enables q.backend = true

/-! ## Names -/

/-- The names of answers to different requests are different. -/
theorem disjoint_names (hdistinct : ∀ p ∈ r.requests settings, ∀ q ∈ r.requests settings,
      p.interface ≠ q.interface → p.hasSources settings w = true → q.hasSources settings w = true →
      p.backend = q.backend → p.backend ≠ .analyzer →
      p.interface.versionedName p.version ≠ q.interface.versionedName q.version)
    {p q : Request} (hp : p ∈ r.requests settings) (hq : q ∈ r.requests settings) {a b : Answer}
    (ha : p.answer settings w = .ok (some a)) (hb : q.answer settings w = .ok (some b))
    {name : String} (hna : name ∈ a.names) (hnb : name ∈ b.names) : p = q := by
  obtain ⟨hpi, hpr⟩ := Registry.mem_requests_iff.1 hp
  obtain ⟨hqi, hqr⟩ := Registry.mem_requests_iff.1 hq
  obtain ⟨ks, -, hks⟩ := Request.names_of_answer ha
  obtain ⟨ls, -, hls⟩ := Request.names_of_answer hb
  rw [hks] at hna
  rw [hls] at hnb
  obtain ⟨k, -, rfl⟩ := List.mem_map.1 hna
  obtain ⟨l, -, hl⟩ := List.mem_map.1 hnb
  obtain ⟨hstem, hbackend, -⟩ := Request.nameOf_inj.1 hl
  -- The analyzer is named after its interface, and other libraries are not named like those of
  -- other interfaces.
  have hinterface : p.interface = q.interface := by
    by_contra hne
    by_cases hanalyzer : p.backend = .analyzer
    · rw [Request.stem_of_eq hanalyzer, Request.stem_of_eq (hbackend.trans hanalyzer)] at hstem
      exact hne (Registry.eq_of_name_eq hpi hqi hstem.symm)
    · have hanalyzer' : q.backend ≠ .analyzer := hbackend ▸ hanalyzer
      rw [Request.stem_of_ne hanalyzer, Request.stem_of_ne hanalyzer'] at hstem
      exact hdistinct p hp q hq hne (Request.hasSources_of_some ha) (Request.hasSources_of_some hb)
        hbackend.symm hanalyzer hstem.symm
  rw [hinterface] at hpr
  exact Interface.eq_of_stem_eq hpr hqr hstem.symm hbackend.symm

theorem Feasible.nodup_namesFor (feasible : Feasible settings w r) :
    (namesFor settings w (r.requests settings)).Nodup := by
  -- The names of one answer are different, and those of two answers have nothing in common.
  rw [namesFor, answersTo, List.flatMap_assoc, List.nodup_flatMap]
  constructor
  · intro q _
    cases hq : q.answers settings w with
    | nil => simp
    | cons a as =>
      have ha : q.answer settings w = .ok (some a) :=
        Request.mem_answers_iff.1 (hq ▸ List.mem_cons_self ..)
      rw [← hq, Request.answers_eq_singleton ha, List.flatMap_singleton]
      exact Request.nodup_names_of_answer ha
  · apply Registry.nodup_requests.pairwise_of_forall_ne
    intro p hp q hq hne name hna hnb
    apply hne
    obtain ⟨a, ha, hna⟩ := List.mem_flatMap.1 hna
    obtain ⟨b, hb, hnb⟩ := List.mem_flatMap.1 hnb
    exact disjoint_names feasible.distinct hp hq (Request.mem_answers_iff.1 ha)
      (Request.mem_answers_iff.1 hb) hna hnb

/-- An entry that two lists contribute to a list without duplicates comes from one of them. -/
theorem eq_of_mem_flatMap {α β : Type} {f : α → List β} {xs : List α} (hn : (xs.flatMap f).Nodup)
    {x y : α} (hx : x ∈ xs) (hy : y ∈ xs) {b : β} (hbx : b ∈ f x) (hby : b ∈ f y) : x = y := by
  induction xs with
  | nil => simp at hx
  | cons z zs ih =>
    rw [List.flatMap_cons, List.nodup_append] at hn
    obtain ⟨-, hzs, hdisjoint⟩ := hn
    rcases List.mem_cons.1 hx with rfl | hxs <;> rcases List.mem_cons.1 hy with rfl | hys
    · rfl
    · exact absurd rfl (hdisjoint b hbx b (List.mem_flatMap.2 ⟨y, hys, hby⟩))
    · exact absurd rfl (hdisjoint b hby b (List.mem_flatMap.2 ⟨x, hxs, hbx⟩))
    · exact ih hzs hxs hys

theorem Realizes.eq_of_source_eq {plan : Plan} (real : Realizes settings w r plan) {p q : Request}
    (hp : p ∈ r.requests settings) (hq : q ∈ r.requests settings) {a b : Answer}
    (ha : p.answer settings w = .ok (some a)) (hb : q.answer settings w = .ok (some b))
    (hname : a.source.name = b.source.name) : p = q := by
  have hn := (List.nodup_append.1 real.holds.nodup).1
  rw [List.map_flatMap, answersTo, List.flatMap_assoc] at hn
  have hmem : ∀ {q : Request} {a : Answer}, q.answer settings w = .ok (some a) →
      a.source.name ∈ (q.answers settings w).flatMap fun a =>
        (a.builtModules r).map (·.name) := by
    intro q a ha
    rw [Request.answers_eq_singleton ha, List.flatMap_singleton]
    exact List.mem_map.2 ⟨a.source, List.mem_append_right _ a.source_mem_modules, rfl⟩
  apply eq_of_mem_flatMap hn hp hq (hmem ha)
  rw [hname]
  exact hmem hb

/-! ## Completion -/

/-- A request that has an answer can be completed when its imports can be linked. -/
theorem completed_iff {q : Request} (hq : q ∈ r.requests settings) {a : Answer}
    (ha : q.answer settings w = .ok (some a)) :
    (∀ p ∈ a.placeholders, ∃ m, p.completed r = .ok m) ↔
      (q.backend ≠ .analyzer → ∀ reference ∈ q.interface.importsFor q.version,
        ∃ imported, r.get? (Import.split reference).1 = some imported
          ∧ imported.enables q.backend = true) := by
  obtain ⟨hi, -⟩ := Registry.mem_requests_iff.1 hq
  by_cases hb : q.backend = .analyzer
  · obtain ⟨kind, hproduct, -⟩ := Request.tool_of_answer ha hb
    simp [Answer.placeholders, hproduct, hb]
  · obtain ⟨kind, hproduct, hsuits, -⟩ := Request.library_of_answer ha hb
    rw [← Request.exists_importedLibraries_iff hi (Registry.version_mem_of_mem_requests hq)]
    simp only [Answer.placeholders, hproduct, List.mem_singleton, forall_eq, hb, ne_eq,
      not_false_eq_true, forall_const]
    constructor
    · rintro ⟨m, hm⟩
      obtain ⟨libraries, -, hlibraries, -⟩ := Placeholder.completed_eq_ok_iff.1 hm
      exact ⟨libraries, hlibraries⟩
    · rintro ⟨libraries, hlibraries⟩
      obtain ⟨linked, hlinked⟩ := ModuleKind.exists_linking? hsuits hb
      exact ⟨_, Placeholder.completed_eq_ok_iff.2 ⟨libraries, linked, hlibraries, hlinked, rfl⟩⟩

/-! ## Planning -/

theorem feasible_of_ofRegistry {plan : Plan} (hplan : ofRegistry settings w r = .ok plan) :
    Feasible settings w r := by
  have real := realizes hplan
  obtain ⟨-, -, hcycles, -, -⟩ := ofRegistry_eq_ok_iff.1 hplan
  obtain ⟨hregistered, hacyclic⟩ := Import.checkCycles_eq_ok_iff.1 hcycles
  refine ⟨?_, ?_, ?_, hacyclic, ?_⟩
  · intro q hq
    exact Request.exists_answer_iff.1 (real.answered q hq)
  · intro p hp q hq hne hps hqs hbackend hanalyzer hversioned
    obtain ⟨a, ha⟩ := Request.exists_answer_of_hasSources (real.answered p hp) hps
    obtain ⟨b, hb⟩ := Request.exists_answer_of_hasSources (real.answered q hq) hqs
    have hstem : p.stem = q.stem := by
      rw [Request.stem_of_ne hanalyzer, Request.stem_of_ne (hbackend ▸ hanalyzer), hversioned]
    have hname : a.source.name = b.source.name := by
      rw [Request.source_name_of_answer ha, Request.source_name_of_answer hb, Request.nameOf_inj]
      exact ⟨hstem, hbackend, rfl⟩
    exact hne (congrArg Request.interface (real.eq_of_source_eq hp hq ha hb hname))
  · intro i hi version hversion
    rw [← Interface.buildVersions_eq_allVersions (Registry.validateVersions_of_mem hi)] at hversion
    exact hregistered i hi version hversion
  · intro q hq hqs hanalyzer reference hreference imported himported
    obtain ⟨a, ha⟩ := Request.exists_answer_of_hasSources (real.answered q hq) hqs
    have hcompleted := (completed_iff hq ha).1
      (real.completed a (mem_answersTo_iff.2 ⟨q, hq, ha⟩)) hanalyzer reference hreference
    obtain ⟨other, hother, henables⟩ := hcompleted
    obtain rfl := Option.some.inj (himported.symm.trans hother)
    exact henables

theorem Feasible.exists_ofRegistry (feasible : Feasible settings w r) :
    ∃ plan, ofRegistry settings w r = .ok plan := by
  have hanswered : ∀ q ∈ r.requests settings, ∃ o, q.answer settings w = .ok o := fun q hq =>
    Request.exists_answer_iff.2 (feasible.selectable q hq)
  have hnames := feasible.nodup_namesFor
  obtain ⟨d, hd⟩ := exists_gather hanswered hnames
  have hold := (AccountsFor.gather hd).holds
  rw [flatMap_implementations_eq] at hold
  have hcycles : Import.checkCycles r = .ok () := by
    refine Import.checkCycles_eq_ok_iff.2 ⟨fun i hi version hversion => ?_, feasible.acyclic⟩
    exact feasible.registered i hi version (Interface.mem_allVersions_of_mem_buildVersions hversion)
  have hfailure : (d.graph.completeAll r).failure? = none := by
    refine hold.completeAll_failure? (fun p hp => ?_) ?_
    · obtain ⟨a, ha, hp⟩ := List.mem_flatMap.1 hp
      obtain ⟨q, hq, hanswer⟩ := mem_answersTo_iff.1 ha
      refine (completed_iff hq hanswer).2 (fun hanalyzer reference hreference => ?_) p hp
      obtain ⟨imported, himported⟩ := feasible.registered q.interface
        (Registry.mem_requests_iff.1 hq).1 q.version (Registry.version_mem_of_mem_requests hq)
        reference hreference
      exact ⟨imported, himported, feasible.enabled q hq (Request.hasSources_of_some hanswer)
        hanalyzer reference hreference imported himported⟩
    · rw [← flatMap_implementations_eq]
      exact (Answer.flatMap_names_perm _).nodup_iff.1 hnames
  exact ⟨_, ofRegistry_eq_ok_iff.2 ⟨d, hd, hcycles, hfailure, rfl⟩⟩

/-- **When a plan exists**: exactly when planning is feasible. -/
theorem exists_ofRegistry_iff (settings : Settings) (w : WorkingTree) (r : Registry) :
    (∃ plan, ofRegistry settings w r = .ok plan) ↔ Feasible settings w r := by
  constructor
  · rintro ⟨plan, hplan⟩
    exact feasible_of_ofRegistry hplan
  · intro feasible
    exact feasible.exists_ofRegistry

end InterfacePlan.Plan
