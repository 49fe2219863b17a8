import InterfacePlan.Proofs.Plan.Structure
/-!
# Accounting for requests

In a plan, every request is either listed as skipped, or has a source generator and a library that
is built from it. There is nothing else in a plan.

## Main definitions

* `Registry.emitted`: the requests that are not skipped
* `Request.moduleName`: the name of the library or tool that answers a request
* `Request.IsBuiltIn`: the modules that answer a request

## Main results

* `Plan.accounts_for_requests`: what a plan consists of, request by request
-/

namespace InterfacePlan

/-- The requests that are not skipped. -/
def Registry.emitted (settings : Settings) (w : WorkingTree) (r : Registry) : List Request :=
  (r.requests settings).filter fun q => !q.lacksSources settings w

theorem Registry.mem_emitted_of_answer {settings : Settings} {w : WorkingTree} {r : Registry}
    {q : Request} {a : Answer} (hq : q ∈ r.requests settings)
    (ha : q.answer settings w = .ok (some a)) : q ∈ r.emitted settings w :=
  List.mem_filter.2 ⟨hq, by simp [Request.lacksSources_of_some ha]⟩

theorem Registry.exists_answer_of_emitted {settings : Settings} {w : WorkingTree} {r : Registry}
    (hanswered : ∀ q ∈ r.requests settings, ∃ o, q.answer settings w = .ok o) {q : Request}
    (hq : q ∈ r.emitted settings w) :
    q ∈ r.requests settings ∧ ∃ a, q.answer settings w = .ok (some a) := by
  obtain ⟨hq, hsources⟩ := List.mem_filter.1 hq
  refine ⟨hq, ?_⟩
  obtain ⟨_ | a, ha⟩ := hanswered q hq
  · simp [Request.lacksSources_iff.2 ha] at hsources
  · exact ⟨a, ha⟩

namespace Request

/-- The name of the library or tool that answers a request. -/
def moduleName (q : Request) : String :=
  if q.backend = .analyzer then Native.analyzerName q.interface else q.libraryName

theorem moduleName_of_ne {q : Request} (hb : q.backend ≠ .analyzer) :
    q.moduleName = q.libraryName :=
  if_neg hb

theorem moduleName_eq (q : Request) : q.moduleName = q.nameOf .library := by
  unfold moduleName
  split
  case isTrue hb => exact analyzerName_eq hb
  case isFalse hb => exact libraryName_eq hb

/-- **A graph with the modules that answer a request**: a source generator for its backend, and a
library of the kind that its backend builds, from the sources of this generator alone. -/
def IsBuiltIn (g : ModuleGraph) (q : Request) : Prop :=
  ∃ (s : SourceGenerator) (kind : ModuleKind),
    g.module? q.generatorName = some ⟨q.generatorName, .sourceGenerator s⟩
      ∧ s.lang = some q.backend
      ∧ g.module? q.moduleName = some ⟨q.moduleName, kind⟩
      ∧ kind.suits q.backend = true ∧ kind.IsBuiltFrom q.generatorName

theorem skipped_inj {r : Registry} {settings : Settings} {p q : Request}
    (hp : p ∈ r.requests settings) (hq : q ∈ r.requests settings) (h : p.skipped = q.skipped) :
    p = q := by
  obtain ⟨hpi, hpr⟩ := Registry.mem_requests_iff.1 hp
  obtain ⟨hqi, hqr⟩ := Registry.mem_requests_iff.1 hq
  have hinterface : p.interface = q.interface :=
    Registry.eq_of_name_eq hpi hqi (congrArg SkippedRequest.interface h)
  have hbackend : p.backend = q.backend := congrArg SkippedRequest.backend h
  have hversion : p.version = q.version := congrArg SkippedRequest.version h
  have hstem : p.stem = q.stem := by
    rw [stem, stem, hinterface, hbackend, hversion]
  rw [hinterface] at hpr
  exact Interface.eq_of_stem_eq hpr hqr hstem hbackend

/-- The modules that an answer contributes to a plan. -/
theorem builtModules_of_answer {settings : Settings} {w : WorkingTree} {r : Registry} {q : Request}
    {a : Answer} (ha : q.answer settings w = .ok (some a))
    (hcompleted : ∀ p ∈ a.placeholders, ∃ m, p.completed r = .ok m) :
    ∃ kind : ModuleKind, a.builtModules r = [⟨q.moduleName, kind⟩, a.source]
      ∧ kind.suits q.backend = true ∧ kind.IsBuiltFrom q.generatorName := by
  rw [moduleName_eq, generatorName_eq]
  by_cases hb : q.backend = .analyzer
  · obtain ⟨kind, hproduct, hsuits, hsource⟩ := tool_of_answer ha hb
    refine ⟨kind, ?_, hsuits, hsource⟩
    simp [Answer.builtModules, Answer.placeholders, Answer.modules, hproduct]
  · obtain ⟨kind, hproduct, hsuits, hsource⟩ := library_of_answer ha hb
    simp only [Answer.placeholders, hproduct, List.mem_singleton, forall_eq] at hcompleted
    obtain ⟨m, hm⟩ := hcompleted
    obtain ⟨libraries, linked, -, hlinked, rfl⟩ := Placeholder.completed_eq_ok_iff.1 hm
    refine ⟨linked, ?_, ModuleKind.suits_of_linking? hlinked hsuits,
      ModuleKind.isBuiltFrom_of_linking? hlinked hsource⟩
    simp [Answer.builtModules, Answer.placeholders, Answer.modules, hproduct,
      Placeholder.completedModules_eq hm, placeholder_library_name_eq hb]

end Request

namespace Plan

variable {settings : Settings} {w : WorkingTree} {r : Registry} {p : Plan}

/-! ## Emitted requests -/

theorem Realizes.exists_answer_of_emitted (real : Realizes settings w r p) {q : Request}
    (hq : q ∈ r.emitted settings w) :
    q ∈ r.requests settings ∧ ∃ a, q.answer settings w = .ok (some a) :=
  Registry.exists_answer_of_emitted real.answered hq

/-- The modules of an answer stand in the plan as they are. -/
theorem Realizes.module?_of_answer (real : Realizes settings w r p) {q : Request} {a : Answer}
    (hq : q ∈ r.requests settings) (ha : q.answer settings w = .ok (some a)) {m : Module}
    (hm : m ∈ a.modules) : p.graph.module? m.name = some m := by
  refine (real.holds.module?_iff _ _).2 ⟨List.mem_flatMap.2 ⟨a, ?_, ?_⟩, rfl⟩
  · exact mem_answersTo_iff.2 ⟨q, hq, ha⟩
  · exact List.mem_append_right _ hm

/-- The source generator of an answer stands in the plan as it is. -/
theorem Realizes.generator_of_answer (real : Realizes settings w r p) {q : Request} {a : Answer}
    (hq : q ∈ r.requests settings) (ha : q.answer settings w = .ok (some a)) :
    p.graph.module? q.generatorName = some a.source := by
  rw [Request.generatorName_eq, ← Request.source_name_of_answer ha]
  exact real.module?_of_answer hq ha a.source_mem_modules

/-- The answers to all requests are those to the emitted ones. -/
theorem answersTo_emitted (qs : List Request) :
    answersTo settings w (qs.filter fun q => !q.lacksSources settings w)
      = answersTo settings w qs := by
  unfold answersTo
  induction qs with
  | nil => rfl
  | cons q qs ih =>
    rw [List.filter_cons, List.flatMap_cons, ← ih]
    by_cases hq : q.lacksSources settings w = true
    · rw [hq, Request.answers_eq_nil (Request.lacksSources_iff.1 hq)]
      rfl
    · rw [Bool.not_eq_true] at hq
      rw [hq]
      rfl

/-- What an answer contributes to a plan is in the plan. -/
theorem Realizes.isBuiltIn (real : Realizes settings w r p) {q : Request}
    (hq : q ∈ r.emitted settings w) : q.IsBuiltIn p.graph := by
  obtain ⟨hr, a, ha⟩ := real.exists_answer_of_emitted hq
  have hmem : a ∈ answersTo settings w (r.requests settings) := mem_answersTo_iff.2 ⟨q, hr, ha⟩
  obtain ⟨kind, hbuilt, hsuits, hsource⟩ :=
    Request.builtModules_of_answer ha (real.completed a hmem)
  obtain ⟨s, hs, hlang, -⟩ := Request.source_of_answer ha
  have hgraph : ∀ m ∈ a.builtModules r, p.graph.module? m.name = some m := fun m hm =>
    (real.holds.module?_iff m.name m).2 ⟨List.mem_flatMap.2 ⟨a, hmem, hm⟩, rfl⟩
  rw [hbuilt, hs, ← Request.generatorName_eq] at hgraph
  exact ⟨s, kind, hgraph ⟨q.generatorName, .sourceGenerator s⟩ (by simp), hlang,
    hgraph ⟨q.moduleName, kind⟩ (by simp), hsuits, hsource⟩

/-- The modules of a plan are those of the emitted requests. -/
theorem Realizes.keys_perm (real : Realizes settings w r p) : p.graph.modules.keys.Perm
    ((r.emitted settings w).flatMap fun q => [q.generatorName, q.moduleName]) := by
  have hkeys : p.graph.modules.keys.Perm
      ((r.emitted settings w).flatMap fun q => (q.answers settings w).flatMap fun a =>
        (a.builtModules r).map (·.name)) := by
    have h := (real.holds.modules_perm).map (·.1)
    rw [← answersTo_emitted, List.map_map, answersTo, List.flatMap_assoc, List.map_flatMap] at h
    exact h.trans (.of_eq (List.flatMap_congr fun q _ => List.map_flatMap ..))
  refine hkeys.trans (List.Perm.flatMap_left _ fun q hq => ?_)
  obtain ⟨hr, a, ha⟩ := real.exists_answer_of_emitted hq
  obtain ⟨kind, hbuilt, -⟩ := Request.builtModules_of_answer ha
    (real.completed a (mem_answersTo_iff.2 ⟨q, hr, ha⟩))
  rw [Request.answers_eq_singleton ha, List.flatMap_singleton, hbuilt, Request.generatorName_eq,
    ← Request.source_name_of_answer ha]
  exact .swap ..

/-- **Where the libraries and tools of a plan come from.** -/
theorem Realizes.exists_request_of_module (real : Realizes settings w r p) {name : String}
    {m : Module} (hm : p.graph.module? name = some m) (hkind : ∀ s, m.kind ≠ .sourceGenerator s) :
    ∃ q ∈ r.emitted settings w, name = q.moduleName ∧ m.kind.suits q.backend = true := by
  have hkey : name ∈ p.graph.modules.keys :=
    List.mem_map.2 ⟨(name, m), SortedMap.mem_toList_iff.2 hm, rfl⟩
  obtain ⟨q, hq, hname⟩ := List.mem_flatMap.1 (real.keys_perm.mem_iff.1 hkey)
  obtain ⟨s, kind, hgenerator, -, hmodule, hsuits, -⟩ := real.isBuiltIn hq
  rcases List.mem_pair.1 hname with rfl | rfl
  · obtain rfl := Option.some.inj (hm.symm.trans hgenerator)
    exact absurd rfl (hkind s)
  · obtain rfl := Option.some.inj (hm.symm.trans hmodule)
    exact ⟨q, hq, rfl, hsuits⟩

/-- The implementations of a plan are those of the emitted requests, and are finished. -/
theorem Realizes.state?_iff (real : Realizes settings w r p) {name : String} {i : Implementation} :
    p.graph.state? name = some i ↔ ∃ q ∈ r.emitted settings w, q.backend ≠ .analyzer
      ∧ name = q.libraryName ++ "-generator" ∧ i = .finished q.libraryName := by
  rw [real.holds.state?_iff, ← answersTo_emitted, List.mem_flatMap]
  constructor
  · rintro ⟨a, ha, hi⟩
    obtain ⟨q, hq, ha⟩ := mem_answersTo_iff.1 ha
    by_cases hb : q.backend = .analyzer
    · obtain ⟨kind, hproduct, -⟩ := Request.tool_of_answer ha hb
      simp [Answer.finishedImplementations, Answer.placeholders, hproduct] at hi
    · obtain ⟨kind, hproduct, -⟩ := Request.library_of_answer ha hb
      simp only [Answer.finishedImplementations, Answer.placeholders, hproduct, List.map_cons,
        List.map_nil, List.mem_singleton] at hi
      obtain ⟨rfl, rfl⟩ := Prod.mk.inj hi
      exact ⟨q, hq, hb, rfl, rfl⟩
  · rintro ⟨q, hq, hb, rfl, rfl⟩
    obtain ⟨-, a, ha⟩ := real.exists_answer_of_emitted hq
    obtain ⟨kind, hproduct, -⟩ := Request.library_of_answer ha hb
    refine ⟨a, mem_answersTo_iff.2 ⟨q, hq, ha⟩, ?_⟩
    simp only [Answer.finishedImplementations, Answer.placeholders, hproduct]
    exact List.mem_singleton.2 rfl

theorem Realizes.isComplete (real : Realizes settings w r p) : p.graph.isComplete = true := by
  rw [ModuleGraph.isComplete, SortedMap.values, List.all_map, List.all_eq_true]
  rintro ⟨name, i⟩ he
  obtain ⟨q, -, -, -, rfl⟩ := real.state?_iff.1 (SortedMap.mem_toList_iff.1 he)
  rfl

/-! ## Accounting -/

/-- **What a plan consists of, request by request.** The requests without sources are listed as
skipped, in order and once each. For every other request there are a source generator and a library
that is built from it, under names that are all different, and the library has an implementation
that is finished, unless it is the tool for the analyzer. There are no other modules or
implementations. -/
theorem accounts_for_requests (hp : ofRegistry settings w r = .ok p) :
    p.skipped = ((r.requests settings).filter (Request.lacksSources settings w)).map Request.skipped
      ∧ p.skipped.Nodup
      ∧ p.graph.isComplete = true
      ∧ p.graph.modules.keys.Perm
          ((r.emitted settings w).flatMap fun q => [q.generatorName, q.moduleName])
      ∧ ((r.emitted settings w).flatMap fun q => [q.generatorName, q.moduleName]).Nodup
      ∧ (∀ q ∈ r.emitted settings w, q.IsBuiltIn p.graph)
      ∧ ∀ name i, p.graph.state? name = some i ↔
          ∃ q ∈ r.emitted settings w, q.backend ≠ .analyzer
            ∧ name = q.libraryName ++ "-generator" ∧ i = .finished q.libraryName := by
  have real := realizes hp
  have hkeys := real.keys_perm
  refine ⟨real.skipped_eq, ?_, real.isComplete, hkeys, hkeys.nodup_iff.1 (SortedMap.nodup_keys _),
    fun q hq => real.isBuiltIn hq, fun name i => real.state?_iff⟩
  rw [real.skipped_eq]
  -- Different requests leave different records, and no request is made twice.
  refine List.Nodup.map_on ?_ (Registry.nodup_requests.filter _)
  intro q hq q' hq' h
  exact Request.skipped_inj (List.mem_filter.1 hq).1 (List.mem_filter.1 hq').1 h

/-- The registry of interfaces that are known to be well formed, as in examples. -/
def registryOf (is : List Interface) : Registry :=
  match Registry.ofList is with
  | .ok r => r
  | .error _ => ∅

/-- Options under which only the cpp backend is enabled, with the analyzer. -/
def cppOnly : BackendOptions where
  cpp := { analyzer := true }
  ndk := { common := { enabled := some false } }
  java := { enabled := some false }

/-- An interface with a frozen version, which imports one that is unstable. -/
def sampleInterfaces : List Interface := [
  { name := "foo", versions := ["1"], imports := ["bar"], srcs := ["Foo.aidl"]
    backend := cppOnly },
  { name := "bar", unstable := true, srcs := ["Bar.aidl"], backend := cppOnly }]

/-- A file tree in which the snapshot of the frozen version is still empty. -/
def sampleTree : WorkingTree := ⟨FileTree.addDirectory ∅ ["aidl_api", "foo", "1"], []⟩

theorem accounts_for_sample_requests :
    ∃ p, ofRegistry {} sampleTree (registryOf sampleInterfaces) = .ok p
      ∧ p.skipped = [⟨"foo", "1", .cpp, "foo-V1-cpp"⟩]
      ∧ p.graph.modules.keys.Perm [
          "bar-cpp-source", "bar-cpp", "bar-cpp-analyzer-source", "bar-cpp-analyzer",
          "foo-V2-cpp-source", "foo-V2-cpp", "foo-cpp-analyzer-source", "foo-cpp-analyzer"] := by
  have hok : (ofRegistry {} sampleTree (registryOf sampleInterfaces)).isOk = true := by
    decide +kernel
  obtain ⟨p, hp⟩ := Outcome.exists_ok_of_isOk hok
  obtain ⟨hskipped, -, -, hkeys, -⟩ := accounts_for_requests hp
  refine ⟨p, hp, ?_, ?_⟩
  · rw [hskipped]
    decide +kernel
  · refine hkeys.trans (.of_eq ?_)
    decide +kernel

end Plan

end InterfacePlan
