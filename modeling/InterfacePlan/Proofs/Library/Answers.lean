import InterfacePlan.Library.Completion
import InterfacePlan.Proofs.Library.Names
import InterfacePlan.Proofs.ModuleGraph.Contents
/-!
# Answers to requests

A request without sources has no answer. Every other one is answered by a source generator for its
backend, and by one product: the analyzer is a tool, and all others are libraries of the kind that
their backend builds from these sources.

## Main definitions

* `Answer`: a source generator and a product
* `Request.answer`: the answer to a request, apart from the graph that it is entered in
* `ModuleKind.suits`, `ModuleKind.IsBuiltFrom`: the backend and the sources of a library

## Main results

* `Request.exists_answer_iff`: which requests can be answered
* `Request.tool_of_product`, `Request.library_of_product`: what the product of an answer is
* `ModuleGraph.dispatch_eq_ok_iff`: a request is dispatched by entering its answer
-/

namespace InterfacePlan

/-! ## Libraries and their sources -/

namespace ModuleKind

/-- Whether modules of a kind are what a backend builds. -/
def suits : ModuleKind → Backend → Bool
  | nativeLibrary _, .cpp | nativeLibrary _, .ndk => true
  | managedLibrary _, .java | memorySafeLibrary _, .rust | analyzerBinary _, .analyzer => true
  | _, _ => false

/-- **A module that is built from the sources of one source generator.** A managed library refers to
it as to a file. -/
def IsBuiltFrom (source : String) : ModuleKind → Prop
  | sourceGenerator _ => False
  | nativeLibrary p | analyzerBinary p =>
    p.generatedSources = [source] ∧ p.generatedHeaders = [source]
      ∧ p.exportGeneratedHeaders = [source]
  | managedLibrary p => p.srcs = [":" ++ source]
  | memorySafeLibrary p => p.sourceGen = source

/-- The libraries that a module links already before it is completed. -/
def declaredDependencies : ModuleKind → List String
  | nativeLibrary p | analyzerBinary p => p.sharedLibs
  | sourceGenerator _ | managedLibrary _ | memorySafeLibrary _ => []

variable {kind linked : ModuleKind} {backend : Backend} {source : String} {libraries : List String}

/-- Libraries of all backends but the analyzer can link imports. -/
theorem exists_linking? (hs : kind.suits backend = true) (hb : backend ≠ .analyzer) :
    ∃ linked, kind.linking? libraries = some linked := by
  cases kind <;> cases backend <;> simp_all [suits, linking?]

/-- Memory-safe libraries are what the rust backend builds, and no other one. -/
theorem suits_memorySafeLibrary_iff {p : MemorySafeLibrary} :
    (memorySafeLibrary p).suits backend = true ↔ backend = .rust := by
  cases backend <;> simp [suits]

/-- Tools are what the analyzer builds, and no other backend. -/
theorem suits_analyzerBinary_iff {p : NativeBinary} :
    (analyzerBinary p).suits backend = true ↔ backend = .analyzer := by
  cases backend <;> simp [suits]

theorem suits_of_linking? (hl : kind.linking? libraries = some linked)
    (hs : kind.suits backend = true) : linked.suits backend = true := by
  cases kind <;> cases hl <;> cases backend <;> exact hs

theorem isBuiltFrom_of_linking? (hl : kind.linking? libraries = some linked)
    (hs : kind.IsBuiltFrom source) : linked.IsBuiltFrom source := by
  cases kind <;> cases hl <;> exact hs

/-- **The libraries that a library links once imports are linked**: its own ones, and then the
imported ones. -/
theorem dependencies_of_linking? (hl : kind.linking? libraries = some linked) :
    linked.dependencies = kind.declaredDependencies ++ libraries := by
  cases kind <;> cases hl <;> rfl

end ModuleKind

/-! ## Answers -/

/-- What a graph holds for a placeholder that is declared. -/
def Placeholder.declaredEntry (p : Placeholder) : String × Implementation := (p.name, .declared p)

/-- **An answer to a request.** -/
structure Answer where
  source : Module
  product : Product

namespace Answer

/-- The modules that enter the graph with an answer. -/
def modules (a : Answer) : List Module :=
  match a.product with
  | .library _ => [a.source]
  | .tool m => [m, a.source]

theorem source_mem_modules (a : Answer) : a.source ∈ a.modules := by
  unfold modules
  cases a.product <;> simp

/-- The placeholders that enter the graph with an answer. -/
def placeholders (a : Answer) : List Placeholder :=
  match a.product with
  | .library p => [p]
  | .tool _ => []

/-- The implementations that enter the graph with an answer. -/
def implementations (a : Answer) : List (String × Implementation) :=
  a.placeholders.map Placeholder.declaredEntry

/-- **The names that an answer needs**: those that it enters, and that of the library that it is
going to be. -/
def names (a : Answer) : List String :=
  a.placeholders.map (·.library.name) ++ ModuleGraph.usedNames a.modules a.implementations

theorem names_of_library {a : Answer} {p : Placeholder} (h : a.product = .library p) :
    a.names = [p.library.name, a.source.name, p.name] := by
  simp [names, modules, implementations, placeholders, h, ModuleGraph.usedNames,
    Placeholder.declaredEntry]

theorem names_of_tool {a : Answer} {m : Module} (h : a.product = .tool m) :
    a.names = [m.name, a.source.name] := by
  simp [names, modules, implementations, placeholders, h, ModuleGraph.usedNames]

/-- The names that answers need together. -/
theorem flatMap_names_perm (as : List Answer) :
    (as.flatMap names).Perm ((as.flatMap placeholders).map (·.library.name)
      ++ ModuleGraph.usedNames (as.flatMap modules) (as.flatMap implementations)) := by
  unfold names ModuleGraph.usedNames
  simp only [List.map_flatMap]
  apply (List.flatMap_append_perm _ _ _).symm.trans
  exact (List.flatMap_append_perm _ _ _).symm.append_left _

end Answer

namespace Request

variable {settings : Settings} {w : WorkingTree} {q : Request} {a : Answer}

/-- **The answer to a request**, or nothing if there are no sources to generate from. -/
def answer (settings : Settings) (w : WorkingTree) (q : Request) :
    Except PlanError (Option Answer) := do
  let sources ← Sources.select settings w q.interface q.version
  if sources.isEmpty then return none
  let blueprint := q.blueprint settings sources
  let product ← blueprint.product
  return some ⟨blueprint.source, product⟩

theorem answer_eq_none_iff : q.answer settings w = .ok none ↔
    ∃ sources, Sources.select settings w q.interface q.version = .ok sources
      ∧ sources.isEmpty = true := by
  rw [answer, Outcome.bind_eq_ok_iff]
  refine exists_congr fun sources => and_congr_right fun _ => ?_
  by_cases hs : sources.isEmpty = true
  · simp [hs]
  · simp [hs, Outcome.bind_eq_ok_iff]

theorem answer_eq_some_iff : q.answer settings w = .ok (some a) ↔
    ∃ sources, Sources.select settings w q.interface q.version = .ok sources
      ∧ sources.isEmpty = false ∧ (q.blueprint settings sources).source = a.source
      ∧ (q.blueprint settings sources).product = .ok a.product := by
  rw [answer, Outcome.bind_eq_ok_iff]
  refine exists_congr fun sources => and_congr_right fun _ => ?_
  by_cases hs : sources.isEmpty = true
  · simp [hs]
  · obtain ⟨source, product⟩ := a
    simp [hs, Outcome.bind_eq_ok_iff, and_comm]

/-! ## Which requests can be answered -/

theorem exists_vndkOverride_iff {i : Interface} {version : String} :
    (∃ layer, Native.vndkOverride i version = .ok layer) ↔
      ∃ selected, i.isForVndk version = .ok selected := by
  simp only [Native.vndkOverride, Outcome.map_eq_ok_iff]
  constructor
  · rintro ⟨_, selected, hs, -⟩
    exact ⟨selected, hs⟩
  · rintro ⟨selected, hs⟩
    exact ⟨_, selected, hs, rfl⟩

/-- A product exists, except that native libraries need to know the version for the VNDK. -/
theorem exists_product_iff {sources : Sources} :
    (∃ product, (q.blueprint settings sources).product = .ok product) ↔
      (q.backend = .cpp ∨ q.backend = .ndk →
        ∃ selected, q.interface.isForVndk q.version = .ok selected) := by
  rw [← exists_vndkOverride_iff]
  unfold blueprint
  cases q.backend <;>
    simp [Native.cpp, Native.ndk, Native.analyzer, Managed.java, MemorySafe.rust,
      Outcome.map_eq_ok_iff]

/-- **Which requests can be answered**: the sources have to be found, and a native library needs to
know the version for the VNDK. -/
theorem exists_answer_iff : (∃ o, q.answer settings w = .ok o) ↔
    ∃ sources, Sources.select settings w q.interface q.version = .ok sources
      ∧ (sources.isEmpty = false → q.backend = .cpp ∨ q.backend = .ndk →
          ∃ selected, q.interface.isForVndk q.version = .ok selected) := by
  rw [Option.exists, answer_eq_none_iff]
  constructor
  · rintro (⟨sources, hs, he⟩ | ⟨a, ha⟩)
    · exact ⟨sources, hs, fun h => absurd he (by simp [h])⟩
    · obtain ⟨sources, hs, he, -, hp⟩ := answer_eq_some_iff.1 ha
      exact ⟨sources, hs, fun _ => exists_product_iff.1 ⟨_, hp⟩⟩
  · rintro ⟨sources, hs, hp⟩
    by_cases he : sources.isEmpty = true
    · exact .inl ⟨sources, hs, he⟩
    · rw [Bool.not_eq_true] at he
      obtain ⟨product, hp⟩ := exists_product_iff.2 (hp he)
      exact .inr ⟨⟨_, product⟩, answer_eq_some_iff.2 ⟨sources, hs, he, rfl, hp⟩⟩

/-! ## What answers are -/

/-- A product tells the kind of its library. -/
theorem kind_of_product_eq {q' : Request} {kind kind' : ModuleKind}
    (h : Product.library (q.placeholder kind) = .library (q'.placeholder kind')) : kind = kind' :=
  congrArg (fun placeholder => placeholder.library.kind) (Product.library.inj h)

/-- **The product for the analyzer** is a tool. -/
theorem tool_of_product {sources : Sources} {product : Product} (hb : q.backend = .analyzer)
    (hproduct : (q.blueprint settings sources).product = .ok product) : ∃ kind : ModuleKind,
    product = .tool ⟨q.nameOf .library, kind⟩ ∧ kind.suits q.backend = true
      ∧ kind.IsBuiltFrom (q.nameOf .source) := by
  rw [← generatorName_eq, ← analyzerName_eq hb]
  simp only [blueprint, hb, Native.analyzer, Except.ok.injEq] at hproduct
  refine ⟨_, hproduct.symm, by rw [hb]; rfl, ?_⟩
  rw [generatorName, if_pos hb]
  exact ⟨rfl, rfl, rfl⟩

/-- **The product for every other backend** is a library that waits for its imports. -/
theorem library_of_product {sources : Sources} {product : Product} (hb : q.backend ≠ .analyzer)
    (hproduct : (q.blueprint settings sources).product = .ok product) : ∃ kind : ModuleKind,
    product = .library (q.placeholder kind) ∧ kind.suits q.backend = true
      ∧ kind.IsBuiltFrom (q.nameOf .source) := by
  rw [← generatorName_eq, generatorName, if_neg hb]
  unfold blueprint at hproduct
  cases hq : q.backend with
  | analyzer => contradiction
  | cpp =>
    simp only [hq, Native.cpp, Outcome.map_eq_ok_iff] at hproduct
    obtain ⟨layer, -, hproduct⟩ := hproduct
    exact ⟨_, hproduct.symm, rfl, rfl, rfl, rfl⟩
  | ndk =>
    simp only [hq, Native.ndk, Outcome.map_eq_ok_iff] at hproduct
    obtain ⟨layer, -, hproduct⟩ := hproduct
    exact ⟨_, hproduct.symm, rfl, rfl, rfl, rfl⟩
  | java =>
    simp only [hq, Managed.java, Except.ok.injEq] at hproduct
    exact ⟨_, hproduct.symm, rfl, rfl⟩
  | rust =>
    simp only [hq, MemorySafe.rust, Except.ok.injEq] at hproduct
    exact ⟨_, hproduct.symm, rfl, rfl⟩

/-- The names of a source generator and a product are names of different roles. -/
theorem names_of_product {sources : Sources} {product : Product}
    (hproduct : (q.blueprint settings sources).product = .ok product) :
    ∃ roles : List Role, roles.Nodup
      ∧ (Answer.mk (q.blueprint settings sources).source product).names = roles.map q.nameOf := by
  have hsource := blueprint_source_name settings q sources
  rw [generatorName_eq] at hsource
  by_cases hb : q.backend = .analyzer
  · obtain ⟨kind, rfl, -⟩ := tool_of_product hb hproduct
    refine ⟨[.library, .source], by decide, ?_⟩
    rw [Answer.names_of_tool rfl, hsource]
    rfl
  · obtain ⟨kind, rfl, -⟩ := library_of_product hb hproduct
    refine ⟨[.library, .source, .placeholder], by decide, ?_⟩
    rw [Answer.names_of_library rfl, hsource, placeholder_name_eq hb,
      placeholder_library_name_eq hb]
    rfl

theorem nodup_names_of_product {sources : Sources} {product : Product}
    (hproduct : (q.blueprint settings sources).product = .ok product) :
    (Answer.mk (q.blueprint settings sources).source product).names.Nodup := by
  obtain ⟨roles, hroles, hnames⟩ := names_of_product hproduct
  rw [hnames]
  exact hroles.map fun k l h => (nameOf_inj.1 h).2.2

variable (ha : q.answer settings w = .ok (some a))
include ha

/-- The source generator of an answer generates for the backend of the request. -/
theorem source_of_answer : ∃ s : SourceGenerator,
    a.source = ⟨q.nameOf .source, .sourceGenerator s⟩ ∧ s.lang = some q.backend
      ∧ s.imports = q.interface.importsFor q.version := by
  obtain ⟨sources, -, -, hsource, -⟩ := answer_eq_some_iff.1 ha
  rw [← generatorName_eq, ← blueprint_source_name settings q sources, ← hsource]
  unfold blueprint
  cases hq : q.backend <;> exact ⟨_, rfl, congrArg some hq, rfl⟩

theorem tool_of_answer (hb : q.backend = .analyzer) : ∃ kind : ModuleKind,
    a.product = .tool ⟨q.nameOf .library, kind⟩ ∧ kind.suits q.backend = true
      ∧ kind.IsBuiltFrom (q.nameOf .source) := by
  obtain ⟨sources, -, -, -, hproduct⟩ := answer_eq_some_iff.1 ha
  exact tool_of_product hb hproduct

theorem library_of_answer (hb : q.backend ≠ .analyzer) : ∃ kind : ModuleKind,
    a.product = .library (q.placeholder kind) ∧ kind.suits q.backend = true
      ∧ kind.IsBuiltFrom (q.nameOf .source) := by
  obtain ⟨sources, -, -, -, hproduct⟩ := answer_eq_some_iff.1 ha
  exact library_of_product hb hproduct

/-! ## The names of answers -/

theorem source_name_of_answer : a.source.name = q.nameOf .source := by
  obtain ⟨s, hsource, -⟩ := source_of_answer ha
  rw [hsource]

/-- The names of an answer are names of different roles. -/
theorem names_of_answer : ∃ roles : List Role, roles.Nodup ∧ a.names = roles.map q.nameOf := by
  obtain ⟨sources, -, -, hsource, hproduct⟩ := answer_eq_some_iff.1 ha
  obtain ⟨roles, hroles, hnames⟩ := names_of_product hproduct
  exact ⟨roles, hroles, by rwa [hsource] at hnames⟩

theorem nodup_names_of_answer : a.names.Nodup := by
  obtain ⟨sources, -, -, hsource, hproduct⟩ := answer_eq_some_iff.1 ha
  have hnames := nodup_names_of_product hproduct
  rwa [hsource] at hnames

end Request

/-! ## Entering answers -/

namespace ModuleGraph

variable {g h : ModuleGraph} {a : Answer} {ms : List Module} {is : List (String × Implementation)}

/-- Enter an answer in a graph. -/
def enter (g : ModuleGraph) (a : Answer) : Except PlanError ModuleGraph := do
  let g ← g.create a.source
  g.addProduct a.product

theorem tryAddProduct_cases (g : ModuleGraph) (product : Product) :
    (∃ h, g.addProduct product = .ok h ∧ g.tryAddProduct product = (h, .ok ()))
      ∨ ∃ e, g.addProduct product = .error e ∧ g.tryAddProduct product = (g, .error e) := by
  cases product with
  | library p => exact (g.isAtomic_tryDeclare p).afterStep_cases
  | tool m => exact g.tryCreate_cases m

theorem install_eq_ok_iff {b : Blueprint} {name : String} : g.install b = (h, .ok name) ↔
    ∃ product, b.product = .ok product ∧ g.enter ⟨b.source, product⟩ = .ok h
      ∧ product.name = name := by
  unfold install enter
  rcases g.tryCreate_cases b.source with ⟨k, hc, htry⟩ | ⟨e, hc, htry⟩
  · rw [htry]
    cases b.product with
    | error e => simp
    | ok product =>
      rcases k.tryAddProduct_cases product with ⟨l, hp, htry⟩ | ⟨e, hp, htry⟩ <;>
        simp [bind, Except.bind, hc, hp, htry]
  · simp [bind, Except.bind, hc, htry]

/-- **A request is dispatched by entering its answer**, if it has one. -/
theorem dispatch_eq_ok_iff {settings : Settings} {w : WorkingTree} {q : Request}
    {x : Option String} : g.dispatch settings w q = (h, .ok x) ↔
      (q.answer settings w = .ok none ∧ g = h ∧ x = none)
        ∨ ∃ a, q.answer settings w = .ok (some a) ∧ g.enter a = .ok h
          ∧ x = some a.product.name := by
  rw [Request.answer_eq_none_iff]
  simp only [Request.answer_eq_some_iff]
  unfold dispatch
  cases hs : Sources.select settings w q.interface q.version with
  | error e => simp
  | ok sources =>
    by_cases he : sources.isEmpty = true
    · simp only [he, if_true, Prod.mk.injEq, Except.ok.injEq, exists_eq_left', true_and,
        Bool.true_eq_false, false_and, exists_false, or_false, @eq_comm _ none]
    have hinstall := @install_eq_ok_iff g h (q.blueprint settings sources)
    simp only [he, Bool.false_eq_true, if_false, Except.ok.injEq, exists_eq_left', false_and,
      false_or]
    constructor
    · intro hd
      split at hd
      case h_1 => cases hd
      case h_2 k name hi =>
        obtain ⟨rfl, hx⟩ := Prod.mk.inj hd
        obtain ⟨product, hp, henter, rfl⟩ := hinstall.1 hi
        exact ⟨⟨_, product⟩, ⟨by simp, rfl, hp⟩, henter, (Except.ok.inj hx).symm⟩
    · rintro ⟨a, ⟨-, hsource, hp⟩, henter, rfl⟩
      rw [hinstall.2 ⟨a.product, hp, by rw [hsource]; exact henter, rfl⟩]

namespace Holds

variable (hold : g.Holds ms is)
include hold

/-- **What a graph holds after an answer was entered.** -/
theorem enter (he : g.enter a = .ok h) :
    h.Holds (a.modules ++ ms) (a.implementations ++ is) := by
  obtain ⟨k, hk, hp⟩ := Outcome.bind_eq_ok_iff.1 he
  unfold Answer.modules Answer.implementations Answer.placeholders
  cases hproduct : a.product with
  | library p =>
    rw [hproduct] at hp
    exact (hold.create hk).declare hp
  | tool m =>
    rw [hproduct] at hp
    exact (hold.create hk).create hp

/-- An answer can be entered if its names are different and free. -/
theorem exists_enter (hn : a.names.Nodup) (hfree : ∀ name ∈ a.names, name ∉ usedNames ms is) :
    ∃ h, g.enter a = .ok h := by
  cases hproduct : a.product with
  | library p =>
    rw [Answer.names_of_library hproduct] at hn hfree
    obtain ⟨k, hk⟩ := hold.exists_create_iff.2 (hfree a.source.name (by simp))
    have hp : ∃ h, k.declare p = .ok h := by
      rw [(hold.create hk).exists_declare_iff, usedNames_cons_left]
      grind
    obtain ⟨h, hh⟩ := hp
    exact ⟨h, Outcome.bind_eq_ok_iff.2 ⟨k, hk, by rw [hproduct]; exact hh⟩⟩
  | tool m =>
    rw [Answer.names_of_tool hproduct] at hn hfree
    obtain ⟨k, hk⟩ := hold.exists_create_iff.2 (hfree a.source.name (by simp))
    have hm : ∃ h, k.create m = .ok h := by
      rw [(hold.create hk).exists_create_iff, usedNames_cons_left]
      grind
    obtain ⟨h, hh⟩ := hm
    exact ⟨h, Outcome.bind_eq_ok_iff.2 ⟨k, hk, by rw [hproduct]; exact hh⟩⟩

end Holds

end ModuleGraph

end InterfacePlan
