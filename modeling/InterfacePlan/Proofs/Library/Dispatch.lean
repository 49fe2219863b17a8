import InterfacePlan.Proofs.Library.Answers
import InterfacePlan.Proofs.ModuleGraph.Growth
import InterfacePlan.Proofs.PlanError.Layers
/-!
# What dispatching leaves

A request writes to a graph twice: first the source generator, and then the product. Between the two
it may fail, because a native library does not know its version for the VNDK, or because a name is
used. So a failing request leaves either nothing or the source generator, and only a successful one
leaves a product. Whatever goes wrong, the error names the request.

## Main definitions

* `Request.Enters`: what a graph gains from a request that is answered
* `Request.FailsWith`: where a request fails, and what it leaves

## Main results

* `ModuleGraph.install_eq_error_iff`, `ModuleGraph.dispatch_eq_error_iff`: the ways to fail
* `ModuleGraph.dispatch_outcome`: what a request leaves of any graph
-/

namespace InterfacePlan

/-! ## Errors and requests -/

theorem ModuleGraph.namesRequest_of_requireUnused {g : ModuleGraph} {name : String} {e : PlanError}
    (h : g.requireUnused name = .error e) : e.namesRequest = false := by
  obtain ⟨-, rfl⟩ := requireUnused_eq_error_iff.1 h
  rfl

theorem Sources.namesRequest_of_select {settings : Settings} {w : WorkingTree} {i : Interface}
    {version : String} {e : PlanError} (h : select settings w i version = .error e) :
    e.namesRequest = false := by
  unfold select snapshot at h
  split at h
  case isTrue => cases h
  case isFalse =>
    extract_lets directory at h
    split at h
    case isTrue =>
      cases h
      rfl
    case isFalse =>
      split at h <;> cases h
      rfl

namespace Request

variable {settings : Settings} {w : WorkingTree} {q : Request} {sources : Sources}
  {cause : PlanError}

theorem namesRequest_of_vndkOverride {i : Interface} {version : String}
    (h : Native.vndkOverride i version = .error cause) : cause.namesRequest = false := by
  have hvndk := Outcome.map_eq_error_iff.1 h
  unfold Interface.isForVndk at hvndk
  split at hvndk
  case h_1 =>
    split at hvndk <;> cases hvndk
    rfl
  case h_2 =>
    split at hvndk
    case isFalse => cases hvndk
    case isTrue =>
      have hlatest := Outcome.map_eq_error_iff.1 hvndk
      unfold Interface.latestVersion at hlatest
      split at hlatest
      case isTrue =>
        cases hlatest
        rfl
      case isFalse =>
        split at hlatest <;> cases hlatest
        rfl

theorem namesRequest_of_product (h : (q.blueprint settings sources).product = .error cause) :
    cause.namesRequest = false := by
  unfold blueprint at h
  cases hb : q.backend <;> rw [hb] at h
  case cpp | ndk => exact namesRequest_of_vndkOverride (Outcome.map_eq_error_iff.1 h)
  case analyzer | java | rust => cases h

/-! ## Where requests fail -/

/-- **Where a request fails**: with which cause, and what it leaves of a graph. -/
inductive FailsWith (settings : Settings) (w : WorkingTree) (q : Request) (g : ModuleGraph) :
    PlanError → ModuleGraph → Prop
  /-- The sources are not found. -/
  | select {cause : PlanError}
    (selected : Sources.select settings w q.interface q.version = .error cause) :
    FailsWith settings w q g cause g
  /-- The source generator cannot be entered. -/
  | generator {sources : Sources} {cause : PlanError}
    (selected : Sources.select settings w q.interface q.version = .ok sources)
    (nonempty : sources.isEmpty = false)
    (refused : g.create (q.blueprint settings sources).source = .error cause) :
    FailsWith settings w q g cause g
  /-- There is no product, or it cannot be entered. The source generator was entered before. -/
  | product {sources : Sources} {cause : PlanError} {h : ModuleGraph}
    (selected : Sources.select settings w q.interface q.version = .ok sources)
    (nonempty : sources.isEmpty = false)
    (entered : g.create (q.blueprint settings sources).source = .ok h)
    (refused : ((q.blueprint settings sources).product >>= h.addProduct) = .error cause) :
    FailsWith settings w q g cause h

end Request

namespace ModuleGraph

variable {settings : Settings} {w : WorkingTree} {q : Request} {g h : ModuleGraph} {m : Module}
  {e cause : PlanError}

theorem install_eq_error_iff {b : Blueprint} : g.install b = (h, .error e) ↔
    (g.create b.source = .error e ∧ g = h)
      ∨ g.create b.source = .ok h ∧ (b.product >>= h.addProduct) = .error e := by
  unfold install
  rcases g.tryCreate_cases b.source with ⟨k, hc, htry⟩ | ⟨e', hc, htry⟩
  · rw [htry, hc]
    simp only [reduceCtorEq, false_and, false_or, Except.ok.injEq]
    cases b.product with
    | error e' => simp [bind, Except.bind]
    | ok product =>
      have hsame : k = h ∧ h.addProduct product = .error e
          ↔ k = h ∧ k.addProduct product = .error e :=
        and_congr_right fun heq => by rw [heq]
      rw [Outcome.ok_bind, hsame]
      rcases k.tryAddProduct_cases product with ⟨l, hp, htry⟩ | ⟨e', hp, htry⟩ <;> simp [hp, htry]
  · simp [hc, htry, and_comm]

theorem dispatch_eq_none_iff : g.dispatch settings w q = (h, .ok none) ↔
    q.answer settings w = .ok none ∧ g = h := by
  rw [dispatch_eq_ok_iff]
  simp

/-- **A request fails like the step of it that fails.** -/
theorem dispatch_eq_error_iff : g.dispatch settings w q = (h, .error e) ↔
    ∃ cause, q.FailsWith settings w g cause h ∧ e = q.fail cause := by
  constructor
  · intro hd
    unfold dispatch at hd
    split at hd
    case h_1 cause hs =>
      cases hd
      exact ⟨cause, .select hs, rfl⟩
    case h_2 sources hs =>
      split at hd
      case isTrue => cases hd
      case isFalse he =>
        rw [Bool.not_eq_true] at he
        split at hd
        case h_2 => cases hd
        case h_1 k cause hi =>
          cases hd
          rcases install_eq_error_iff.1 hi with ⟨hc, rfl⟩ | ⟨hc, hp⟩
          · exact ⟨cause, .generator hs he hc, rfl⟩
          · exact ⟨cause, .product hs he hc hp, rfl⟩
  · rintro ⟨cause, fails, rfl⟩
    cases fails with
    | select hs => rw [dispatch, hs]
    | generator hs he hc =>
      simp [dispatch, hs, he, install_eq_error_iff.2 (.inl ⟨hc, rfl⟩)]
    | product hs he hc hp =>
      simp [dispatch, hs, he, install_eq_error_iff.2 (.inr ⟨hc, hp⟩)]

/-! ## What is left of a request -/

theorem namesRequest_of_create (hc : g.create m = .error e) : e.namesRequest = false := by
  obtain ⟨-, rfl⟩ := create_eq_error_iff.1 hc
  rfl

theorem namesRequest_of_addProduct {product : Product} (ha : g.addProduct product = .error e) :
    e.namesRequest = false := by
  cases product with
  | tool m => exact namesRequest_of_create ha
  | library p =>
    rcases declare_eq_error_iff.1 ha with hu | ⟨-, hu⟩
    · exact namesRequest_of_requireUnused hu
    · exact namesRequest_of_requireUnused hu

end ModuleGraph

namespace Request

variable {settings : Settings} {w : WorkingTree} {q : Request} {sources : Sources} {a : Answer}
  {g h : ModuleGraph} {cause : PlanError}

theorem FailsWith.namesRequest (fails : q.FailsWith settings w g cause h) :
    cause.namesRequest = false := by
  cases fails with
  | select selected => exact Sources.namesRequest_of_select selected
  | generator _ _ refused => exact ModuleGraph.namesRequest_of_create refused
  | product _ _ _ refused =>
    rcases Outcome.bind_eq_error_iff.1 refused with hp | ⟨product, -, ha⟩
    · exact namesRequest_of_product hp
    · exact ModuleGraph.namesRequest_of_addProduct ha

/-- A failing request leaves nothing, or the source generator alone. -/
theorem FailsWith.leaves (fails : q.FailsWith settings w g cause h) :
    h = g ∨ ∃ sources, Sources.select settings w q.interface q.version = .ok sources
      ∧ g.Gains h [(q.blueprint settings sources).source] [] := by
  cases fails with
  | select => exact .inl rfl
  | generator => exact .inl rfl
  | product selected _ entered _ => exact .inr ⟨_, selected, ModuleGraph.gains_create entered⟩

/-- **What a graph gains from a request that is answered**, and the name under which the product
stands. -/
inductive Enters (settings : Settings) (q : Request) (sources : Sources) (g h : ModuleGraph) :
    String → Prop
  /-- The source generator, and a placeholder that carries the library. The name of the library is
  free, but it is not taken yet. -/
  | library {kind : ModuleKind} (backend : q.backend ≠ .analyzer)
    (suits : kind.suits q.backend = true)
    (product : (q.blueprint settings sources).product = .ok (.library (q.placeholder kind)))
    (gains : g.Gains h [(q.blueprint settings sources).source] [(q.placeholder kind).declaredEntry])
    (free : g.uses q.libraryName = false) :
    Enters settings q sources g h (q.placeholder kind).name
  /-- The source generator and the tool. -/
  | tool {kind : ModuleKind} (backend : q.backend = .analyzer)
    (suits : kind.suits q.backend = true)
    (product : (q.blueprint settings sources).product
      = .ok (.tool ⟨Native.analyzerName q.interface, kind⟩))
    (gains : g.Gains h
      [⟨Native.analyzerName q.interface, kind⟩, (q.blueprint settings sources).source] []) :
    Enters settings q sources g h (Native.analyzerName q.interface)

/-- A request is answered from its sources, which are not empty. -/
theorem enters_of_answer (ha : q.answer settings w = .ok (some a)) (he : g.enter a = .ok h) :
    ∃ sources, Sources.select settings w q.interface q.version = .ok sources
      ∧ sources.isEmpty = false ∧ q.Enters settings sources g h a.product.name := by
  obtain ⟨sources, hs, hne, hsource, hproduct⟩ := answer_eq_some_iff.1 ha
  obtain ⟨k, hk, hp⟩ := Outcome.bind_eq_ok_iff.1 he
  have hgk := ModuleGraph.gains_create hk
  rw [← hsource] at hgk
  refine ⟨sources, hs, hne, ?_⟩
  by_cases hb : q.backend = .analyzer
  · obtain ⟨kind, htool, hsuits, -⟩ := tool_of_answer ha hb
    rw [← analyzerName_eq hb] at htool
    rw [htool] at hp hproduct ⊢
    exact .tool hb hsuits hproduct (hgk.trans (ModuleGraph.gains_create hp))
  · obtain ⟨kind, hlibrary, hsuits, -⟩ := library_of_answer ha hb
    rw [hlibrary] at hp hproduct ⊢
    obtain ⟨hkh, hfree⟩ := ModuleGraph.gains_declare hp
    exact .library hb hsuits hproduct (hgk.trans hkh) (hgk.free_of_free hfree).1

end Request

namespace ModuleGraph

/-- **What a request leaves of a graph.** Without sources it leaves the graph as it is, and there is
no other reason for having no product. With a product, the graph gained the source generator and the
product, under names that were free. An error names this request and a cause that names none, the
request failed with this cause, and the graph is as it was or gained the source generator alone. -/
theorem dispatch_outcome (settings : Settings) (w : WorkingTree) (g : ModuleGraph) (q : Request) :
    ((g.dispatch settings w q).2 = .ok none ↔
        ∃ sources, Sources.select settings w q.interface q.version = .ok sources
          ∧ sources.isEmpty = true)
      ∧ ((g.dispatch settings w q).2 = .ok none → (g.dispatch settings w q).1 = g)
      ∧ (∀ name, (g.dispatch settings w q).2 = .ok (some name) →
          ∃ sources, Sources.select settings w q.interface q.version = .ok sources
            ∧ sources.isEmpty = false
            ∧ q.Enters settings sources g (g.dispatch settings w q).1 name)
      ∧ ∀ e, (g.dispatch settings w q).2 = .error e →
          ∃ cause, e = .request q.interface.name q.version q.backend cause
            ∧ cause.namesRequest = false
            ∧ q.FailsWith settings w g cause (g.dispatch settings w q).1
            ∧ ((g.dispatch settings w q).1 = g
              ∨ ∃ sources, Sources.select settings w q.interface q.version = .ok sources
                ∧ g.Gains (g.dispatch settings w q).1
                    [(q.blueprint settings sources).source] []) := by
  obtain ⟨h, outcome, hd⟩ : ∃ h outcome, g.dispatch settings w q = (h, outcome) := ⟨_, _, rfl⟩
  rw [hd]
  refine ⟨?none, ?unchanged, ?product, ?error⟩
  case none =>
    rw [← Request.answer_eq_none_iff]
    constructor
    · rintro rfl
      exact (dispatch_eq_none_iff.1 hd).1
    · intro hnone
      have hskip : g.dispatch settings w q = (g, .ok none) := dispatch_eq_none_iff.2 ⟨hnone, rfl⟩
      exact congrArg Prod.snd (hd.symm.trans hskip)
  case unchanged =>
    rintro rfl
    exact (dispatch_eq_none_iff.1 hd).2.symm
  case product =>
    rintro name rfl
    rcases dispatch_eq_ok_iff.1 hd with ⟨-, -, hnone⟩ | ⟨a, ha, he, hname⟩
    · cases hnone
    · rw [Option.some.inj hname]
      exact Request.enters_of_answer ha he
  case error =>
    rintro e rfl
    obtain ⟨cause, fails, rfl⟩ := dispatch_eq_error_iff.1 hd
    exact ⟨cause, PlanError.inRequest_eq fails.namesRequest _ _ _, fails.namesRequest, fails,
      fails.leaves⟩

/-- A version for the VNDK that does not exist is noticed when the source generator is there. -/
example : ((∅ : ModuleGraph).dispatch {} ⟨∅, []⟩
    { interface := { name := "foo", srcs := ["Foo.aidl"], vndkUseVersion := some "3" }
      version := "1", backend := .cpp }).1.modules.keys = ["foo-V1-cpp-source"] := by
  decide +kernel

end ModuleGraph

end InterfacePlan
