import Mathlib.Data.List.Nodup
import Mathlib.Data.List.Perm.Basic
import InterfacePlan.ModuleGraph.Basic
import InterfacePlan.Proofs.Collection.Outcome
import InterfacePlan.Proofs.Collection.StrictOrder
/-!
# Contents of module graphs

A graph holds some modules and some implementations, all under different names. The changes of a
graph add to its contents when the names that they need are free, and for no other reason do they
fail. A merge that fails keeps what it has moved: either some modules of the other graph, or all of
them and some of its implementations.

## Main definitions

* `ModuleGraph.Holds`: what a graph holds, as lists in any order
* `ModuleGraph.usedNames`: the names that are taken by such contents
* `ModuleGraph.IsAtomic`: a step that leaves the graph as it is when it fails
* `ModuleGraph.Moved`: what a merge moves, which is not everything if it fails

## Main results

* `ModuleGraph.isAtomic_tryCreate`, `ModuleGraph.isAtomic_tryDeclare`,
  `ModuleGraph.isAtomic_tryFinish`: steps that are atomic
* `ModuleGraph.Holds.create`, `ModuleGraph.Holds.declare`, `ModuleGraph.Holds.finish`: what a graph
  holds after a change
* `ModuleGraph.Holds.exists_moved`, `ModuleGraph.Holds.exists_merge`: what a graph holds after a
  merge, whether it failed or not, and when a merge succeeds
-/

namespace InterfacePlan

namespace SortedMap

variable {κ α : Type} [Ord κ] [Std.ReflOrd κ]

theorem nodup_keys (m : SortedMap κ α) : m.keys.Nodup :=
  StrictOrder.nodup (List.pairwise_map.2 m.sorted)

theorem nodup_toList (m : SortedMap κ α) : m.toList.Nodup := (nodup_keys m).of_map

end SortedMap

/-- Only placeholders await a library. -/
theorem Implementation.awaited?_eq_some_iff {i : Implementation} {library : String} :
    i.awaited? = some library ↔ ∃ p, i = .declared p ∧ p.library.name = library := by
  cases i <;> simp [awaited?]

namespace ModuleGraph

variable {g h other : ModuleGraph} {m : Module} {p : Placeholder} {ms ns : List Module}
  {is js : List (String × Implementation)}

/-- The names taken by modules and implementations. -/
def usedNames (ms : List Module) (is : List (String × Implementation)) : List String :=
  ms.map (·.name) ++ is.map (·.1)

/-- A list with the entries of an image is an image itself. -/
theorem exists_eq_map_of_perm {α β : Type} {f : α → β} {xs : List α} {l : List β}
    (hl : l.Perm (xs.map f)) : ∃ ys : List α, l = ys.map f ∧ ys.Perm xs :=
  (congrFun (congrFun (List.eq_map_comp_perm f) l) xs).mpr hl

theorem usedNames_cons_left : usedNames (m :: ms) is = m.name :: usedNames ms is := rfl

theorem usedNames_perm (hms : ms.Perm ns) (his : is.Perm js) :
    (usedNames ms is).Perm (usedNames ns js) :=
  (hms.map _).append (his.map _)

theorem usedNames_cons_right {i : String × Implementation} :
    (usedNames ms (i :: is)).Perm (i.1 :: usedNames ms is) :=
  List.perm_middle

theorem usedNames_append_perm : (usedNames (ns ++ ms) (js ++ is)).Perm
    (usedNames ns js ++ usedNames ms is) := by
  unfold usedNames
  rw [List.map_append, List.map_append, List.append_assoc, List.append_assoc]
  exact ((List.perm_append_comm_assoc _ _ _).append_left _)

/-- Graphs in which the same stands under each name are equal. -/
theorem ext_lookups (hmodule : ∀ name, g.module? name = h.module? name)
    (hstate : ∀ name, g.state? name = h.state? name) : g = h := by
  obtain ⟨modules, implementations⟩ := g
  obtain ⟨modules', implementations'⟩ := h
  obtain rfl : modules = modules' := SortedMap.ext_get? hmodule
  obtain rfl : implementations = implementations' := SortedMap.ext_get? hstate
  rfl

/-- A name is used by what stands under it. -/
theorem uses_iff_exists {name : String} : g.uses name = true ↔
    (∃ m, g.module? name = some m) ∨ ∃ i, g.state? name = some i := by
  rw [uses, Bool.or_eq_true, SortedMap.contains_iff, SortedMap.contains_iff]
  rfl

/-- **What a graph holds**: each module under its own name, implementations under the names given,
and no two of them under the same. -/
structure Holds (g : ModuleGraph) (ms : List Module) (is : List (String × Implementation)) :
    Prop where
  module?_iff : ∀ name m, g.module? name = some m ↔ m ∈ ms ∧ m.name = name
  state?_iff : ∀ name i, g.state? name = some i ↔ (name, i) ∈ is
  nodup : (usedNames ms is).Nodup

namespace Holds

theorem empty : (∅ : ModuleGraph).Holds [] [] where
  module?_iff name m := by
    rw [show (∅ : ModuleGraph).module? name = none from rfl]
    simp
  state?_iff name i := by
    rw [show (∅ : ModuleGraph).state? name = none from rfl]
    simp
  nodup := .nil

/-- The order of the contents is of no importance. -/
theorem perm (hold : g.Holds ms is) (hms : ms.Perm ns) (his : is.Perm js) : g.Holds ns js where
  module?_iff name m := by rw [hold.module?_iff, hms.mem_iff]
  state?_iff name i := by rw [hold.state?_iff, his.mem_iff]
  nodup := (usedNames_perm hms his).nodup_iff.1 hold.nodup

/-- Graphs that hold the same are equal. -/
theorem eq (hold : g.Holds ms is) (hold' : h.Holds ms is) : g = h := by
  refine ext_lookups (fun name => Option.ext fun m => ?_) fun name => Option.ext fun i => ?_
  · exact (hold.module?_iff name m).trans (hold'.module?_iff name m).symm
  · exact (hold.state?_iff name i).trans (hold'.state?_iff name i).symm

theorem uses_iff (hold : g.Holds ms is) {name : String} :
    g.uses name = true ↔ name ∈ usedNames ms is := by
  have hmodule : (∃ m, g.module? name = some m) ↔ name ∈ ms.map (·.name) := by
    simp only [hold.module?_iff, List.mem_map]
  have hstate : (∃ i, g.state? name = some i) ↔ name ∈ is.map (·.1) := by
    simp [hold.state?_iff]
  rw [uses_iff_exists, hmodule, hstate, usedNames, List.mem_append]

theorem modules_perm (hold : g.Holds ms is) :
    g.modules.toList.Perm (ms.map fun m => (m.name, m)) := by
  refine (List.perm_ext_iff_of_nodup (SortedMap.nodup_toList _) ?_).2 fun ⟨name, m⟩ => ?_
  · apply List.Nodup.map (fun _ _ h => (Prod.mk.inj h).2)
    exact (List.nodup_append.1 hold.nodup).1.of_map
  · rw [SortedMap.mem_toList_iff]
    apply (hold.module?_iff name m).trans
    rw [List.mem_map]
    constructor
    · rintro ⟨hm, rfl⟩
      exact ⟨m, hm, rfl⟩
    · rintro ⟨n, hn, heq⟩
      obtain ⟨rfl, rfl⟩ := Prod.mk.inj heq
      exact ⟨hn, rfl⟩

theorem implementations_perm (hold : g.Holds ms is) : g.implementations.toList.Perm is := by
  refine (List.perm_ext_iff_of_nodup (SortedMap.nodup_toList _) ?_).2 fun ⟨name, i⟩ => ?_
  · exact (List.nodup_append.1 hold.nodup).2.1.of_map
  · rw [SortedMap.mem_toList_iff]
    exact hold.state?_iff name i

end Holds

/-! ## Steps -/

/-- **A step that leaves the graph as it is when it fails.** -/
def IsAtomic {α : Type} (g : ModuleGraph) (step : ModuleGraph × Except PlanError α) : Prop :=
  ∀ e, step.2 = .error e → step.1 = g

theorem afterStep_eq_ok_iff {step : ModuleGraph × Except PlanError Unit} :
    afterStep step = .ok h ↔ step = (h, .ok ()) := by
  obtain ⟨k, e | ⟨⟩⟩ := step <;> simp [afterStep]

theorem afterStep_eq_error_iff {step : ModuleGraph × Except PlanError Unit} {e : PlanError} :
    afterStep step = .error e ↔ step.2 = .error e := by
  obtain ⟨k, e' | ⟨⟩⟩ := step <;> simp [afterStep]

/-- An atomic step either succeeds or leaves the graph as it is. -/
theorem IsAtomic.cases {α : Type} {step : ModuleGraph × Except PlanError α}
    (atomic : g.IsAtomic step) : (∃ h a, step = (h, .ok a)) ∨ ∃ e, step = (g, .error e) := by
  obtain ⟨k, e | a⟩ := step
  · obtain rfl : k = g := atomic e rfl
    exact .inr ⟨e, rfl⟩
  · exact .inl ⟨k, a, rfl⟩

theorem IsAtomic.afterStep_cases {step : ModuleGraph × Except PlanError Unit}
    (atomic : g.IsAtomic step) : (∃ h, afterStep step = .ok h ∧ step = (h, .ok ()))
      ∨ ∃ e, afterStep step = .error e ∧ step = (g, .error e) := by
  rcases atomic.cases with ⟨h, ⟨⟩, rfl⟩ | ⟨e, rfl⟩
  · exact .inl ⟨h, rfl, rfl⟩
  · exact .inr ⟨e, rfl, rfl⟩

/-! ## Creating and declaring -/

theorem requireUnused_eq_ok_iff {name : String} {u : Unit} :
    g.requireUnused name = .ok u ↔ g.uses name = false := by
  unfold requireUnused
  split
  case isTrue h => simp [h]
  case isFalse h => simp [h]

theorem requireUnused_eq_error_iff {name : String} {e : PlanError} :
    g.requireUnused name = .error e ↔ g.uses name = true ∧ e = .duplicateModule name := by
  unfold requireUnused
  split
  case isTrue h => simp [h, eq_comm]
  case isFalse h => simp [h]

theorem isAtomic_tryCreate (g : ModuleGraph) (m : Module) : g.IsAtomic (g.tryCreate m) := by
  unfold IsAtomic tryCreate
  cases g.requireUnused m.name <;> simp

theorem isAtomic_tryDeclare (g : ModuleGraph) (p : Placeholder) : g.IsAtomic (g.tryDeclare p) := by
  unfold IsAtomic tryDeclare
  cases g.requireUnused p.name with
  | error e => simp
  | ok u => cases g.requireUnused p.library.name <;> simp

theorem tryCreate_cases (g : ModuleGraph) (m : Module) :
    (∃ h, g.create m = .ok h ∧ g.tryCreate m = (h, .ok ()))
      ∨ ∃ e, g.create m = .error e ∧ g.tryCreate m = (g, .error e) :=
  (g.isAtomic_tryCreate m).afterStep_cases

theorem create_eq_ok_iff : g.create m = .ok h ↔
    g.uses m.name = false ∧ { g with modules := g.modules.insert m.name m } = h := by
  rw [create, afterStep_eq_ok_iff, tryCreate, ← requireUnused_eq_ok_iff (u := ())]
  cases g.requireUnused m.name <;> simp

theorem create_eq_error_iff {e : PlanError} : g.create m = .error e ↔
    g.uses m.name = true ∧ e = .duplicateModule m.name := by
  rw [create, afterStep_eq_error_iff, tryCreate, ← requireUnused_eq_error_iff]
  cases g.requireUnused m.name <;> simp

theorem declare_eq_ok_iff : g.declare p = .ok h ↔
    g.uses p.name = false ∧ g.uses p.library.name = false
      ∧ { g with implementations := g.implementations.insert p.name (.declared p) } = h := by
  rw [declare, afterStep_eq_ok_iff, tryDeclare, ← requireUnused_eq_ok_iff (u := ()),
    ← requireUnused_eq_ok_iff (u := ())]
  cases g.requireUnused p.name with
  | error e => simp
  | ok u => cases g.requireUnused p.library.name <;> simp

theorem declare_eq_error_iff {e : PlanError} : g.declare p = .error e ↔
    g.requireUnused p.name = .error e
      ∨ g.uses p.name = false ∧ g.requireUnused p.library.name = .error e := by
  rw [declare, afterStep_eq_error_iff, tryDeclare, ← requireUnused_eq_ok_iff (u := ())]
  cases g.requireUnused p.name with
  | error e => simp
  | ok u => cases g.requireUnused p.library.name <;> simp

namespace Holds

/-- A graph into which a module is inserted. -/
theorem insertModule (hold : g.Holds ms is) (hfree : m.name ∉ usedNames ms is) :
    ({ g with modules := g.modules.insert m.name m } : ModuleGraph).Holds (m :: ms) is where
  module?_iff name n := by
    have hlook := SortedMap.get?_insert g.modules m.name name m
    rw [module?, hlook]
    split
    case isTrue heq =>
      subst heq
      have hother : ∀ n ∈ ms, n.name ≠ m.name := fun n hn heq =>
        hfree (List.mem_append_left _ (List.mem_map.2 ⟨n, hn, heq⟩))
      grind
    case isFalse hne =>
      refine (hold.module?_iff name n).trans ?_
      grind
  state?_iff := hold.state?_iff
  nodup := List.nodup_cons.2 ⟨hfree, hold.nodup⟩

/-- A graph in which an implementation is set, given that its other implementations are `is`. -/
theorem setImplementation {name : String} (i : Implementation)
    (hmodule : ∀ other m, g.module? other = some m ↔ m ∈ ms ∧ m.name = other)
    (hstate : ∀ other, name ≠ other → ∀ j, g.state? other = some j ↔ (other, j) ∈ is)
    (hn : (name :: usedNames ms is).Nodup) :
    ({ g with implementations := g.implementations.insert name i } : ModuleGraph).Holds
      ms ((name, i) :: is) where
  module?_iff := hmodule
  state?_iff other j := by
    have hlook := SortedMap.get?_insert g.implementations name other i
    have hfree : ∀ j, (name, j) ∉ is := fun j hj =>
      (List.nodup_cons.1 hn).1 (List.mem_append_right _ (List.mem_map.2 ⟨_, hj, rfl⟩))
    rw [state?, hlook]
    split
    case isTrue heq =>
      subst heq
      grind
    case isFalse hne =>
      apply (hstate other hne j).trans
      grind
  nodup := usedNames_cons_right.nodup_iff.2 hn

theorem insertImplementation (hold : g.Holds ms is) {name : String} (i : Implementation)
    (hfree : name ∉ usedNames ms is) :
    ({ g with implementations := g.implementations.insert name i } : ModuleGraph).Holds
      ms ((name, i) :: is) := by
  apply setImplementation i hold.module?_iff
  · intro other _ j
    exact hold.state?_iff other j
  · exact List.nodup_cons.2 ⟨hfree, hold.nodup⟩

/-- A graph in which the state of an implementation is changed. -/
theorem changeImplementation {name : String} {i : Implementation}
    (hold : g.Holds ms ((name, i) :: is)) (j : Implementation) :
    ({ g with implementations := g.implementations.insert name j } : ModuleGraph).Holds
      ms ((name, j) :: is) := by
  apply setImplementation j hold.module?_iff
  · intro other hne k
    rw [hold.state?_iff, List.mem_cons]
    grind
  · exact usedNames_cons_right.nodup_iff.1 hold.nodup

theorem uses_eq_false_iff (hold : g.Holds ms is) {name : String} :
    g.uses name = false ↔ name ∉ usedNames ms is := by
  rw [← hold.uses_iff, Bool.not_eq_true]

/-- **What a graph holds after a module was created.** -/
theorem create (hold : g.Holds ms is) (hc : g.create m = .ok h) : h.Holds (m :: ms) is := by
  obtain ⟨hfree, rfl⟩ := create_eq_ok_iff.1 hc
  exact hold.insertModule (hold.uses_eq_false_iff.1 hfree)

theorem exists_create_iff (hold : g.Holds ms is) :
    (∃ h, g.create m = .ok h) ↔ m.name ∉ usedNames ms is := by
  simp [create_eq_ok_iff, hold.uses_eq_false_iff]

/-- **What a graph holds after a placeholder was declared.** -/
theorem declare (hold : g.Holds ms is) (hd : g.declare p = .ok h) :
    h.Holds ms ((p.name, .declared p) :: is) := by
  obtain ⟨hfree, -, rfl⟩ := declare_eq_ok_iff.1 hd
  exact hold.insertImplementation _ (hold.uses_eq_false_iff.1 hfree)

theorem exists_declare_iff (hold : g.Holds ms is) :
    (∃ h, g.declare p = .ok h) ↔
      p.name ∉ usedNames ms is ∧ p.library.name ∉ usedNames ms is := by
  simp [declare_eq_ok_iff, hold.uses_eq_false_iff]

end Holds

/-! ## Finishing -/

/-- Finishing writes twice, but it cannot fail any more once the library is created. -/
theorem isAtomic_tryFinish (g : ModuleGraph) (name : String) (m : Module) :
    g.IsAtomic (g.tryFinish name m) := by
  unfold IsAtomic tryFinish
  split
  case h_1 | h_2 => simp
  case h_3 =>
    rcases g.tryCreate_cases m with ⟨h, -, hc⟩ | ⟨e, -, hc⟩ <;> simp [hc]

/-- A placeholder is finished by creating the library, and then the state changes under the same
name. -/
theorem finish_of_declared {name : String} (hp : g.state? name = some (.declared p)) :
    g.finish name m = (g.create m).map fun k =>
      { k with implementations := k.implementations.insert name (.finished m.name) } := by
  rw [finish, tryFinish, hp, create]
  obtain ⟨k, e | ⟨⟩⟩ := g.tryCreate m <;> rfl

namespace Holds

variable (hold : g.Holds ms ((p.name, .declared p) :: is))
include hold

theorem state?_of_declared : g.state? p.name = some (.declared p) :=
  (hold.state?_iff _ _).2 (List.mem_cons_self ..)

/-- **What a graph holds after a placeholder was finished.** -/
theorem finish (hf : g.finish p.name m = .ok h) :
    h.Holds (m :: ms) ((p.name, .finished m.name) :: is) := by
  rw [finish_of_declared hold.state?_of_declared, Outcome.map_eq_ok_iff] at hf
  obtain ⟨k, hk, rfl⟩ := hf
  exact (hold.create hk).changeImplementation _

theorem exists_finish_iff : (∃ h, g.finish p.name m = .ok h) ↔
    m.name ∉ usedNames ms ((p.name, .declared p) :: is) := by
  rw [← hold.exists_create_iff, finish_of_declared hold.state?_of_declared,
    Outcome.exists_map_eq_ok_iff]

end Holds

/-! ## Merging -/

theorem mem_usedNames_append_of_mem {name : String} (hname : name ∈ usedNames ms is)
    (ns : List Module) (js : List (String × Implementation)) :
    name ∈ usedNames (ns ++ ms) (js ++ is) := by
  simp only [usedNames, List.map_append, List.mem_append] at hname ⊢
  tauto

theorem requireRoom_eq_ok_iff {name : String} {i : Implementation} {u : Unit} :
    g.requireRoom name i = .ok u ↔
      g.uses name = false ∧ ∀ library, i.awaited? = some library → g.uses library = false := by
  rw [requireRoom, Outcome.bind_eq_ok_iff]
  cases i.awaited? <;> simp [requireUnused_eq_ok_iff]

/-- **What a merge moves** into a graph that holds `ms` and `is`, out of one that holds `ns` and
`js`. -/
structure Moved (ms ns : List Module) (is js : List (String × Implementation)) (ns' : List Module)
    (js' : List (String × Implementation)) : Prop where
  modules : ns'.Subperm ns
  implementations : js'.Subperm js
  /-- Implementations are moved only once all modules are. -/
  modules_first : js' = [] ∨ ns' = ns
  /-- There was room for the libraries that the moved placeholders await. -/
  room : ∀ j ∈ js', ∀ library, j.2.awaited? = some library → library ∉ usedNames ms is

namespace Holds

/-- What a graph holds after modules were moved into it, up to the first whose name is used. -/
theorem exists_movedModules (hold : g.Holds ms is) (ns : List Module) :
    ∃ moved, moved <+: ns
      ∧ (g.moveModules (ns.map fun m => (m.name, m))).1.Holds (moved ++ ms) is
      ∧ ((g.moveModules (ns.map fun m => (m.name, m))).2 = .ok () → moved = ns) := by
  -- Induction on the modules that are moved; those already there come behind them.
  induction ns generalizing g ms with
  | nil => exact ⟨[], List.nil_prefix, hold, fun _ => rfl⟩
  | cons n ns ih =>
    rw [List.map_cons, ModuleGraph.moveModules]
    split
    case h_1 e _ =>
      exact ⟨[], List.nil_prefix, hold, fun hok => by cases hok⟩
    case h_2 hu =>
      have hfree := hold.uses_eq_false_iff.1 (requireUnused_eq_ok_iff.1 hu)
      obtain ⟨moved, hprefix, hmoved, hall⟩ := ih (hold.insertModule hfree)
      refine ⟨n :: moved, List.prefix_cons_inj n |>.2 hprefix, ?_, ?_⟩
      · exact hmoved.perm List.perm_middle (.refl _)
      · intro hok
        rw [hall hok]

/-- Modules can be moved into a graph if all names are different. -/
theorem exists_moveModules (hold : g.Holds ms is) (hn : (usedNames (ns ++ ms) is).Nodup) :
    ∃ h, g.moveModules (ns.map fun m => (m.name, m)) = (h, .ok ()) := by
  induction ns generalizing g ms with
  | nil => exact ⟨g, rfl⟩
  | cons n ns ih =>
    have hn' : (usedNames (ns ++ n :: ms) is).Nodup :=
      (usedNames_perm List.perm_middle (.refl _)).nodup_iff.2 hn
    have hfree : n.name ∉ usedNames ms is := fun hmem =>
      (List.nodup_cons.1 hn).1 (mem_usedNames_append_of_mem hmem ns [])
    have hu : g.requireUnused n.name = .ok () :=
      requireUnused_eq_ok_iff.2 (hold.uses_eq_false_iff.2 hfree)
    rw [List.map_cons, ModuleGraph.moveModules, hu]
    exact ih (hold.insertModule hfree) hn'

/-- What a graph holds after implementations were moved into it, up to the first for which there is
no room. -/
theorem exists_movedImplementations (hold : g.Holds ms is) (js : List (String × Implementation)) :
    ∃ moved, moved <+: js
      ∧ (g.moveImplementations js).1.Holds ms (moved ++ is)
      ∧ (∀ j ∈ moved, ∀ library, j.2.awaited? = some library → library ∉ usedNames ms is)
      ∧ ((g.moveImplementations js).2 = .ok () → moved = js) := by
  induction js generalizing g is with
  | nil => exact ⟨[], List.nil_prefix, hold, by simp, fun _ => rfl⟩
  | cons j js ih =>
    rw [ModuleGraph.moveImplementations]
    split
    case h_1 e _ => exact ⟨[], List.nil_prefix, hold, by simp, fun hok => by cases hok⟩
    case h_2 hr =>
      obtain ⟨hname, hlibrary⟩ := requireRoom_eq_ok_iff.1 hr
      have hfree := hold.uses_eq_false_iff.1 hname
      obtain ⟨moved, hprefix, hmoved, hroom, hall⟩ := ih (hold.insertImplementation j.2 hfree)
      refine ⟨j :: moved, List.prefix_cons_inj j |>.2 hprefix, ?_, ?_, ?_⟩
      · exact hmoved.perm (.refl _) List.perm_middle
      · intro k hk library hawaited
        rcases List.mem_cons.1 hk with rfl | hk
        · exact hold.uses_eq_false_iff.1 (hlibrary library hawaited)
        · intro hused
          apply hroom k hk library hawaited
          exact usedNames_cons_right.mem_iff.2 (List.mem_cons_of_mem _ hused)
      · intro hok
        rw [hall hok]

/-- Implementations can be moved into a graph if all names are different and the names of the
libraries that they await are free. -/
theorem exists_moveImplementations (hold : g.Holds ms is) (hn : (usedNames ms (js ++ is)).Nodup)
    (hroom : ∀ j ∈ js, ∀ library, j.2.awaited? = some library →
      library ∉ usedNames ms (js ++ is)) :
    ∃ h, g.moveImplementations js = (h, .ok ()) := by
  induction js generalizing g is with
  | nil => exact ⟨g, rfl⟩
  | cons j js ih =>
    have hperm : (usedNames ms (js ++ j :: is)).Perm (usedNames ms (j :: js ++ is)) :=
      usedNames_perm (.refl _) List.perm_middle
    have hsub : ∀ name ∈ usedNames ms is, name ∈ usedNames ms (j :: js ++ is) := fun name hname =>
      mem_usedNames_append_of_mem hname [] (j :: js)
    have hfree : j.1 ∉ usedNames ms is := fun hmem => by
      have hn' := List.nodup_cons.1 (usedNames_cons_right.nodup_iff.1 hn)
      exact hn'.1 (mem_usedNames_append_of_mem hmem [] js)
    have hr : g.requireRoom j.1 j.2 = .ok () := by
      refine requireRoom_eq_ok_iff.2 ⟨hold.uses_eq_false_iff.2 hfree, fun library hawaited => ?_⟩
      exact hold.uses_eq_false_iff.2 fun hmem =>
        hroom j (List.mem_cons_self ..) library hawaited (hsub _ hmem)
    rw [ModuleGraph.moveImplementations, hr]
    apply ih (hold.insertImplementation _ hfree) (hperm.nodup_iff.2 hn)
    intro k hk library hawaited hmem
    exact hroom k (List.mem_cons_of_mem _ hk) library hawaited (hperm.mem_iff.1 hmem)

variable (hold : g.Holds ms is) (hother : other.Holds ns js)
include hold hother

/-- **What a graph holds after a merge**, whether it failed or not. -/
theorem exists_moved :
    ∃ ns' js', Moved ms ns is js ns' js' ∧ (g.merge other).1.Holds (ns' ++ ms) (js' ++ is)
      ∧ ((g.merge other).2 = .ok () → ns' = ns ∧ js' = js) := by
  obtain ⟨listed, hlist, hlisted⟩ := exists_eq_map_of_perm hother.modules_perm
  obtain ⟨moved, hprefix, hmoved, hall⟩ := hold.exists_movedModules listed
  rw [ModuleGraph.merge, hlist]
  split
  case h_1 k e hk =>
    rw [hk] at hmoved
    refine ⟨moved, [], ⟨?_, List.nil_subperm, .inl rfl, by simp⟩, hmoved, fun hok => by cases hok⟩
    exact hprefix.sublist.subperm.trans hlisted.subperm
  case h_2 k hk =>
    rw [hk] at hmoved hall
    obtain rfl : moved = listed := hall rfl
    have hmodules : k.Holds (ns ++ ms) is := hmoved.perm (hlisted.append_right _) (.refl _)
    have hjs := hother.implementations_perm
    obtain ⟨js', hprefix', hmoved', hroom, hall'⟩ :=
      hmodules.exists_movedImplementations other.implementations.toList
    have hroom' : ∀ j ∈ js', ∀ library, j.2.awaited? = some library → library ∉ usedNames ms is :=
      fun j hj library hawaited hused =>
        hroom j hj library hawaited (mem_usedNames_append_of_mem hused ns [])
    by_cases hok : (k.moveImplementations other.implementations.toList).2 = .ok ()
    · rw [hall' hok] at hmoved' hroom'
      refine ⟨ns, js, ⟨.refl _, .refl _, .inr rfl, ?_⟩, ?_, fun _ => ⟨rfl, rfl⟩⟩
      · intro j hj
        exact hroom' j (hjs.mem_iff.2 hj)
      · exact hmoved'.perm (.refl _) (hjs.append_right _)
    · refine ⟨ns, js', ⟨.refl _, ?_, .inr rfl, hroom'⟩, hmoved', fun h => absurd h hok⟩
      exact hprefix'.sublist.subperm.trans hjs.subperm

/-- What a graph holds after a merge that succeeded. -/
theorem merge (hm : g.merge other = (h, .ok ())) : h.Holds (ns ++ ms) (js ++ is) := by
  obtain ⟨ns', js', -, hmoved, hall⟩ := hold.exists_moved hother
  rw [hm] at hmoved hall
  obtain ⟨rfl, rfl⟩ := hall rfl
  exact hmoved

/-- **When a merge succeeds**: when all names are different, and the names of the libraries that
are awaited are free. -/
theorem exists_merge (hn : (usedNames (ns ++ ms) (js ++ is)).Nodup)
    (hroom : ∀ j ∈ js, ∀ library, j.2.awaited? = some library →
      library ∉ usedNames (ns ++ ms) (js ++ is)) :
    ∃ h, g.merge other = (h, .ok ()) := by
  obtain ⟨ns', hlist, hns⟩ := exists_eq_map_of_perm hother.modules_perm
  have hjs := hother.implementations_perm
  have hperm : (usedNames (ns' ++ ms) (other.implementations.toList ++ is)).Perm
      (usedNames (ns ++ ms) (js ++ is)) :=
    usedNames_perm (hns.append_right _) (hjs.append_right _)
  have hmodules : (usedNames (ns' ++ ms) is).Nodup := by
    apply List.Nodup.sublist ?_ (hperm.nodup_iff.2 hn)
    exact (List.Sublist.refl _).append ((List.sublist_append_right _ _).map _)
  obtain ⟨k, hk⟩ := hold.exists_moveModules hmodules
  obtain ⟨moved, -, hmoved, hall⟩ := hold.exists_movedModules ns'
  rw [hk] at hmoved hall
  obtain rfl : moved = ns' := hall rfl
  rw [ModuleGraph.merge, hlist, hk]
  apply hmoved.exists_moveImplementations (hperm.nodup_iff.2 hn)
  intro j hj library hawaited hmem
  exact hroom j (hjs.mem_iff.1 hj) library hawaited (hperm.mem_iff.1 hmem)

end Holds

end ModuleGraph

end InterfacePlan
