import InterfacePlan.Proofs.ModuleGraph.Contents
/-!
# Changes of module graphs

Graphs are empty at first and grow by changes, one after the other. A change that fails leaves the
graph as it is, except for a merge, which keeps what it has moved.

## Main definitions

* `ModuleGraph.Change`, `ModuleGraph.apply`: a change, and the graph and the outcome that it leaves
* `ModuleGraph.applyAll`: the graph that several changes leave
* `ModuleGraph.ReachableBy`, `ModuleGraph.Reachable`: the graphs that changes lead to, if each of
  them obeys a rule, and without any rule

## Main results

* `ModuleGraph.isAtomic_apply`: only merges leave something behind when they fail
* `ModuleGraph.apply_preserves`: what a change can do to a graph
* `ModuleGraph.Reachable.applyAll`: any sequence of changes leads from one graph to another
-/

namespace InterfacePlan.ModuleGraph

/-- **A change of a graph.** -/
inductive Change where
  | create (m : Module)
  | declare (p : Placeholder)
  | finish (name : String) (library : Module)
  | merge (other : ModuleGraph)

/-- **The graph that a change leaves**, and its outcome. -/
def apply (g : ModuleGraph) : Change → ModuleGraph × Except PlanError Unit
  | .create m => g.tryCreate m
  | .declare p => g.tryDeclare p
  | .finish name library => g.tryFinish name library
  | .merge other => g.merge other

/-- The graph that several changes leave, one after the other. -/
def applyAll (g : ModuleGraph) (cs : List Change) : ModuleGraph :=
  cs.foldl (fun g c => (g.apply c).1) g

/-- **The graphs that changes lead to**, when each of them obeys a rule. What is merged into a graph
was made in the same way. -/
inductive ReachableBy (rule : ModuleGraph → Change → Prop) : ModuleGraph → Prop
  | empty : ReachableBy rule ∅
  | change {g : ModuleGraph} {c : Change} : ReachableBy rule g →
      (∀ other, c = .merge other → ReachableBy rule other) → rule g c →
      ReachableBy rule (g.apply c).1

/-- **The graphs that changes lead to**, whatever they are. -/
def Reachable (g : ModuleGraph) : Prop := g.ReachableBy fun _ _ => True

variable {g h other : ModuleGraph} {m : Module} {p : Placeholder} {ms ns : List Module}
  {is js : List (String × Implementation)}

/-- Any sequence of changes leads from one graph to another. -/
theorem Reachable.applyAll {cs : List Change} (hg : g.Reachable)
    (hcs : ∀ c ∈ cs, ∀ other, c = .merge other → other.Reachable) : (g.applyAll cs).Reachable := by
  induction cs generalizing g with
  | nil => exact hg
  | cons c cs ih =>
    have hstep : (g.apply c).1.Reachable := .change hg (hcs c (List.mem_cons_self ..)) trivial
    exact ih hstep fun c' hc' => hcs c' (List.mem_cons_of_mem _ hc')

theorem exists_afterStep_of_ok {step : ModuleGraph × Except PlanError Unit}
    (hok : step.2 = .ok ()) : ∃ h, afterStep step = .ok h ∧ step.1 = h :=
  ⟨step.1, afterStep_eq_ok_iff.2 (Prod.ext rfl hok), rfl⟩

/-- **Every change apart from a merge is atomic.** -/
theorem isAtomic_apply {c : Change} (hc : ∀ other, c ≠ .merge other) : g.IsAtomic (g.apply c) := by
  cases c with
  | create m => exact g.isAtomic_tryCreate m
  | declare p => exact g.isAtomic_tryDeclare p
  | finish name m => exact g.isAtomic_tryFinish name m
  | merge other => exact absurd rfl (hc other)

theorem apply_eq_of_ne_ok {c : Change} (hc : ∀ other, c ≠ .merge other)
    (hfailed : (g.apply c).2 ≠ .ok ()) : (g.apply c).1 = g := by
  cases hresult : (g.apply c).2 with
  | ok u => exact absurd hresult hfailed
  | error e => exact isAtomic_apply hc e hresult

/-- **What a change can do.** A property of graphs is preserved by all changes when successful
changes and merges preserve it. -/
theorem apply_preserves {I : ModuleGraph → Prop} {c : Change} (hg : I g)
    (create : ∀ m h, c = .create m → g.create m = .ok h → I h)
    (declare : ∀ p h, c = .declare p → g.declare p = .ok h → I h)
    (finish : ∀ name m h, c = .finish name m → g.finish name m = .ok h → I h)
    (merge : ∀ other, c = .merge other → I (g.merge other).1) : I (g.apply c).1 := by
  have hstep : ∀ step : ModuleGraph × Except PlanError Unit, g.IsAtomic step →
      (∀ h, afterStep step = .ok h → I h) → I step.1 := by
    intro step atomic hok
    rcases atomic.cases with ⟨h, ⟨⟩, rfl⟩ | ⟨e, rfl⟩
    · exact hok h rfl
    · exact hg
  cases c with
  | create m => exact hstep _ (g.isAtomic_tryCreate m) fun h => create m h rfl
  | declare p => exact hstep _ (g.isAtomic_tryDeclare p) fun h => declare p h rfl
  | finish name m => exact hstep _ (g.isAtomic_tryFinish name m) fun h => finish name m h rfl
  | merge other => exact merge other rfl

/-! ## Finishing -/

theorem exists_declared_of_finish {name : String} (hf : g.finish name m = .ok h) :
    ∃ p, g.state? name = some (.declared p) := by
  unfold finish tryFinish at hf
  split at hf
  case h_1 => cases hf
  case h_2 => cases hf
  case h_3 p hp => exact ⟨p, hp⟩

/-- A placeholder can be finished under every name that is free. -/
theorem exists_finish_of_declared {name : String} (hp : g.state? name = some (.declared p))
    (hfree : g.uses m.name = false) : ∃ h, g.finish name m = .ok h := by
  rw [finish_of_declared hp, Outcome.exists_map_eq_ok_iff]
  exact ⟨_, create_eq_ok_iff.2 ⟨hfree, rfl⟩⟩

/-- An implementation that a graph holds may as well be the first one. -/
theorem Holds.exists_perm_of_state? (hold : g.Holds ms is) {name : String} {i : Implementation}
    (hi : g.state? name = some i) : ∃ rest, is.Perm ((name, i) :: rest) :=
  ⟨_, List.perm_cons_erase ((hold.state?_iff name i).1 hi)⟩

end InterfacePlan.ModuleGraph
