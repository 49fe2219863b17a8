import InterfacePlan.Proofs.ModuleGraph.Changes
/-!
# What graphs keep

Nothing is taken out of a graph, and nothing is overwritten, because every name is looked up among
modules and implementations before it is used. The only entry that ever changes is a placeholder,
when it is finished, and from then on it names the same library.

A merge that fails half-way is no exception: it checks each name before it moves what stands under
it.

## Main definitions

* `ModuleGraph.Extends`: a graph that holds all entries of another one, unchanged
* `ModuleGraph.Finishes`, `ModuleGraph.FinishedIn`: a change, or one of several, that finishes a
  placeholder
* `ModuleGraph.Respects`, `ModuleGraph.Retains`: what a change and what several changes leave of the
  contents of a graph

## Main results

* `ModuleGraph.extends_apply`: a change that finishes no placeholder only adds to a graph
* `ModuleGraph.respects`, `ModuleGraph.retains`: single steps and whole runs
* `ModuleGraph.entries_persist`: every step of every run
-/

namespace InterfacePlan.ModuleGraph

variable {g h k : ModuleGraph} {m : Module} {p : Placeholder} {name : String} {c : Change}
  {cs : List Change}

/-! ## Graphs that grow -/

/-- **A graph that holds all entries of another one**, unchanged. -/
structure Extends (g h : ModuleGraph) : Prop where
  modules : ∀ name m, g.module? name = some m → h.module? name = some m
  states : ∀ name i, g.state? name = some i → h.state? name = some i

namespace Extends

theorem refl (g : ModuleGraph) : g.Extends g := ⟨fun _ _ hm => hm, fun _ _ hi => hi⟩

theorem trans (hgh : g.Extends h) (hhk : h.Extends k) : g.Extends k where
  modules name m hm := hhk.modules name m (hgh.modules name m hm)
  states name i hi := hhk.states name i (hgh.states name i hi)

end Extends

theorem uses_of_module? (hm : g.module? name = some m) : g.uses name = true := by
  rw [uses, Bool.or_eq_true, SortedMap.contains_iff]
  exact .inl ⟨m, hm⟩

theorem uses_of_state? {i : Implementation} (hi : g.state? name = some i) : g.uses name = true := by
  rw [uses, Bool.or_eq_true, SortedMap.contains_iff, SortedMap.contains_iff]
  exact .inr ⟨i, hi⟩

section Insertions

variable (hfree : g.uses name = false)
include hfree

theorem extends_insertModule (m : Module) :
    g.Extends { g with modules := g.modules.insert name m } where
  modules other n hn := by
    have hne : name ≠ other := by
      rintro rfl
      rw [uses_of_module? hn] at hfree
      cases hfree
    refine (SortedMap.get?_insert g.modules name other m).trans ?_
    rw [if_neg hne]
    exact hn
  states _ _ hi := hi

theorem extends_insertImplementation (i : Implementation) :
    g.Extends { g with implementations := g.implementations.insert name i } where
  modules _ _ hm := hm
  states other j hj := by
    have hne : name ≠ other := by
      rintro rfl
      rw [uses_of_state? hj] at hfree
      cases hfree
    refine (SortedMap.get?_insert g.implementations name other i).trans ?_
    rw [if_neg hne]
    exact hj

end Insertions

/-! ## Changes that only add -/

theorem extends_create (hc : g.create m = .ok h) : g.Extends h := by
  obtain ⟨hfree, rfl⟩ := create_eq_ok_iff.1 hc
  exact extends_insertModule hfree m

theorem extends_declare (hd : g.declare p = .ok h) : g.Extends h := by
  obtain ⟨hfree, -, rfl⟩ := declare_eq_ok_iff.1 hd
  exact extends_insertImplementation hfree _

theorem extends_moveModules (g : ModuleGraph) (ms : List (String × Module)) :
    g.Extends (g.moveModules ms).1 := by
  induction ms generalizing g with
  | nil => exact .refl g
  | cons e ms ih =>
    rw [moveModules]
    split
    case h_1 => exact .refl g
    case h_2 hu =>
      have hfree := requireUnused_eq_ok_iff.1 hu
      exact (extends_insertModule hfree e.2).trans (ih _)

theorem extends_moveImplementations (g : ModuleGraph) (is : List (String × Implementation)) :
    g.Extends (g.moveImplementations is).1 := by
  induction is generalizing g with
  | nil => exact .refl g
  | cons e is ih =>
    rw [moveImplementations]
    split
    case h_1 => exact .refl g
    case h_2 hr =>
      obtain ⟨hfree, -⟩ := requireRoom_eq_ok_iff.1 hr
      exact (extends_insertImplementation hfree e.2).trans (ih _)

/-- **A merge only adds to a graph**, also when it fails half-way. -/
theorem extends_merge (g other : ModuleGraph) : g.Extends (g.merge other).1 := by
  have hmodules := g.extends_moveModules other.modules.toList
  rw [merge]
  split
  case h_1 k e hk =>
    rw [hk] at hmodules
    exact hmodules
  case h_2 k hk =>
    rw [hk] at hmodules
    exact hmodules.trans (k.extends_moveImplementations _)

/-! ## Finishing -/

/-- **A change that finishes the placeholder of a name**, with the library that it becomes. -/
def Finishes (g : ModuleGraph) (c : Change) (name : String) (m : Module) : Prop :=
  c = .finish name m ∧ (g.apply c).2 = .ok ()

theorem finishes_of_finish (hf : g.finish name m = .ok h) :
    g.Finishes (.finish name m) name m := by
  refine ⟨rfl, ?_⟩
  rw [apply, afterStep_eq_ok_iff.1 hf]

/-- What finishing does to a graph: the library is created first, and then the placeholder names
it. -/
theorem Finishes.exists_created (hf : g.Finishes c name m) :
    (∃ p, g.state? name = some (.declared p)) ∧ ∃ k, g.create m = .ok k
      ∧ (g.apply c).1
        = { k with implementations := k.implementations.insert name (.finished m.name) } := by
  obtain ⟨rfl, hok⟩ := hf
  obtain ⟨h, hh, heq⟩ := exists_afterStep_of_ok hok
  obtain ⟨p, hp⟩ := exists_declared_of_finish hh
  obtain ⟨k, hk, rfl⟩ := Outcome.map_eq_ok_iff.1 ((finish_of_declared hp).symm.trans hh)
  exact ⟨⟨p, hp⟩, k, hk, heq⟩

/-- **A change that finishes no placeholder only adds to a graph**, whether it succeeds or not. -/
theorem extends_apply (hc : ∀ name m, ¬g.Finishes c name m) : g.Extends (g.apply c).1 := by
  refine apply_preserves (.refl g) ?create ?declare ?finish ?merge
  case create => exact fun _ _ _ hcreate => extends_create hcreate
  case declare => exact fun _ _ _ hdeclare => extends_declare hdeclare
  case finish =>
    rintro name m h rfl hfinish
    exact absurd (finishes_of_finish hfinish) (hc name m)
  case merge => exact fun other _ => g.extends_merge other

/-! ## Single steps -/

/-- **What a change leaves of the contents of a graph.** -/
structure Respects (g : ModuleGraph) (c : Change) : Prop where
  /-- Modules stay, with all their properties. -/
  modules : ∀ name m, g.module? name = some m → (g.apply c).1.module? name = some m
  /-- Finished implementations stay finished, with the same library. -/
  finished : ∀ name library, g.state? name = some (.finished library) →
    (g.apply c).1.state? name = some (.finished library)
  /-- Placeholders stay as they are, unless it is they that the change finishes. -/
  declared : ∀ name p, g.state? name = some (.declared p) → (∀ m, ¬g.Finishes c name m) →
    (g.apply c).1.state? name = some (.declared p)
  /-- A placeholder that is finished becomes its library. -/
  becomes : ∀ name m, g.Finishes c name m →
    (g.apply c).1.state? name = some (.finished m.name) ∧ (g.apply c).1.module? m.name = some m
  /-- A change that fails leaves the graph as it is, unless it is a merge. -/
  unchanged : (g.apply c).2 ≠ .ok () → (∀ other, c ≠ .merge other) → (g.apply c).1 = g

/-- A change that finishes a placeholder leaves everything else as it is. -/
theorem Finishes.respects (hf : g.Finishes c name m) : g.Respects c := by
  obtain ⟨⟨p, hp⟩, k, hk, heq⟩ := hf.exists_created
  have hkeep := extends_create hk
  have hlibrary : k.module? m.name = some m := by
    obtain ⟨-, rfl⟩ := create_eq_ok_iff.1 hk
    exact SortedMap.get?_insert_self ..
  have hstate : ∀ other, (g.apply c).1.state? other
      = if name = other then some (.finished m.name) else k.state? other := by
    intro other
    rw [heq]
    exact SortedMap.get?_insert ..
  refine ⟨?modules, ?finished, ?declared, ?becomes, ?unchanged⟩
  case modules =>
    intro other n hn
    rw [heq]
    exact hkeep.modules other n hn
  case finished =>
    intro other library hi
    -- What is finished already is not the placeholder that this change finishes.
    have hne : name ≠ other := by
      rintro rfl
      rw [hp] at hi
      cases hi
    rw [hstate, if_neg hne]
    exact hkeep.states other _ hi
  case declared =>
    intro other q hq hother
    have hne : name ≠ other := by
      rintro rfl
      exact hother m hf
    rw [hstate, if_neg hne]
    exact hkeep.states other _ hq
  case becomes =>
    rintro other n ⟨hc, -⟩
    obtain ⟨rfl, rfl⟩ := Change.finish.inj (hf.1.symm.trans hc)
    rw [hstate, if_pos rfl, heq]
    exact ⟨rfl, hlibrary⟩
  case unchanged =>
    intro hfailed
    exact absurd hf.2 hfailed

/-- **Every change respects what a graph holds.** -/
theorem respects (g : ModuleGraph) (c : Change) : g.Respects c := by
  by_cases hc : ∃ name m, g.Finishes c name m
  · obtain ⟨name, m, hf⟩ := hc
    exact hf.respects
  · have hnone : ∀ name m, ¬g.Finishes c name m := fun name m hf => hc ⟨name, m, hf⟩
    have hkeep := extends_apply hnone
    refine ⟨hkeep.modules, ?finished, ?declared, ?becomes, ?unchanged⟩
    case finished => exact fun name library hi => hkeep.states name _ hi
    case declared => exact fun name p hp _ => hkeep.states name _ hp
    case becomes => exact fun name m hf => absurd hf (hnone name m)
    case unchanged => exact fun hfailed hmerge => apply_eq_of_ne_ok hmerge hfailed

/-! ## Runs -/

/-- A placeholder is finished by one of several changes. -/
def FinishedIn (g : ModuleGraph) : List Change → String → Prop
  | [], _ => False
  | c :: cs, name => (∃ m, g.Finishes c name m) ∨ (g.apply c).1.FinishedIn cs name

/-- **What several changes leave of the contents of a graph.** -/
structure Retains (g : ModuleGraph) (cs : List Change) : Prop where
  modules : ∀ name m, g.module? name = some m → (g.applyAll cs).module? name = some m
  finished : ∀ name library, g.state? name = some (.finished library) →
    (g.applyAll cs).state? name = some (.finished library)
  declared : ∀ name p, g.state? name = some (.declared p) → ¬g.FinishedIn cs name →
    (g.applyAll cs).state? name = some (.declared p)

/-- **Every run retains what a graph holds**, apart from placeholders that it finishes. -/
theorem retains (g : ModuleGraph) (cs : List Change) : g.Retains cs := by
  -- Induction on the changes: what the first one respects, the others retain.
  induction cs generalizing g with
  | nil => exact ⟨fun _ _ hm => hm, fun _ _ hi => hi, fun _ _ hp _ => hp⟩
  | cons c cs ih =>
    have hstep := g.respects c
    have hrest := ih (g.apply c).1
    refine ⟨?modules, ?finished, ?declared⟩
    case modules =>
      intro name m hm
      exact hrest.modules name m (hstep.modules name m hm)
    case finished =>
      intro name library hi
      exact hrest.finished name library (hstep.finished name library hi)
    case declared =>
      intro name p hp hopen
      obtain ⟨hfirst, hothers⟩ := not_or.1 hopen
      exact hrest.declared name p (hstep.declared name p hp (not_exists.1 hfirst)) hothers

theorem applyAll_append (g : ModuleGraph) (cs ds : List Change) :
    g.applyAll (cs ++ ds) = (g.applyAll cs).applyAll ds :=
  List.foldl_append

/-- A placeholder that was finished is not finished again, whatever happens in between. -/
theorem Finishes.not_finishes_applyAll (hf : g.Finishes c name m) (cs : List Change) (c' : Change)
    (m' : Module) : ¬(g.applyAll (c :: cs)).Finishes c' name m' := by
  intro hf'
  obtain ⟨⟨p, hp⟩, -⟩ := hf'.exists_created
  have hstate := ((g.apply c).1.retains cs).finished name m.name (hf.respects.becomes name m hf).1
  rw [show (g.apply c).1.applyAll cs = g.applyAll (c :: cs) from rfl, hp] at hstate
  cases hstate

/-- **Entries persist in every run**, whichever changes fail. At every step, modules and finished
implementations stay, and so do placeholders that the step does not finish; a step that fails
changes nothing unless it is a merge. What a graph holds at any time is therefore kept by all later
steps, and no placeholder is finished twice. -/
theorem entries_persist (g : ModuleGraph) (before after : List Change) (c : Change) :
    (g.applyAll before).Respects c
      ∧ (g.applyAll before).Retains (c :: after)
      ∧ ∀ name m c' m', (g.applyAll before).Finishes c name m →
          ¬(g.applyAll (before ++ c :: after)).Finishes c' name m' := by
  refine ⟨respects _ c, retains _ (c :: after), ?_⟩
  intro name m c' m' hf
  rw [applyAll_append]
  exact hf.not_finishes_applyAll after c' m'

end InterfacePlan.ModuleGraph
