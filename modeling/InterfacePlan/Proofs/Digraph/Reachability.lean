import Mathlib.Data.Finset.Card
import Mathlib.Logic.Relation
import InterfacePlan.Digraph.Search
/-!
# Reachability by depth-first search

The search has bounded fuel and a list of nodes met. With as much fuel as there are nodes it meets
exactly the nodes behind its start, so it decides which nodes lie on a cycle.

## Main definitions

* `Digraph.Edge`, `Digraph.Closed`: the edges as a relation, and graphs whose edges join nodes
* `Digraph.Explored`: what a search from some nodes adds to what was met before

## Main results

* `Digraph.visit_explored`: a search with enough fuel explores all that lies behind its start
* `Digraph.mem_reachable`: the nodes found are those to which a path leads
* `Digraph.isSome_innermostCycle?_iff`: a component with a cycle is found whenever there is a cycle
-/

namespace InterfacePlan.Digraph

open Relation (ReflTransGen TransGen)

variable {g : Digraph}

/-- The edges of a graph, as a relation. -/
def Edge (g : Digraph) (m n : String) : Prop := (m, n) ∈ g.edges

/-- A graph whose edges join its nodes. -/
def Closed (g : Digraph) : Prop := ∀ m n, g.Edge m n → m ∈ g.nodes ∧ n ∈ g.nodes

@[simp] theorem mem_successors {m n : String} : n ∈ g.successors m ↔ g.Edge m n := by
  simp [successors, Edge]

/-! ## Building graphs -/

@[simp] theorem mem_nodes_mention {m n : String} :
    m ∈ (g.mention n).nodes ↔ m ∈ g.nodes ∨ m = n := by
  unfold mention
  split <;> grind

@[simp] theorem edges_mention (n : String) : (g.mention n).edges = g.edges := by
  unfold mention
  split <;> rfl

@[simp] theorem mem_nodes_link {m s t : String} : m ∈ (g.link s t).nodes ↔ m ∈ g.nodes ∨ m = t := by
  unfold link
  dsimp only
  split <;> simp

@[simp] theorem edge_link {m n s t : String} :
    (g.link s t).Edge m n ↔ g.Edge m n ∨ m = s ∧ n = t := by
  unfold link Edge
  dsimp only
  split
  case isTrue h =>
    rw [edges_mention] at h ⊢
    constructor
    · exact .inl
    · rintro (h' | ⟨rfl, rfl⟩)
      · exact h'
      · exact h
  case isFalse => simp

theorem closed_mention {n : String} (hg : g.Closed) : (g.mention n).Closed := by
  intro a b h
  rw [Edge, edges_mention] at h
  obtain ⟨ha, hb⟩ := hg a b h
  exact ⟨mem_nodes_mention.2 (.inl ha), mem_nodes_mention.2 (.inl hb)⟩

theorem closed_link {s t : String} (hg : g.Closed) (hs : s ∈ g.nodes) : (g.link s t).Closed := by
  intro a b h
  rw [mem_nodes_link, mem_nodes_link]
  rcases edge_link.1 h with h | ⟨rfl, rfl⟩
  · exact ⟨.inl (hg a b h).1, .inl (hg a b h).2⟩
  · exact ⟨.inl hs, .inr rfl⟩

/-- Linking a node to several others adds exactly these edges and keeps the graph closed. -/
theorem linkAll_spec {s : String} {ts : List String} (hg : g.Closed) :
    (g.linkAll s ts).Closed ∧
      ∀ m n, (g.linkAll s ts).Edge m n ↔ g.Edge m n ∨ m = s ∧ n ∈ ts := by
  suffices h : ∀ (h : Digraph), h.Closed → s ∈ h.nodes →
      (ts.foldl (fun g t => g.link s t) h).Closed ∧
        ∀ m n, (ts.foldl (fun g t => g.link s t) h).Edge m n ↔ h.Edge m n ∨ m = s ∧ n ∈ ts by
    obtain ⟨hc, he⟩ := h (g.mention s) (closed_mention hg) (mem_nodes_mention.2 (.inr rfl))
    refine ⟨hc, fun m n => (he m n).trans ?_⟩
    rw [Edge, edges_mention, Edge]
  -- Induction on the targets: the graph stays closed, as its first edge starts from a node.
  induction ts with
  | nil => intro h hc _; simpa using hc
  | cons t ts ih =>
    intro h hc hs
    obtain ⟨hc', he⟩ := ih (h.link s t) (closed_link hc hs) (mem_nodes_link.2 (.inl hs))
    refine ⟨hc', fun m n => (he m n).trans ?_⟩
    rw [edge_link, List.mem_cons]
    tauto

theorem nodup_nodes_mention {n : String} (hg : g.nodes.Nodup) : (g.mention n).nodes.Nodup := by
  unfold mention
  split
  case isTrue => exact hg
  case isFalse h => exact List.concat_eq_append ▸ hg.concat h

theorem nodup_nodes_link {s t : String} (hg : g.nodes.Nodup) : (g.link s t).nodes.Nodup := by
  unfold link
  dsimp only
  split <;> exact nodup_nodes_mention hg

/-- Linking a node to several others mentions no node twice. -/
theorem nodup_nodes_linkAll {s : String} {ts : List String} (hg : g.nodes.Nodup) :
    (g.linkAll s ts).nodes.Nodup :=
  List.foldlRecOn (motive := fun g : Digraph => g.nodes.Nodup) ts _ (nodup_nodes_mention hg)
    fun _ hlinked _ _ => nodup_nodes_link hlinked

@[simp] theorem edge_reversed {m n : String} : g.reversed.Edge m n ↔ g.Edge n m := by
  simp [reversed, Edge]

theorem closed_reversed (hg : g.Closed) : g.reversed.Closed := fun m n h =>
  (hg n m (edge_reversed.1 h)).symm

theorem transGen_reversed {m n : String} : TransGen g.reversed.Edge m n ↔ TransGen g.Edge n m := by
  have h : g.reversed.Edge = Function.swap g.Edge := by
    ext a b
    exact edge_reversed
  rw [h, Relation.transGen_swap]

/-! ## What a search explores -/

/-- **What a search from `roots` adds**, from one state to a later one: the roots and only nodes
behind them are met, no edge leads from what was added to a node that is not met, and everything
added is finished. -/
structure Explored (g : Digraph) (roots : List String) (s t : Search) : Prop where
  met_subset : s.met ⊆ t.met
  roots_met : ∀ n ∈ roots, n ∈ t.met
  behind : ∀ n ∈ t.met, n ∉ s.met → ∃ root ∈ roots, ReflTransGen g.Edge root n
  closed : ∀ m ∈ t.met, m ∉ s.met → ∀ n, g.Edge m n → n ∈ t.met
  mem_finished : ∀ n, n ∈ t.finished ↔ n ∈ s.finished ∨ n ∈ t.met ∧ n ∉ s.met

namespace Explored

theorem nil (s : Search) : Explored g [] s s where
  met_subset := fun _ h => h
  roots_met := by simp
  behind := fun n h hn => absurd h hn
  closed := fun m h hm => absurd h hm
  mem_finished := by grind

theorem of_met {n : String} {s : Search} (h : n ∈ s.met) : Explored g [n] s s where
  met_subset := fun _ h => h
  roots_met := by simpa using h
  behind := fun n h hn => absurd h hn
  closed := fun m h hm => absurd h hm
  mem_finished := by grind

/-- One search after another. -/
theorem trans {m : String} {ns : List String} {s t u : Search} (h₁ : Explored g [m] s t)
    (h₂ : Explored g ns t u) : Explored g (m :: ns) s u where
  met_subset := fun _ h => h₂.met_subset (h₁.met_subset h)
  roots_met := by
    intro n hn
    rcases List.mem_cons.1 hn with rfl | hn
    · exact h₂.met_subset (h₁.roots_met n (List.mem_singleton.2 rfl))
    · exact h₂.roots_met n hn
  behind := by
    intro n hn hs
    by_cases ht : n ∈ t.met
    · -- What the first search met is behind its root, and all else is behind the later ones.
      obtain ⟨root, hroot, hpath⟩ := h₁.behind n ht hs
      obtain rfl := List.mem_singleton.1 hroot
      exact ⟨root, List.mem_cons_self .., hpath⟩
    · obtain ⟨root, hroot, hpath⟩ := h₂.behind n hn ht
      exact ⟨root, List.mem_cons_of_mem _ hroot, hpath⟩
  closed := by
    intro a ha hs b hab
    by_cases ht : a ∈ t.met
    · exact h₂.met_subset (h₁.closed a ht hs b hab)
    · exact h₂.closed a ha ht b hab
  mem_finished := by
    intro n
    rw [h₂.mem_finished, h₁.mem_finished]
    have := @h₁.met_subset n
    have := @h₂.met_subset n
    tauto

/-- Searching from a node that was not met: the node is met, then everything behind its edges is
explored, then the node is finished. -/
theorem node {n : String} {s t : Search} (hn : n ∉ s.met)
    (h : Explored g (g.successors n) { s with met := n :: s.met } t) :
    Explored g [n] s { t with finished := n :: t.finished } where
  met_subset := fun _ hm => h.met_subset (List.mem_cons_of_mem _ hm)
  roots_met := by
    intro m hm
    obtain rfl := List.mem_singleton.1 hm
    exact h.met_subset (List.mem_cons_self ..)
  behind := by
    intro m hm hs
    by_cases hmn : m = n
    · exact ⟨n, List.mem_singleton.2 rfl, hmn ▸ .refl⟩
    · obtain ⟨root, hroot, hpath⟩ := h.behind m hm (by simp [hmn, hs])
      exact ⟨n, List.mem_singleton.2 rfl, .head (mem_successors.1 hroot) hpath⟩
  closed := by
    intro a ha hs b hab
    by_cases han : a = n
    · exact h.roots_met b (mem_successors.2 (han ▸ hab))
    · exact h.closed a ha (by simp [han, hs]) b hab
  mem_finished := by
    intro m
    -- The node is met before its successors, so the search behind them does not finish it.
    have hmet : n ∈ t.met := h.met_subset (List.mem_cons_self ..)
    simp only [List.mem_cons, h.mem_finished m]
    by_cases hmn : m = n
    · subst hmn
      simp [hmet, hn]
    · simp [hmn]

end Explored

/-! ## Enough fuel -/

/-- The number of nodes that a search has not met. -/
def unmet (g : Digraph) (met : List String) : Nat := (g.nodes.toFinset \ met.toFinset).card

theorem unmet_anti {met met' : List String} (h : met ⊆ met') : g.unmet met' ≤ g.unmet met := by
  apply Finset.card_le_card
  apply Finset.sdiff_subset_sdiff le_rfl
  intro n hn
  rw [List.mem_toFinset] at hn ⊢
  exact h hn

theorem unmet_cons_lt {n : String} {met : List String} (hn : n ∈ g.nodes) (h : n ∉ met) :
    g.unmet (n :: met) < g.unmet met := by
  refine Finset.card_lt_card (Finset.ssubset_iff_of_subset ?_ |>.2 ⟨n, ?_, ?_⟩)
  · exact Finset.sdiff_subset_sdiff le_rfl (by simp)
  · simp [hn, h]
  · simp

theorem unmet_le (met : List String) : g.unmet met ≤ g.nodes.length :=
  (Finset.card_le_card Finset.sdiff_subset).trans (List.toFinset_card_le _)

/-- Searches from several nodes explore all of them, if each single search does. -/
theorem foldl_visit_explored {fuel : Nat}
    (visit_explored : ∀ n ∈ g.nodes, ∀ s : Search, g.unmet s.met < fuel →
      Explored g [n] s (visit g fuel n s))
    {ns : List String} (hns : ∀ n ∈ ns, n ∈ g.nodes) {s : Search} (hs : g.unmet s.met < fuel) :
    Explored g ns s (ns.foldl (fun s n => visit g fuel n s) s) := by
  -- Induction on the nodes: one search leaves at most as many nodes unmet, so the fuel suffices for
  -- the next one.
  induction ns generalizing s with
  | nil => exact .nil s
  | cons n ns ih =>
    have hn := visit_explored n (hns n (List.mem_cons_self ..)) s hs
    refine hn.trans (ih (fun m hm => hns m (List.mem_cons_of_mem _ hm)) ?_)
    exact lt_of_le_of_lt (unmet_anti hn.met_subset) hs

/-- **A search with fuel for every node that is not met** explores all that lies behind its
start. -/
theorem visit_explored (hg : g.Closed) {fuel : Nat} {n : String} (hn : n ∈ g.nodes) {s : Search}
    (hs : g.unmet s.met < fuel) : Explored g [n] s (visit g fuel n s) := by
  induction fuel generalizing n s with
  | zero => exact absurd hs (Nat.not_lt_zero _)
  | succ fuel ih =>
    unfold visit
    split
    case isTrue h => exact .of_met h
    case isFalse h =>
      -- Meeting `n` uses up one node, which pays for the step into its successors.
      have hfuel : g.unmet (n :: s.met) < fuel := by
        have := unmet_cons_lt hn h
        omega
      refine Explored.node h (foldl_visit_explored (fun m hm t ht => ih hm ht) ?_ hfuel)
      intro m hm
      exact (hg n m (mem_successors.1 hm)).2

theorem visitAll_explored (hg : g.Closed) {ns : List String} (hns : ∀ n ∈ ns, n ∈ g.nodes) :
    Explored g ns {} (visitAll g ns {}) :=
  foldl_visit_explored (fun _ hn _ hs => visit_explored hg hn hs) hns
    (Nat.lt_succ_of_le (unmet_le _))

/-! ## Paths and components -/

/-- **The nodes that are found behind `m` are those to which a path of at least one edge leads.** -/
theorem mem_reachable (hg : g.Closed) {m n : String} :
    n ∈ g.reachable m ↔ TransGen g.Edge m n := by
  have h : Explored g (g.successors m) {} (visitAll g (g.successors m) {}) :=
    visitAll_explored hg fun n hn => (hg m n (mem_successors.1 hn)).2
  constructor
  · intro hn
    obtain ⟨root, hroot, hpath⟩ := h.behind n hn (by simp)
    exact TransGen.head' (mem_successors.1 hroot) hpath
  · intro hpath
    -- Induction on the path: no edge leads out of what was met.
    induction hpath with
    | single hedge => exact h.roots_met _ (mem_successors.2 hedge)
    | tail _ hedge ih => exact h.closed _ ih (by simp) _ hedge

theorem reaches_iff (hg : g.Closed) {m n : String} :
    g.reaches m n = true ↔ TransGen g.Edge m n := by
  rw [reaches, List.contains_iff_mem, mem_reachable hg]

theorem mem_component (hg : g.Closed) {m n : String} :
    n ∈ g.component m ↔ TransGen g.Edge m n ∧ TransGen g.Edge n m := by
  simp only [component, List.mem_filter, Bool.and_eq_true, List.contains_iff_mem, mem_reachable hg,
    mem_reachable (closed_reversed hg), transGen_reversed, and_iff_right_iff_imp]
  rintro ⟨hmn, -⟩
  obtain ⟨k, -, hedge⟩ := TransGen.tail'_iff.1 hmn
  exact (hg k n hedge).2

theorem mem_finishOrder (hg : g.Closed) {n : String} (hn : n ∈ g.nodes) : n ∈ g.finishOrder := by
  have h : Explored g g.nodes {} (visitAll g g.nodes {}) := visitAll_explored hg fun n hn => hn
  rw [finishOrder, List.mem_reverse, h.mem_finished]
  exact .inr ⟨h.roots_met n hn, by simp⟩

/-! ## Cycles -/

theorem lastOnCycle?_onCycle (hg : g.Closed) {earlier ns : List String} {n : String}
    (h : g.lastOnCycle? earlier ns = some n) : TransGen g.Edge n n := by
  induction ns generalizing earlier with
  | nil => simp [lastOnCycle?] at h
  | cons m ns ih =>
    unfold lastOnCycle? at h
    split at h
    case isTrue hm =>
      obtain rfl := Option.some.inj h
      simp only [Bool.and_eq_true] at hm
      exact (reaches_iff hg).1 hm.1.2
    case isFalse => exact ih h

/-- The last node of a list with a property. -/
theorem exists_last {p : String → Prop} {ns : List String} (h : ∃ n ∈ ns, p n) :
    ∃ earlier n later, ns = earlier ++ n :: later ∧ p n ∧ ∀ m ∈ later, ¬p m := by
  induction ns with
  | nil => simp at h
  | cons k ns ih =>
    by_cases hns : ∃ n ∈ ns, p n
    · obtain ⟨earlier, n, later, rfl, hn, hlater⟩ := ih hns
      exact ⟨k :: earlier, n, later, rfl, hn, hlater⟩
    · obtain ⟨n, hn, hp⟩ := h
      rcases List.mem_cons.1 hn with rfl | hn
      · exact ⟨[], n, ns, rfl, hp, fun m hm hpm => hns ⟨m, hm, hpm⟩⟩
      · exact absurd ⟨n, hn, hp⟩ hns

/-- A node that passes the tests of `lastOnCycle?` is found, unless an earlier one is. -/
theorem exists_lastOnCycle? {earlier before after : List String} {n : String}
    (hentered : g.isEntered (n :: (before.reverse ++ earlier)) n = true)
    (hcycle : g.reaches n n = true) (hlast : after.any (g.component n).contains = false) :
    ∃ k ∈ before ++ [n], g.lastOnCycle? earlier (before ++ n :: after) = some k := by
  induction before generalizing earlier with
  | nil =>
    simp only [List.reverse_nil, List.nil_append] at hentered ⊢
    simp [lastOnCycle?, hentered, hcycle, hlast]
  | cons k before ih =>
    rw [List.cons_append, List.cons_append, lastOnCycle?]
    split
    case isTrue => exact ⟨k, by simp, rfl⟩
    case isFalse =>
      obtain ⟨j, hj, hfound⟩ := ih (by simpa using hentered)
      exact ⟨j, List.mem_cons_of_mem k hj, hfound⟩

/-- Of the nodes on a cycle with `k`, the one that is finished last is found, unless an earlier one
is. -/
theorem exists_lastOnCycle?_of_cycle (hg : g.Closed) {k : String} (hk : TransGen g.Edge k k) :
    ∃ before n after, g.finishOrder = before ++ n :: after ∧ n ∈ g.component k
      ∧ ∃ j ∈ before ++ [n], g.lastOnCycle? [] g.finishOrder = some j := by
  have mem_order : ∀ n, TransGen g.Edge n k → n ∈ g.finishOrder := fun n hn => by
    obtain ⟨m, hedge, -⟩ := TransGen.head'_iff.1 hn
    exact mem_finishOrder hg (hg n m hedge).1
  obtain ⟨before, n, after, horder, hn, hafter⟩ :=
    exists_last (p := (· ∈ g.component k)) ⟨k, mem_order k hk, (mem_component hg).2 ⟨hk, hk⟩⟩
  obtain ⟨hkn, hnk⟩ := (mem_component hg).1 hn
  refine ⟨before, n, after, horder, hn, ?_⟩
  rw [horder]
  refine exists_lastOnCycle? ?_ ((reaches_iff hg).2 (hnk.trans hkn)) ?_
  · -- The edge into `n` on its cycle comes from a node that is not finished later.
    obtain ⟨m, hnm, hedge⟩ := TransGen.tail'_iff.1 (hnk.trans hkn)
    have hm : m ∈ g.component k := (mem_component hg).2 ⟨hkn.trans_left hnm, .head hedge hnk⟩
    have hmem : m ∈ before ++ n :: after := horder ▸ mem_order m (.head hedge hnk)
    refine List.any_eq_true.2 ⟨(m, n), hedge, ?_⟩
    have := hafter m
    grind
  · apply List.any_eq_false.2
    intro m hm hc
    apply hafter m hm
    obtain ⟨hnm, hmn⟩ := (mem_component hg).1 (List.contains_iff_mem.1 hc)
    exact (mem_component hg).2 ⟨hkn.trans hnm, hmn.trans hnk⟩

/-- **A component with a cycle is found whenever there is a cycle.** -/
theorem isSome_innermostCycle?_iff (hg : g.Closed) :
    g.innermostCycle?.isSome = true ↔ ∃ n, TransGen g.Edge n n := by
  rw [innermostCycle?, Option.isSome_map]
  constructor
  · intro h
    obtain ⟨n, hn⟩ := Option.isSome_iff_exists.1 h
    exact ⟨n, lastOnCycle?_onCycle hg hn⟩
  · rintro ⟨k, hk⟩
    obtain ⟨_, _, _, -, -, j, -, hfound⟩ := exists_lastOnCycle?_of_cycle hg hk
    exact Option.isSome_iff_exists.2 ⟨j, hfound⟩

end InterfacePlan.Digraph
