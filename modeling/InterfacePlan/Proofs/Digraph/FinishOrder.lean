import InterfacePlan.Proofs.Digraph.Reachability
/-!
# The order in which a search finishes nodes

A node is finished when everything behind it is. The exception is a node on a cycle with one that
the search is still busy with: what lies behind that one is finished later. So everything behind the
last node of a component is finished before that node, and a component with a cycle from which
another one can be reached is never the first to be completed.

## Main definitions

* `Digraph.Settled`: what is finished before a node
* `Digraph.Orderly`: states of a search in which finished nodes are settled

## Main results

* `Digraph.visit_orderly`: a search from a node keeps to the order
* `Digraph.mem_of_behind_last`: what lies behind the last node of a component is finished before it
* `Digraph.innermostCycle?_eq_some`: no other cycle lies behind the component that is found
-/

namespace InterfacePlan.Digraph

open Relation (ReflTransGen TransGen)

variable {g : Digraph}

/-! ## States of a search -/

/-- **Whether `n` is settled** by itself and the nodes finished earlier: they are all that lies
behind `n`, unless a further node shares a cycle with `n`. -/
def Settled (g : Digraph) (n : String) (earlier : List String) : Prop :=
  (∀ m, ReflTransGen g.Edge n m → m ∈ n :: earlier)
    ∨ ∃ k, k ∉ n :: earlier ∧ ReflTransGen g.Edge n k ∧ ReflTransGen g.Edge k n

/-- **A state of a search that keeps to the order**: nodes are met before they are finished, and
finished once; the search has met what finished nodes lead to; and every finished node was settled
by then. -/
structure Orderly (g : Digraph) (s : Search) : Prop where
  met : s.finished ⊆ s.met
  nodup : s.finished.Nodup
  closed : ∀ m ∈ s.finished, ∀ n, g.Edge m n → n ∈ s.met
  settled : ∀ n earlier, n :: earlier <:+ s.finished → g.Settled n earlier

/-- **The search is busy with a node** that it has met and not finished. -/
def Search.Busy (s : Search) (n : String) : Prop := n ∈ s.met ∧ n ∉ s.finished

variable {n : String} {ns : List String} {s t : Search}

/-- After a search, it is busy with the same nodes as before. -/
theorem Explored.busy (h : Explored g ns s t) (hs : s.finished ⊆ s.met) {k : String} :
    t.Busy k ↔ s.Busy k := by
  unfold Search.Busy
  rw [h.mem_finished]
  have := @h.met_subset k
  have := @hs k
  tauto

theorem orderly_empty : Orderly g {} where
  met := by simp
  nodup := List.nodup_nil
  closed := by simp
  settled := by simp

namespace Orderly

/-- A node is met. -/
theorem meet (h : Orderly g s) : Orderly g { s with met := n :: s.met } where
  met := fun _ hm => List.mem_cons_of_mem n (h.met hm)
  nodup := h.nodup
  closed := fun m hm k hk => List.mem_cons_of_mem n (h.closed m hm k hk)
  settled := h.settled

/-- **A node is finished** once everything behind its edges is explored, if the search met it on the
way from the nodes that it was busy with. -/
theorem finish (hs : Orderly g s) (hn : n ∉ s.met)
    (hbusy : ∀ k, s.Busy k → ReflTransGen g.Edge k n)
    (h : Explored g (g.successors n) { s with met := n :: s.met } t) (ht : Orderly g t) :
    Orderly g { t with finished := n :: t.finished } where
  met := List.cons_subset.2 ⟨h.met_subset (List.mem_cons_self ..), ht.met⟩
  nodup := by
    refine List.nodup_cons.2 ⟨?_, ht.nodup⟩
    have hnf : n ∉ s.finished := fun hmem => hn (hs.met hmem)
    simp [h.mem_finished, hnf]
  closed := by
    intro m hm k hk
    rcases List.mem_cons.1 hm with rfl | hm
    · exact h.roots_met k (mem_successors.2 hk)
    · exact ht.closed m hm k hk
  settled := by
    intro m earlier hsuffix
    rcases List.suffix_cons_iff.1 hsuffix with heq | hsuffix
    case inr => exact ht.settled m earlier hsuffix
    obtain ⟨rfl, rfl⟩ := List.cons.inj heq
    by_cases hcycle : ∃ k, s.Busy k ∧ ReflTransGen g.Edge m k
    · -- The search is still busy with a node behind `m`, from which it came to `m`.
      obtain ⟨k, hk, hmk⟩ := hcycle
      refine .inr ⟨k, ?_, hmk, hbusy k hk⟩
      have hkm : k ≠ m := fun heq => hn (heq ▸ hk.1)
      simp [h.mem_finished, hkm, hk.1, hk.2]
    · -- Otherwise no way from `m` leaves the nodes that are finished.
      refine .inl fun k hk => ?_
      induction hk with
      | refl => exact List.mem_cons_self ..
      | @tail a b hma hab ih =>
        have hmet : b ∈ t.met := by
          rcases List.mem_cons.1 ih with rfl | ha
          · exact h.roots_met b (mem_successors.2 hab)
          · exact ht.closed a ha b hab
        have hnotbusy : ¬s.Busy b := fun hb => hcycle ⟨b, hb, hma.tail hab⟩
        rw [List.mem_cons, h.mem_finished, List.mem_cons]
        unfold Search.Busy at hnotbusy
        tauto

end Orderly

/-! ## Runs of the search -/

/-- Searches from several nodes keep to the order, if each single search does. -/
theorem foldl_visit_orderly {fuel : Nat}
    (visit_explored : ∀ n ∈ g.nodes, ∀ s : Search, g.unmet s.met < fuel →
      Explored g [n] s (visit g fuel n s))
    (visit_orderly : ∀ n ∈ g.nodes, ∀ s : Search, g.unmet s.met < fuel → Orderly g s →
      (∀ k, s.Busy k → ReflTransGen g.Edge k n) → Orderly g (visit g fuel n s))
    (hns : ∀ n ∈ ns, n ∈ g.nodes) (hfuel : g.unmet s.met < fuel) (hs : Orderly g s)
    (hbusy : ∀ n ∈ ns, ∀ k, s.Busy k → ReflTransGen g.Edge k n) :
    Orderly g (ns.foldl (fun s n => visit g fuel n s) s) := by
  -- Induction on the nodes: after one search the same nodes are busy, so the next one may start.
  induction ns generalizing s with
  | nil => exact hs
  | cons n ns ih =>
    have hn : n ∈ g.nodes := hns n (List.mem_cons_self ..)
    have hexplored := visit_explored n hn s hfuel
    apply ih (fun m hm => hns m (List.mem_cons_of_mem _ hm))
    · exact lt_of_le_of_lt (unmet_anti hexplored.met_subset) hfuel
    · exact visit_orderly n hn s hfuel hs (hbusy n (List.mem_cons_self ..))
    · intro m hm k hk
      exact hbusy m (List.mem_cons_of_mem _ hm) k ((hexplored.busy hs.met).1 hk)

/-- **A search from a node keeps to the order**, if the node lies behind all that the search is busy
with. -/
theorem visit_orderly (hg : g.Closed) {fuel : Nat} (hn : n ∈ g.nodes)
    (hfuel : g.unmet s.met < fuel) (hs : Orderly g s)
    (hbusy : ∀ k, s.Busy k → ReflTransGen g.Edge k n) : Orderly g (visit g fuel n s) := by
  induction fuel generalizing n s with
  | zero => exact absurd hfuel (Nat.not_lt_zero _)
  | succ fuel ih =>
    unfold visit
    split
    case isTrue => exact hs
    case isFalse hmet =>
      have hnodes : ∀ m ∈ g.successors n, m ∈ g.nodes := fun m hm =>
        (hg n m (mem_successors.1 hm)).2
      have hfuel' : g.unmet (n :: s.met) < fuel := by
        have := unmet_cons_lt hn hmet
        omega
      -- Now the search is busy with `n` too, and the successors of `n` lie behind all of these.
      refine hs.finish hmet hbusy
        (foldl_visit_explored (fun m hm t ht => visit_explored hg hm ht) hnodes hfuel')
        (foldl_visit_orderly (fun m hm t ht => visit_explored hg hm ht)
          (fun m hm t ht => ih hm ht) hnodes hfuel' hs.meet ?_)
      intro m hm k hk
      refine ReflTransGen.tail ?_ (mem_successors.1 hm)
      rcases List.mem_cons.1 hk.1 with rfl | hks
      · exact .refl
      · exact hbusy k ⟨hks, hk.2⟩

theorem visitAll_orderly (hg : g.Closed) (hns : ∀ n ∈ ns, n ∈ g.nodes) :
    Orderly g (visitAll g ns {}) :=
  foldl_visit_orderly (fun _ hm _ ht => visit_explored hg hm ht)
    (fun _ hm _ ht hs => visit_orderly hg hm ht hs) hns (Nat.lt_succ_of_le (unmet_le _))
    orderly_empty (fun _ _ k hk => absurd hk.1 (by simp))

/-! ## The order of all nodes -/

variable {before after : List String} {m : String}

theorem nodup_finishOrder (hg : g.Closed) : g.finishOrder.Nodup :=
  List.nodup_reverse.2 (visitAll_orderly hg fun _ hn => hn).nodup

theorem settled_of_finishOrder (hg : g.Closed) (horder : g.finishOrder = before ++ n :: after) :
    g.Settled n before.reverse := by
  apply (visitAll_orderly hg (fun _ hn => hn : ∀ n ∈ g.nodes, n ∈ g.nodes)).settled
  rw [finishOrder, List.reverse_eq_iff] at horder
  rw [horder]
  simp

theorem mem_finishOrder_of_mem_component (hg : g.Closed) (h : m ∈ g.component n) :
    m ∈ g.finishOrder := by
  obtain ⟨_, hedge, -⟩ := TransGen.head'_iff.1 ((mem_component hg).1 h).2
  exact mem_finishOrder hg (hg m _ hedge).1

/-- **What lies behind the last node of a component** is finished before that node. -/
theorem mem_of_behind_last (hg : g.Closed) (horder : g.finishOrder = before ++ n :: after)
    (hlast : ∀ k ∈ after, k ∉ g.component n) (hnm : TransGen g.Edge n m) :
    m = n ∨ m ∈ before := by
  rcases settled_of_finishOrder hg horder with hall | ⟨k, hk, hnk, hkn⟩
  · simpa using hall m hnm.to_reflTransGen
  · -- A node on a cycle with `n` cannot be finished later.
    exfalso
    rw [List.mem_cons, List.mem_reverse, not_or] at hk
    obtain ⟨hne, hbefore⟩ := hk
    have hcomponent : k ∈ g.component n := (mem_component hg).2
      ⟨(Relation.reflTransGen_iff_eq_or_transGen.1 hnk).resolve_left hne,
        (Relation.reflTransGen_iff_eq_or_transGen.1 hkn).resolve_left (Ne.symm hne)⟩
    have hmem : k ∈ before ++ n :: after := horder ▸ mem_finishOrder_of_mem_component hg hcomponent
    exact hlast k (by grind) hcomponent

/-! ## The first component with a cycle -/

/-- The node that is found is the last of its component. -/
theorem exists_split_of_lastOnCycle? {earlier : List String}
    (h : g.lastOnCycle? earlier ns = some n) :
    ∃ before after, ns = before ++ n :: after ∧ ∀ k ∈ after, k ∉ g.component n := by
  induction ns generalizing earlier with
  | nil => simp [lastOnCycle?] at h
  | cons m ns ih =>
    unfold lastOnCycle? at h
    split at h
    case isTrue hm =>
      obtain rfl := Option.some.inj h
      simp only [Bool.and_eq_true, Bool.not_eq_true'] at hm
      exact ⟨[], ns, rfl, by simpa using List.any_eq_false.1 hm.2⟩
    case isFalse =>
      obtain ⟨before, after, rfl, hafter⟩ := ih h
      exact ⟨m :: before, after, rfl, hafter⟩

/-- **The component that is found** is that of a node on a cycle, and every cycle behind the node is
in the component. -/
theorem innermostCycle?_eq_some (hg : g.Closed) {names : List String}
    (h : g.innermostCycle? = some names) :
    ∃ n, TransGen g.Edge n n ∧ names = g.component n
      ∧ ∀ m, TransGen g.Edge n m → TransGen g.Edge m m → TransGen g.Edge m n := by
  obtain ⟨n, hfound, rfl⟩ := Option.map_eq_some_iff.1 h
  refine ⟨n, lastOnCycle?_onCycle hg hfound, rfl, fun m hnm hmm => ?_⟩
  by_contra hmn
  obtain ⟨before, after, horder, hlast⟩ := exists_split_of_lastOnCycle? hfound
  -- The last node on a cycle with `m` passes the tests too, and it is finished before `n`.
  obtain ⟨before', k, after', horder', hk, j, hj, hfound'⟩ := exists_lastOnCycle?_of_cycle hg hmm
  obtain ⟨hmk, hkm⟩ := (mem_component hg).1 hk
  obtain rfl : n = j := Option.some.inj (hfound.symm.trans hfound')
  have hkn : k ≠ n := fun heq => hmn (heq ▸ hmk)
  have hkb : k ∈ before := (mem_of_behind_last hg horder hlast (hnm.trans hmk)).resolve_left hkn
  have hnb : n ∈ before' := by simpa [hkn.symm] using hj
  -- So each of the two nodes would stand before the other one.
  have hnodup := nodup_finishOrder hg
  have hsplit := horder.symm.trans horder'
  rcases List.append_eq_append_iff.1 hsplit with ⟨between, rfl, -⟩ | ⟨between, rfl, -⟩
  · rw [horder'] at hnodup
    grind
  · rw [horder] at hnodup
    grind

end InterfacePlan.Digraph
