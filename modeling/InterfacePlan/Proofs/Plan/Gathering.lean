import InterfacePlan.Plan.Basic
import InterfacePlan.Proofs.Library.Answers
/-!
# Gathering drafts

Drafts are made request by request, and gathered interface by interface. What is known at any time
are the requests that were dealt with: each of them could be answered, the graph holds exactly the
answers, and the requests without sources are listed. It goes on like this as long as the names of
the answers are different.

## Main definitions

* `Request.hasSources`, `Request.lacksSources`: which requests are answered and which are skipped
* `Request.answers`, `Registry.requests`: the answer to a request, if any, and all requests
* `AccountsFor`: a graph and a list of skipped requests that result from some requests

## Main results

* `AccountsFor.answerAll`, `AccountsFor.gather`: what a draft and the gathered drafts account for
* `AccountsFor.exists_answerAll`, `exists_gather`: when a draft and the gathered drafts exist
-/

namespace InterfacePlan

namespace Request

variable {settings : Settings} {w : WorkingTree} {q : Request} {a : Answer}

/-- Whether there are sources to answer a request from. -/
def hasSources (settings : Settings) (w : WorkingTree) (q : Request) : Bool :=
  match Sources.select settings w q.interface q.version with
  | .ok sources => !sources.isEmpty
  | .error _ => false

/-- Whether the sources of a request are found, and are none. -/
def lacksSources (settings : Settings) (w : WorkingTree) (q : Request) : Bool :=
  match Sources.select settings w q.interface q.version with
  | .ok sources => sources.isEmpty
  | .error _ => false

/-- The answer to a request, if it has one. -/
def answers (settings : Settings) (w : WorkingTree) (q : Request) : List Answer :=
  match q.answer settings w with
  | .ok (some a) => [a]
  | _ => []

theorem mem_answers_iff : a ∈ q.answers settings w ↔ q.answer settings w = .ok (some a) := by
  unfold answers
  split
  case h_1 b hb => simp [hb, eq_comm]
  case h_2 h => simpa using h a

theorem answers_eq_nil (h : q.answer settings w = .ok none) : q.answers settings w = [] := by
  rw [answers, h]

theorem answers_eq_singleton (h : q.answer settings w = .ok (some a)) :
    q.answers settings w = [a] := by
  rw [answers, h]

theorem hasSources_iff : q.hasSources settings w = true ↔
    ∃ sources, Sources.select settings w q.interface q.version = .ok sources
      ∧ sources.isEmpty = false := by
  unfold hasSources
  cases Sources.select settings w q.interface q.version <;> simp

theorem lacksSources_iff : q.lacksSources settings w = true ↔ q.answer settings w = .ok none := by
  rw [answer_eq_none_iff, lacksSources]
  cases Sources.select settings w q.interface q.version <;> simp

theorem lacksSources_of_some (h : q.answer settings w = .ok (some a)) :
    q.lacksSources settings w = false := by
  rw [← Bool.not_eq_true, lacksSources_iff, h]
  simp

theorem hasSources_of_some (h : q.answer settings w = .ok (some a)) :
    q.hasSources settings w = true := by
  obtain ⟨sources, hs, he, -⟩ := answer_eq_some_iff.1 h
  exact hasSources_iff.2 ⟨sources, hs, he⟩

/-- A request that can be answered has an answer if there are sources. -/
theorem exists_answer_of_hasSources (h : ∃ o, q.answer settings w = .ok o)
    (hs : q.hasSources settings w = true) : ∃ a, q.answer settings w = .ok (some a) := by
  obtain ⟨_ | a, ho⟩ := h
  · obtain ⟨sources, hsel, he⟩ := answer_eq_none_iff.1 ho
    rw [hasSources, hsel] at hs
    simp [he] at hs
  · exact ⟨a, ho⟩

end Request

/-- The answers to several requests, in order. -/
def answersTo (settings : Settings) (w : WorkingTree) (qs : List Request) : List Answer :=
  qs.flatMap (Request.answers settings w)

/-- All requests, in the order in which they are made. -/
def Registry.requests (r : Registry) (settings : Settings) : List Request :=
  r.interfaces.flatMap fun i => i.requests settings

/-- **A graph and a list of skipped requests that result from some requests.** -/
structure AccountsFor (settings : Settings) (w : WorkingTree) (qs : List Request)
    (g : ModuleGraph) (skipped : List SkippedRequest) : Prop where
  answered : ∀ q ∈ qs, ∃ o, q.answer settings w = .ok o
  holds : g.Holds ((answersTo settings w qs).flatMap Answer.modules)
    ((answersTo settings w qs).flatMap Answer.implementations)
  skipped_eq : skipped = (qs.filter (Request.lacksSources settings w)).map Request.skipped

/-- The names that the answers to requests need. -/
def namesFor (settings : Settings) (w : WorkingTree) (qs : List Request) : List String :=
  (answersTo settings w qs).flatMap Answer.names

section Lists

variable {settings : Settings} {w : WorkingTree} {q : Request} {qs rs : List Request} {a : Answer}

theorem answersTo_append :
    answersTo settings w (qs ++ rs) = answersTo settings w qs ++ answersTo settings w rs :=
  List.flatMap_append

theorem answersTo_singleton : answersTo settings w [q] = q.answers settings w :=
  List.flatMap_singleton ..

theorem namesFor_append :
    namesFor settings w (qs ++ rs) = namesFor settings w qs ++ namesFor settings w rs := by
  rw [namesFor, answersTo_append, List.flatMap_append]
  rfl

theorem namesFor_singleton (h : q.answer settings w = .ok (some a)) :
    namesFor settings w [q] = a.names := by
  rw [namesFor, answersTo_singleton, Request.answers_eq_singleton h, List.flatMap_singleton]

theorem nodup_namesFor_left (h : (namesFor settings w (qs ++ rs)).Nodup) :
    (namesFor settings w qs).Nodup := by
  rw [namesFor_append] at h
  exact (List.nodup_append.1 h).1

theorem nodup_namesFor_right (h : (namesFor settings w (qs ++ rs)).Nodup) :
    (namesFor settings w rs).Nodup := by
  rw [namesFor_append] at h
  exact (List.nodup_append.1 h).2.1

theorem mem_answersTo_iff :
    a ∈ answersTo settings w qs ↔ ∃ q ∈ qs, q.answer settings w = .ok (some a) := by
  simp [answersTo, Request.mem_answers_iff]

end Lists

namespace AccountsFor

variable {settings : Settings} {w : WorkingTree} {q : Request} {qs rs : List Request}
  {a : Answer} {g h k : ModuleGraph} {skipped skipped' : List SkippedRequest} {d d' : Draft}

theorem nil : AccountsFor settings w [] ∅ [] where
  answered _ hq := absurd hq List.not_mem_nil
  holds := .empty
  skipped_eq := rfl

/-- A draft starts with nothing. -/
theorem empty : AccountsFor settings w [] ({} : Draft).graph ({} : Draft).skipped := nil

/-! ## One more request -/

theorem skip (acc : AccountsFor settings w qs g skipped) (hq : q.answer settings w = .ok none) :
    AccountsFor settings w (qs ++ [q]) g (skipped ++ [q.skipped]) where
  answered p hp := by
    rcases List.mem_append.1 hp with hp | hp
    · exact acc.answered p hp
    · rw [List.mem_singleton.1 hp]
      exact ⟨none, hq⟩
  holds := by
    rw [answersTo_append, answersTo_singleton, Request.answers_eq_nil hq, List.append_nil]
    exact acc.holds
  skipped_eq := by
    rw [acc.skipped_eq, List.filter_append, List.map_append,
      List.filter_cons_of_pos (Request.lacksSources_iff.2 hq)]
    rfl

theorem enter (acc : AccountsFor settings w qs g skipped)
    (hq : q.answer settings w = .ok (some a)) (he : g.enter a = .ok h) :
    AccountsFor settings w (qs ++ [q]) h skipped where
  answered p hp := by
    rcases List.mem_append.1 hp with hp | hp
    · exact acc.answered p hp
    · rw [List.mem_singleton.1 hp]
      exact ⟨some a, hq⟩
  holds := by
    rw [answersTo_append, answersTo_singleton, Request.answers_eq_singleton hq,
      List.flatMap_append, List.flatMap_append, List.flatMap_singleton, List.flatMap_singleton]
    -- A graph has its new contents in front, and the requests have the new one at the end.
    exact (acc.holds.enter he).perm List.perm_append_comm List.perm_append_comm
  skipped_eq := by
    rw [acc.skipped_eq, List.filter_append,
      List.filter_cons_of_neg (by simp [Request.lacksSources_of_some hq]), List.filter_nil,
      List.append_nil]

/-- The names that a graph takes are names of the answers that it holds. -/
theorem mem_namesFor (acc : AccountsFor settings w qs g skipped) {name : String}
    (hname : g.uses name = true) : name ∈ namesFor settings w qs := by
  rw [namesFor, (Answer.flatMap_names_perm _).mem_iff]
  exact List.mem_append_right _ (acc.holds.uses_iff.1 hname)

/-- An answer can be entered as long as names are different. -/
theorem exists_enter (acc : AccountsFor settings w qs g skipped)
    (hq : q.answer settings w = .ok (some a)) (hn : (namesFor settings w (qs ++ [q])).Nodup) :
    ∃ h, g.enter a = .ok h := by
  rw [namesFor_append, namesFor_singleton hq, List.nodup_append] at hn
  -- A name that the graph takes belongs to an earlier answer, so the new one does not need it.
  obtain ⟨-, hnames, hdisjoint⟩ := hn
  apply acc.holds.exists_enter hnames
  intro name hname hused
  exact hdisjoint name (acc.mem_namesFor (acc.holds.uses_iff.2 hused)) name hname rfl

/-! ## Drafts -/

/-- What a draft accounts for after one more request. -/
theorem answer (acc : AccountsFor settings w qs d.graph d.skipped)
    (hstep : d.answer settings w q = (d', .ok ())) :
    AccountsFor settings w (qs ++ [q]) d'.graph d'.skipped := by
  unfold Draft.answer at hstep
  split at hstep
  case h_1 g product hd =>
    obtain ⟨rfl, -⟩ := Prod.mk.inj hstep
    rcases ModuleGraph.dispatch_eq_ok_iff.1 hd with ⟨-, -, hx⟩ | ⟨a, hq, he, -⟩
    · cases hx
    · exact acc.enter hq he
  case h_2 g hd =>
    obtain ⟨rfl, -⟩ := Prod.mk.inj hstep
    rcases ModuleGraph.dispatch_eq_ok_iff.1 hd with ⟨hq, rfl, -⟩ | ⟨a, -, -, hx⟩
    · exact acc.skip hq
    · cases hx
  case h_3 => cases (Prod.mk.inj hstep).2

theorem exists_answer (acc : AccountsFor settings w qs d.graph d.skipped)
    (hq : ∃ o, q.answer settings w = .ok o) (hn : (namesFor settings w (qs ++ [q])).Nodup) :
    ∃ d', d.answer settings w q = (d', .ok ()) := by
  obtain ⟨_ | a, hq⟩ := hq
  · have hd : d.graph.dispatch settings w q = (d.graph, .ok none) :=
      ModuleGraph.dispatch_eq_ok_iff.2 (.inl ⟨hq, rfl, rfl⟩)
    rw [Draft.answer, hd]
    exact ⟨_, rfl⟩
  · obtain ⟨h, he⟩ := acc.exists_enter hq hn
    have hd : d.graph.dispatch settings w q = (h, .ok (some a.product.name)) :=
      ModuleGraph.dispatch_eq_ok_iff.2 (.inr ⟨a, hq, he, rfl⟩)
    rw [Draft.answer, hd]
    exact ⟨_, rfl⟩

/-- **What a draft accounts for after more requests.** -/
theorem answerAll (acc : AccountsFor settings w qs d.graph d.skipped)
    (hrun : d.answerAll settings w rs = (d', .ok ())) :
    AccountsFor settings w (qs ++ rs) d'.graph d'.skipped := by
  -- Induction on the further requests; the draft so far accounts for one more at every step.
  induction rs generalizing d qs with
  | nil =>
    obtain ⟨rfl, -⟩ := Prod.mk.inj hrun
    rwa [List.append_nil]
  | cons q rs ih =>
    rw [Draft.answerAll] at hrun
    split at hrun
    case h_1 => cases (Prod.mk.inj hrun).2
    case h_2 e hstep =>
      rw [List.append_cons]
      exact ih (acc.answer hstep) hrun

/-- More requests can be answered as long as names are different. -/
theorem exists_answerAll (acc : AccountsFor settings w qs d.graph d.skipped)
    (hrs : ∀ q ∈ rs, ∃ o, q.answer settings w = .ok o)
    (hn : (namesFor settings w (qs ++ rs)).Nodup) :
    ∃ d', d.answerAll settings w rs = (d', .ok ()) := by
  induction rs generalizing d qs with
  | nil => exact ⟨d, rfl⟩
  | cons q rs ih =>
    rw [List.append_cons] at hn
    obtain ⟨e, hstep⟩ :=
      acc.exists_answer (hrs q (List.mem_cons_self ..)) (nodup_namesFor_left hn)
    rw [Draft.answerAll, hstep]
    exact ih (acc.answer hstep) (fun p hp => hrs p (List.mem_cons_of_mem _ hp)) hn

/-! ## Gathered drafts -/

/-- What two graphs account for after they were merged. -/
theorem merge (acc : AccountsFor settings w qs g skipped)
    (acc' : AccountsFor settings w rs h skipped') (hm : g.merge h = (k, .ok ())) :
    AccountsFor settings w (qs ++ rs) k (skipped ++ skipped') where
  answered p hp := by
    rcases List.mem_append.1 hp with hp | hp
    · exact acc.answered p hp
    · exact acc'.answered p hp
  holds := by
    rw [answersTo_append, List.flatMap_append, List.flatMap_append]
    exact (acc.holds.merge acc'.holds hm).perm List.perm_append_comm List.perm_append_comm
  skipped_eq := by
    rw [acc.skipped_eq, acc'.skipped_eq, List.filter_append, List.map_append]

theorem exists_merge (acc : AccountsFor settings w qs g skipped)
    (acc' : AccountsFor settings w rs h skipped')
    (hn : (namesFor settings w (qs ++ rs)).Nodup) : ∃ k, g.merge h = (k, .ok ()) := by
  -- The merged graph lists the second one first, so the requests are taken in this order.
  have hperm := Answer.flatMap_names_perm (answersTo settings w rs ++ answersTo settings w qs)
  have hn' : ((answersTo settings w rs ++ answersTo settings w qs).flatMap Answer.names).Nodup := by
    rw [namesFor, answersTo_append] at hn
    exact ((List.perm_append_comm).flatMap_right _).nodup_iff.1 hn
  rw [hperm.nodup_iff, List.nodup_append] at hn'
  obtain ⟨-, hused, hdisjoint⟩ := hn'
  simp only [List.flatMap_append] at hused hdisjoint
  apply acc.holds.exists_merge acc'.holds hused
  intro j hj library hawaited hmem
  obtain ⟨a, ha, hj⟩ := List.mem_flatMap.1 hj
  obtain ⟨p, hp, rfl⟩ := List.mem_map.1 hj
  obtain rfl : p.library.name = library := Option.some.inj hawaited
  refine hdisjoint p.library.name ?_ p.library.name hmem rfl
  rw [List.map_append, List.mem_append]
  exact .inl (List.mem_map.2 ⟨p, List.mem_flatMap.2 ⟨a, ha, hp⟩, rfl⟩)

/-- **What the draft of an interface accounts for.** -/
theorem ofInterface {i : Interface} (hd : Draft.ofInterface settings w i = (d, .ok ())) :
    AccountsFor settings w (i.requests settings) d.graph d.skipped := by
  rw [← List.nil_append (i.requests settings)]
  exact empty.answerAll hd

/-- What a plan accounts for after one more draft. -/
theorem add {p p' : Plan} {i : Interface} (acc : AccountsFor settings w qs p.graph p.skipped)
    (hadd : p.add (Draft.ofInterface settings w i) = .ok p') :
    AccountsFor settings w (qs ++ i.requests settings) p'.graph p'.skipped := by
  unfold Plan.add at hadd
  split at hadd
  case h_1 => cases hadd
  case h_2 d hd =>
    split at hadd
    case h_1 => cases hadd
    case h_2 k hm =>
      obtain rfl := Except.ok.inj hadd
      exact acc.merge (ofInterface hd) hm

theorem exists_add {p : Plan} {i : Interface} (acc : AccountsFor settings w qs p.graph p.skipped)
    (hi : ∀ q ∈ i.requests settings, ∃ o, q.answer settings w = .ok o)
    (hn : (namesFor settings w (qs ++ i.requests settings)).Nodup) :
    ∃ p', p.add (Draft.ofInterface settings w i) = .ok p' := by
  obtain ⟨d, hd⟩ := empty.exists_answerAll hi (nodup_namesFor_right hn)
  have hi : Draft.ofInterface settings w i = (d, .ok ()) := hd
  obtain ⟨k, hm⟩ := acc.exists_merge (ofInterface hi) hn
  rw [hi, Plan.add, hm]
  exact ⟨_, rfl⟩

theorem addAll {p p' : Plan} {is : List Interface}
    (acc : AccountsFor settings w qs p.graph p.skipped)
    (hrun : (is.map (Draft.ofInterface settings w)).foldlM Plan.add p = .ok p') :
    AccountsFor settings w (qs ++ is.flatMap fun i => i.requests settings) p'.graph
      p'.skipped := by
  -- Induction on the interfaces, as before on the requests for one of them.
  induction is generalizing p qs with
  | nil =>
    obtain rfl := Except.ok.inj hrun
    simpa using acc
  | cons i is ih =>
    rw [List.map_cons, List.foldlM_cons] at hrun
    obtain ⟨p₁, hadd, hrun⟩ := Outcome.bind_eq_ok_iff.1 hrun
    rw [List.flatMap_cons, ← List.append_assoc]
    exact ih (acc.add hadd) hrun

theorem exists_addAll {p : Plan} {is : List Interface}
    (acc : AccountsFor settings w qs p.graph p.skipped)
    (his : ∀ i ∈ is, ∀ q ∈ i.requests settings, ∃ o, q.answer settings w = .ok o)
    (hn : (namesFor settings w (qs ++ is.flatMap fun i => i.requests settings)).Nodup) :
    ∃ p', (is.map (Draft.ofInterface settings w)).foldlM Plan.add p = .ok p' := by
  induction is generalizing p qs with
  | nil => exact ⟨p, rfl⟩
  | cons i is ih =>
    rw [List.flatMap_cons, ← List.append_assoc] at hn
    obtain ⟨p₁, hadd⟩ :=
      acc.exists_add (his i (List.mem_cons_self ..)) (nodup_namesFor_left hn)
    obtain ⟨p', hrun⟩ := ih (acc.add hadd) (fun j hj => his j (List.mem_cons_of_mem _ hj)) hn
    rw [List.map_cons, List.foldlM_cons]
    exact ⟨p', Outcome.bind_eq_ok_iff.2 ⟨p₁, hadd, hrun⟩⟩

/-- **What the gathered drafts account for**: all requests. -/
theorem gather {r : Registry} {p : Plan} (hp : Plan.gather (Plan.drafts settings w r) = .ok p) :
    AccountsFor settings w (r.requests settings) p.graph p.skipped :=
  addAll nil hp

end AccountsFor

/-- **When drafts can be gathered**: when every request can be answered, and names are different. -/
theorem exists_gather {settings : Settings} {w : WorkingTree} {r : Registry}
    (hr : ∀ q ∈ r.requests settings, ∃ o, q.answer settings w = .ok o)
    (hn : (namesFor settings w (r.requests settings)).Nodup) :
    ∃ p, Plan.gather (Plan.drafts settings w r) = .ok p := by
  apply AccountsFor.exists_addAll .nil ?_ hn
  intro i hi q hq
  exact hr q (List.mem_flatMap.2 ⟨i, hi, hq⟩)

end InterfacePlan
