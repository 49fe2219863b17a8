import InterfacePlan.Proofs.Plan.Accounting
/-!
# The order of merging

Every interface is drafted in a graph of its own, and the drafts are merged one after the other. The
check that a merge makes is not symmetric: the library that a placeholder awaits must not be there
already, but a module may well take the name of a library that is awaited. Still the order is of no
importance, because the names of answers tell their roles: no source generator, placeholder or
analyzer tool is called like a library that is awaited. So the drafts can be merged exactly when all
names are different, and then the graph holds the answers to all requests.

## Main definitions

* `ModuleGraph.merged`, `ModuleGraph.mergeAll`: one merge and several, given up when they fail
* `Plan.draftGraphs`: the graphs of the drafts of all interfaces

## Main results

* `AccountsFor.nodup_namesFor`: all names that answers need are different once those they enter are
* `Plan.exists_mergeAll_iff`: when drafts can be merged
* `Plan.mergeAll_perm`: the order of merging is of no importance
-/

namespace InterfacePlan

namespace ModuleGraph

variable {g h other : ModuleGraph}

/-- A graph after a merge, which is given up if it fails. -/
def merged (g other : ModuleGraph) : Except PlanError ModuleGraph :=
  (g.merge other).2.map fun _ => (g.merge other).1

/-- **Several graphs merged** one after the other, into an empty one. -/
def mergeAll (gs : List ModuleGraph) : Except PlanError ModuleGraph := gs.foldlM merged ∅

end ModuleGraph

open ModuleGraph (mergeAll usedNames)

variable {settings : Settings} {w : WorkingTree} {r : Registry}

/-! ## Names and their roles -/

namespace Request

variable {q : Request} {a : Answer} (ha : q.answer settings w = .ok (some a))
include ha

/-- A placeholder of an answer awaits a library, and is named after it. -/
theorem placeholder_of_answer {p : Placeholder} (hp : p ∈ a.placeholders) :
    q.backend ≠ .analyzer ∧ p.library.name = q.nameOf .library
      ∧ p.name = p.library.name ++ "-generator" := by
  have hb : q.backend ≠ .analyzer := by
    intro hb
    obtain ⟨kind, hproduct, -⟩ := tool_of_answer ha hb
    simp [Answer.placeholders, hproduct] at hp
  obtain ⟨kind, hproduct, -⟩ := library_of_answer ha hb
  simp only [Answer.placeholders, hproduct, List.mem_singleton] at hp
  subst hp
  exact ⟨hb, placeholder_library_name_eq hb kind, rfl⟩

/-- The names that an answer enters in a graph. The name of the library is among them for the
analyzer only. -/
theorem role_of_mem_usedNames {name : String}
    (hname : name ∈ usedNames a.modules a.implementations) :
    ∃ role, name = q.nameOf role ∧ (role = .library → q.backend = .analyzer) := by
  by_cases hb : q.backend = .analyzer
  · obtain ⟨kind, hproduct, -⟩ := tool_of_answer ha hb
    have hnames : usedNames a.modules a.implementations
        = [q.nameOf .library, q.nameOf .source] := by
      simp [Answer.modules, Answer.implementations, Answer.placeholders, hproduct, usedNames,
        source_name_of_answer ha]
    rw [hnames, List.mem_pair] at hname
    rcases hname with rfl | rfl
    · exact ⟨.library, rfl, fun _ => hb⟩
    · exact ⟨.source, rfl, fun _ => hb⟩
  · obtain ⟨kind, hproduct, -⟩ := library_of_answer ha hb
    have hnames : usedNames a.modules a.implementations
        = [q.nameOf .source, q.nameOf .placeholder] := by
      simp [Answer.modules, Answer.implementations, Answer.placeholders, hproduct, usedNames,
        Placeholder.declaredEntry, source_name_of_answer ha, placeholder_name_eq hb]
    rw [hnames, List.mem_pair] at hname
    rcases hname with rfl | rfl
    · exact ⟨.source, rfl, fun h => by cases h⟩
    · exact ⟨.placeholder, rfl, fun h => by cases h⟩

end Request

/-- A name that is entered with several answers is entered with one of them. -/
theorem exists_answer_of_mem_usedNames {as : List Answer} {name : String}
    (hname : name ∈ usedNames (as.flatMap Answer.modules) (as.flatMap Answer.implementations)) :
    ∃ a ∈ as, name ∈ usedNames a.modules a.implementations := by
  simp only [usedNames, List.map_flatMap, List.mem_append, List.mem_flatMap] at hname ⊢
  grind

namespace AccountsFor

variable {qs : List Request} {g h : ModuleGraph} {skipped skipped' : List SkippedRequest}

/-- **All names that answers need are different** once they are entered: those that they enter are,
and those of the libraries that they await follow. -/
theorem nodup_namesFor (acc : AccountsFor settings w qs g skipped) :
    (namesFor settings w qs).Nodup := by
  have hplaceholder : ∀ p ∈ (answersTo settings w qs).flatMap Answer.placeholders,
      ∃ q : Request, q.backend ≠ .analyzer ∧ p.library.name = q.nameOf .library
        ∧ p.name = p.library.name ++ "-generator" := by
    intro p hp
    obtain ⟨a, ha, hp⟩ := List.mem_flatMap.1 hp
    obtain ⟨q, -, ha⟩ := mem_answersTo_iff.1 ha
    exact ⟨q, Request.placeholder_of_answer ha hp⟩
  rw [namesFor, (Answer.flatMap_names_perm _).nodup_iff, List.nodup_append]
  refine ⟨?_, acc.holds.nodup, ?_⟩
  · -- Placeholders have different names, and each is named after the library that it awaits.
    have hnames := (List.nodup_append.1 acc.holds.nodup).2.1
    rw [flatMap_implementations_eq, List.map_map] at hnames
    apply List.Nodup.of_map (· ++ "-generator")
    rw [List.map_map]
    convert hnames using 1
    apply List.map_congr_left
    intro p hp
    obtain ⟨q, -, -, hname⟩ := hplaceholder p hp
    exact hname.symm
  · -- A name that is entered is that of a library only for the analyzer, which awaits none.
    rintro library hlibrary name hname rfl
    obtain ⟨p, hp, hlibrary⟩ := List.mem_map.1 hlibrary
    obtain ⟨q, hb, hq, -⟩ := hplaceholder p hp
    obtain ⟨a, ha, hname⟩ := exists_answer_of_mem_usedNames hname
    obtain ⟨q', -, ha⟩ := mem_answersTo_iff.1 ha
    obtain ⟨role, hrole, htool⟩ := Request.role_of_mem_usedNames ha hname
    obtain ⟨-, hbackend, rfl⟩ := Request.nameOf_inj.1 (hq.symm.trans (hlibrary.trans hrole))
    exact hb (hbackend.trans (htool rfl))

/-- The graphs of requests in any order are the same. -/
theorem graph_eq {rs : List Request} (acc : AccountsFor settings w qs g skipped)
    (acc' : AccountsFor settings w rs h skipped') (hperm : qs.Perm rs) : g = h := by
  have hanswers : (answersTo settings w qs).Perm (answersTo settings w rs) :=
    hperm.flatMap_right _
  exact acc.holds.eq
    (acc'.holds.perm (hanswers.flatMap_right _).symm (hanswers.flatMap_right _).symm)

end AccountsFor

namespace Plan

/-! ## Merging drafts -/

/-- The graph of the draft of an interface. -/
def draftGraph (settings : Settings) (w : WorkingTree) (i : Interface) : ModuleGraph :=
  (Draft.ofInterface settings w i).1.graph

/-- **The graphs of the drafts** of all interfaces, in name order. -/
def draftGraphs (settings : Settings) (w : WorkingTree) (r : Registry) : List ModuleGraph :=
  r.interfaces.map (draftGraph settings w)

/-- Gathering drafts that exist is merging their graphs. -/
theorem map_graph_foldlM_add {is : List Interface}
    (hdrafts : ∀ i ∈ is, (Draft.ofInterface settings w i).2 = .ok ()) (p : Plan) :
    ((is.map (Draft.ofInterface settings w)).foldlM add p).map (·.graph)
      = (is.map (draftGraph settings w)).foldlM ModuleGraph.merged p.graph := by
  induction is generalizing p with
  | nil => rfl
  | cons i is ih =>
    have hi := hdrafts i (List.mem_cons_self ..)
    have his := ih fun j hj => hdrafts j (List.mem_cons_of_mem _ hj)
    rw [List.map_cons, List.map_cons, List.foldlM_cons, List.foldlM_cons]
    obtain ⟨d, hd⟩ : ∃ d, Draft.ofInterface settings w i = (d, .ok ()) := ⟨_, Prod.ext rfl hi⟩
    rw [draftGraph, hd, add, ModuleGraph.merged]
    obtain ⟨k, hk | ⟨e, hk⟩⟩ : ∃ k, p.graph.merge d.graph = (k, .ok ())
        ∨ ∃ e, p.graph.merge d.graph = (k, .error e) := by
      cases hmerge : p.graph.merge d.graph with
      | mk k outcome => cases outcome <;> simp
    · rw [hk]
      exact his _
    · rw [hk]
      rfl

section Drafted

variable {is js : List Interface} {g h : ModuleGraph}
  (hdrafts : ∀ i ∈ is, (Draft.ofInterface settings w i).2 = .ok ())
include hdrafts

theorem mergeAll_eq_ok_iff : mergeAll (is.map (draftGraph settings w)) = .ok g ↔
    ∃ p, (is.map (Draft.ofInterface settings w)).foldlM add {} = .ok p ∧ p.graph = g := by
  rw [← Outcome.map_eq_ok_iff, map_graph_foldlM_add hdrafts]
  rfl

/-- Merged drafts hold the answers to all requests. -/
theorem exists_accountsFor (hg : mergeAll (is.map (draftGraph settings w)) = .ok g) :
    ∃ skipped, AccountsFor settings w (is.flatMap fun i => i.requests settings) g skipped := by
  obtain ⟨p, hp, rfl⟩ := (mergeAll_eq_ok_iff hdrafts).1 hg
  exact ⟨p.skipped, AccountsFor.addAll .nil hp⟩

/-- **When drafts can be merged**: exactly when the names of all answers are different. -/
theorem exists_mergeAll_iff : (∃ g, mergeAll (is.map (draftGraph settings w)) = .ok g) ↔
    (namesFor settings w (is.flatMap fun i => i.requests settings)).Nodup := by
  constructor
  · rintro ⟨g, hg⟩
    obtain ⟨skipped, acc⟩ := exists_accountsFor hdrafts hg
    exact acc.nodup_namesFor
  · intro hn
    have hanswered : ∀ i ∈ is, ∀ q ∈ i.requests settings, ∃ o, q.answer settings w = .ok o :=
      fun i hi => (AccountsFor.ofInterface (Prod.ext rfl (hdrafts i hi))).answered
    have hnil : AccountsFor settings w [] ({} : Plan).graph ({} : Plan).skipped := .nil
    obtain ⟨p, hp⟩ := hnil.exists_addAll hanswered hn
    exact ⟨p.graph, (mergeAll_eq_ok_iff hdrafts).2 ⟨p, hp, rfl⟩⟩

/-- Drafts that can be merged in one order can be merged in any other, to the same graph. -/
theorem mergeAll_of_perm (hperm : is.Perm js)
    (hg : mergeAll (is.map (draftGraph settings w)) = .ok g) :
    mergeAll (js.map (draftGraph settings w)) = .ok g := by
  have hdrafts' : ∀ j ∈ js, (Draft.ofInterface settings w j).2 = .ok () := fun j hj =>
    hdrafts j (hperm.mem_iff.2 hj)
  have hrequests : (is.flatMap fun i => i.requests settings).Perm
      (js.flatMap fun j => j.requests settings) := hperm.flatMap_right _
  obtain ⟨skipped, acc⟩ := exists_accountsFor hdrafts hg
  -- The names are different in any order, and the answers make up the same graph.
  have hnames : (namesFor settings w (js.flatMap fun j => j.requests settings)).Nodup := by
    refine List.Perm.nodup ?_ acc.nodup_namesFor
    exact (hrequests.flatMap_right _).flatMap_right _
  obtain ⟨h, hh⟩ := (exists_mergeAll_iff hdrafts').2 hnames
  obtain ⟨skipped', acc'⟩ := exists_accountsFor hdrafts' hh
  rw [acc.graph_eq acc' hrequests]
  exact hh

end Drafted

/-- **The order of merging is of no importance.** When every interface can be drafted, two orders of
the drafts can both be merged or neither of them, and both give the same graph. In name order this
is the graph of the gathered plan. -/
theorem mergeAll_perm (hdrafts : ∀ d ∈ drafts settings w r, d.2 = .ok ()) {gs hs : List ModuleGraph}
    (hgs : gs.Perm (draftGraphs settings w r)) (hhs : hs.Perm (draftGraphs settings w r)) :
    (∀ g, mergeAll gs = .ok g ↔ mergeAll hs = .ok g)
      ∧ (gather (drafts settings w r)).map (·.graph) = mergeAll (draftGraphs settings w r) := by
  have hdrafted : ∀ i ∈ r.interfaces, (Draft.ofInterface settings w i).2 = .ok () := fun i hi =>
    hdrafts _ (List.mem_map.2 ⟨i, hi, rfl⟩)
  obtain ⟨is, rfl, his⟩ := ModuleGraph.exists_eq_map_of_perm hgs
  obtain ⟨js, rfl, hjs⟩ := ModuleGraph.exists_eq_map_of_perm hhs
  refine ⟨fun g => ⟨fun hg => ?_, fun hg => ?_⟩, map_graph_foldlM_add hdrafted {}⟩
  · exact mergeAll_of_perm (fun i hi => hdrafted i (his.mem_iff.1 hi)) (his.trans hjs.symm) hg
  · exact mergeAll_of_perm (fun j hj => hdrafted j (hjs.mem_iff.1 hj)) (hjs.trans his.symm) hg

theorem sample_merges_in_reverse :
    ∃ p, gather (drafts {} sampleTree (registryOf sampleInterfaces)) = .ok p
      ∧ mergeAll (draftGraphs {} sampleTree (registryOf sampleInterfaces)).reverse = .ok p.graph
      ∧ p.graph.pending = ["bar-cpp-generator", "foo-V2-cpp-generator"] := by
  have hdrafts : ∀ d ∈ drafts {} sampleTree (registryOf sampleInterfaces), d.2 = .ok () := by
    decide +kernel
  obtain ⟨hperm, hgather⟩ := mergeAll_perm hdrafts (List.reverse_perm _) (.refl _)
  have hok : (gather (drafts {} sampleTree (registryOf sampleInterfaces))).isOk = true := by
    decide +kernel
  obtain ⟨p, hp⟩ := Outcome.exists_ok_of_isOk hok
  have hpending : (gather (drafts {} sampleTree (registryOf sampleInterfaces))).map
      (·.graph.pending) = .ok ["bar-cpp-generator", "foo-V2-cpp-generator"] := by
    decide +kernel
  rw [hp] at hgather hpending
  exact ⟨p, hp, (hperm _).2 hgather.symm, Except.ok.inj hpending⟩

end Plan

end InterfacePlan
