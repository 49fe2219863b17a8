import InterfacePlan.Proofs.Import.Cycles
import InterfacePlan.Proofs.Library.Completion
import InterfacePlan.Proofs.Plan.Gathering
import InterfacePlan.Proofs.Registry.Construction
/-!
# The structure of plans

A plan is made of the answers to all requests, with their placeholders completed. So what is known
about one answer is known about the whole plan.

## Main definitions

* `Answer.builtModules`: the modules that an answer contributes to a plan
* `Plan.Realizes`: a plan that consists of the answers to all requests

## Main results

* `Plan.ofRegistry_eq_ok_iff`: the steps of planning
* `Plan.realizes`: every plan consists of the answers to all requests
* `Registry.nodup_requests`, `Registry.eq_of_nameOf_eq`: no request is made twice
-/

namespace InterfacePlan

/-! ## All requests -/

namespace Registry

variable {r : Registry} {settings : Settings} {q : Request}

theorem mem_requests_iff :
    q ∈ r.requests settings ↔ q.interface ∈ r.interfaces ∧ q ∈ q.interface.requests settings := by
  rw [requests, List.mem_flatMap]
  constructor
  · rintro ⟨i, hi, hq⟩
    rw [Interface.interface_of_mem_requests hq]
    exact ⟨hi, hq⟩
  · rintro ⟨hi, hq⟩
    exact ⟨q.interface, hi, hq⟩

theorem version_mem_of_mem_requests (hq : q ∈ r.requests settings) :
    q.version ∈ q.interface.allVersions := by
  obtain ⟨-, hq⟩ := mem_requests_iff.1 hq
  exact Interface.mem_allVersions_of_mem_buildVersions (Interface.version_mem_of_mem_requests hq)

theorem nodup_interfaces : r.interfaces.Nodup := .of_map Interface.name r.nodup_names

/-- **No request is made twice.** -/
theorem nodup_requests : (r.requests settings).Nodup := by
  rw [requests, List.nodup_flatMap]
  refine ⟨fun i hi => Interface.nodup_requests (validateVersions_of_mem hi), ?_⟩
  apply nodup_interfaces.pairwise_of_forall_ne
  intro i _ j _ hne q hi hj
  apply hne
  rw [← Interface.interface_of_mem_requests hi, ← Interface.interface_of_mem_requests hj]

end Registry

/-! ## What answers contribute -/

/-- **The modules that an answer contributes to a plan**: its own ones and the completed library. -/
def Answer.builtModules (r : Registry) (a : Answer) : List Module :=
  a.placeholders.flatMap (Placeholder.completedModules r) ++ a.modules

/-- The implementations that an answer contributes to a plan. -/
def Answer.finishedImplementations (a : Answer) : List (String × Implementation) :=
  a.placeholders.map Placeholder.finishedEntry

/-- The placeholders of answers are their implementations. -/
theorem flatMap_implementations_eq (as : List Answer) : as.flatMap Answer.implementations
    = (as.flatMap Answer.placeholders).map Placeholder.declaredEntry := by
  rw [List.map_flatMap]
  rfl

namespace Plan

variable {settings : Settings} {w : WorkingTree} {r : Registry} {p : Plan}

/-- **A plan that consists of the answers to all requests.** -/
structure Realizes (settings : Settings) (w : WorkingTree) (r : Registry) (p : Plan) : Prop where
  answered : ∀ q ∈ r.requests settings, ∃ o, q.answer settings w = .ok o
  completed : ∀ a ∈ answersTo settings w (r.requests settings), ∀ p ∈ a.placeholders,
    ∃ m, p.completed r = .ok m
  holds : p.graph.Holds
    ((answersTo settings w (r.requests settings)).flatMap (Answer.builtModules r))
    ((answersTo settings w (r.requests settings)).flatMap Answer.finishedImplementations)
  skipped_eq : p.skipped
    = ((r.requests settings).filter (Request.lacksSources settings w)).map Request.skipped

/-- The check for cycles comes after gathering, and changes nothing. -/
theorem gatherAcyclic_eq_ok_iff {ds : List (Draft × Except PlanError Unit)} :
    gatherAcyclic r ds = .ok p ↔ gather ds = .ok p ∧ Import.checkCycles r = .ok () := by
  simp only [gatherAcyclic, Outcome.bind_eq_ok_iff, Outcome.pure_eq, Except.ok.injEq]
  constructor
  · rintro ⟨p, hp, _, hc, rfl⟩
    exact ⟨hp, hc⟩
  · rintro ⟨hp, hc⟩
    exact ⟨p, hp, (), hc, rfl⟩

/-- **The steps of planning**: the drafts are gathered, cycles are refused, and all placeholders are
completed. -/
theorem ofRegistry_eq_ok_iff : ofRegistry settings w r = .ok p ↔
    ∃ d, gather (drafts settings w r) = .ok d ∧ Import.checkCycles r = .ok ()
      ∧ (d.graph.completeAll r).failure? = none
      ∧ p = { d with graph := (d.graph.completeAll r).graph } := by
  simp only [← and_assoc, ← gatherAcyclic_eq_ok_iff]
  unfold ofRegistry run
  cases hg : gatherAcyclic r (drafts settings w r) with
  | error e => simp [hg]
  | ok d =>
    cases hf : (d.graph.completeAll r).failure? with
    | some e => simp [hg, hf]
    | none => simp [hg, hf, eq_comm]

/-- **Every plan consists of the answers to all requests.** -/
theorem realizes (hp : ofRegistry settings w r = .ok p) : Realizes settings w r p := by
  obtain ⟨d, hd, -, hf, rfl⟩ := ofRegistry_eq_ok_iff.1 hp
  have acc := AccountsFor.gather hd
  have hold := acc.holds
  rw [flatMap_implementations_eq] at hold
  obtain ⟨hcompleted, hend⟩ := hold.completeAll hf
  exact {
    answered := acc.answered
    completed := fun a ha p hp => hcompleted p (List.mem_flatMap.2 ⟨a, ha, hp⟩)
    holds := by
      -- The completed libraries come in front of all other modules, not each beside its own
      -- generator.
      refine hend.perm ?_ (.of_eq (List.map_flatMap ..))
      rw [List.flatMap_assoc]
      exact List.flatMap_append_perm _ _ _
    skipped_eq := acc.skipped_eq }

end Plan

end InterfacePlan
