import Mathlib.Data.Finset.Card
import InterfacePlan.Proofs.Plan.Links
/-!
# Build orders

The libraries of a plan can be built one after the other. Cycles are refused before any library is
completed, and among versioned names; libraries are linked afterwards, and for one backend each. The
two agree: a library links what its imports stand for, for its own backend, and the name of a
library tells the versioned name and the backend. So a way from library to library is a way from
versioned name to versioned name.

## Main definitions

* `Plan.LinksImport`: what finished libraries link for their imports, as a relation on names
* `Plan.IsBuildOrder`: an order in which the libraries of a plan can be built

## Main results

* `Plan.Realizes.exists_imports_of_transGen`: a way along links is a way along imports
* `Plan.builds_in_order`: no library of a plan reaches itself along links, so there is a build order
-/

namespace InterfacePlan

open Relation (TransGen)

/-! ## Ordering the members of an acyclic relation -/

section Ordering

variable {R : String → String → Prop} {names : List String} {m n : String}

open Classical in
/-- How many of the names are reached along a relation. -/
noncomputable def reachCount (R : String → String → Prop) (names : List String) (n : String) : ℕ :=
  (names.toFinset.filter fun m => TransGen R n m).card

/-- Along an acyclic relation ever less is reached. -/
theorem reachCount_lt (acyclic : ¬∃ n, TransGen R n n) (hn : n ∈ names) (h : R m n) :
    reachCount R names n < reachCount R names m := by
  classical
  apply Finset.card_lt_card
  rw [Finset.ssubset_iff_of_subset]
  · refine ⟨n, Finset.mem_filter.2 ⟨List.mem_toFinset.2 hn, .single h⟩, fun hmem => ?_⟩
    exact acyclic ⟨n, (Finset.mem_filter.1 hmem).2⟩
  · intro k hk
    obtain ⟨hk, hreach⟩ := Finset.mem_filter.1 hk
    exact Finset.mem_filter.2 ⟨hk, .head h hreach⟩

/-- **Names can be ordered against an acyclic relation**, so that nothing is related to a later
name. -/
theorem exists_perm_pairwise (acyclic : ¬∃ n, TransGen R n n) (names : List String) :
    ∃ order : List String, order.Perm names ∧ order.Pairwise fun m n => ¬R m n := by
  -- Names that reach less come first.
  let le (m n : String) : Bool := reachCount R names m ≤ reachCount R names n
  have htrans : ∀ a b c, le a b = true → le b c = true → le a c = true := by
    intro a b c hab hbc
    simp only [le, decide_eq_true_eq] at hab hbc ⊢
    exact hab.trans hbc
  have htotal : ∀ a b, (le a b || le b a) = true := by
    intro a b
    simp only [le, Bool.or_eq_true, decide_eq_true_eq]
    exact le_total _ _
  have hperm : (names.mergeSort le).Perm names := List.mergeSort_perm names le
  refine ⟨names.mergeSort le, hperm, ?_⟩
  refine (List.pairwise_mergeSort htrans htotal names).imp_of_mem ?_
  intro m n _ hn hle hR
  have hlt := reachCount_lt acyclic (hperm.mem_iff.1 hn) hR
  simp only [le, decide_eq_true_eq] at hle
  omega

end Ordering

/-! ## Links between finished libraries -/

namespace Plan

/-- **A finished library links another one for an import**: the name of the other one is among those
that were injected when the library was finished. -/
def LinksImport (settings : Settings) (w : WorkingTree) (r : Registry) (p : Plan)
    (library dependency : String) : Prop :=
  (∃ name, p.graph.state? name = some (.finished library))
    ∧ ∃ q ∈ r.emitted settings w, q.libraryName = library
      ∧ ∃ injected, q.Injects settings w p.graph injected ∧ dependency ∈ injected

/-- **An order in which the libraries of a plan can be built.** All finished libraries stand in it,
each once and behind those libraries that it links for its imports. -/
structure IsBuildOrder (settings : Settings) (w : WorkingTree) (r : Registry) (p : Plan)
    (order : List String) : Prop where
  mem_iff : ∀ library, library ∈ order ↔ ∃ name, p.graph.state? name = some (.finished library)
  nodup : order.Nodup
  links_before : ∀ before library after, order = before ++ library :: after →
    ∀ dependency ∈ order, p.LinksImport settings w r library dependency → dependency ∈ before

end Plan

namespace Request

variable {settings : Settings} {w : WorkingTree} {g : ModuleGraph} {q : Request}

/-- What a library links for its imports is determined by the graph. -/
theorem Injects.unique {xs ys : List String} (hx : q.Injects settings w g xs)
    (hy : q.Injects settings w g ys) : xs = ys := by
  obtain ⟨a, declared, kind, ha, hproduct, hkind, hxs⟩ := hx
  obtain ⟨b, declared', kind', hb, hproduct', hkind', hys⟩ := hy
  obtain rfl : a = b := Option.some.inj (Except.ok.inj (ha.symm.trans hb))
  obtain rfl : declared = declared' := Product.library.inj (hproduct.symm.trans hproduct')
  obtain rfl : kind = kind' := congrArg Module.kind (Option.some.inj (hkind.symm.trans hkind'))
  exact List.append_cancel_left (hxs.symm.trans hys)

/-- Only libraries link imports, and not the tool for the analyzer. -/
theorem Injects.backend_ne {injected : List String} (h : q.Injects settings w g injected) :
    q.backend ≠ .analyzer := by
  intro hb
  obtain ⟨a, declared, -, ha, hproduct, -⟩ := h
  obtain ⟨kind, htool, -⟩ := tool_of_answer ha hb
  rw [hproduct] at htool
  cases htool

/-- One library stands for an import. -/
theorem LinksFor.unique {r : Registry} {reference l m : String} (hl : q.LinksFor r reference l)
    (hm : q.LinksFor r reference m) : l = m := by
  obtain ⟨imported, himported, -, rfl⟩ := hl
  obtain ⟨other, hother, -, rfl⟩ := hm
  obtain rfl := Option.some.inj (himported.symm.trans hother)
  rfl

end Request

/-! ## Links follow imports -/

/-- An import of a version that can be built leads to the name that it stands for. -/
theorem Import.imports_standsFor {r : Registry} (hall : AllRegistered r) {i imported : Interface}
    {version reference : String} (hi : i ∈ r.interfaces) (hversion : version ∈ i.buildVersions)
    (hreference : reference ∈ i.importsFor version)
    (himported : r.get? (split reference).1 = some imported) :
    Imports r (i.versionedName version) (standsFor i version imported reference) := by
  have hmem := Interface.mem_allVersions_of_mem_buildVersions hversion
  obtain ⟨imports, himports⟩ := (exists_resolveAll_iff hmem).2 (hall i hi version hversion)
  refine ⟨i, hi, version, hversion, rfl, imports, himports, ?_⟩
  obtain ⟨x, hx, hresolved⟩ :=
    Outcome.exists_right_of_forall₂ (resolveAll_eq_ok_iff.1 himports).2 hreference
  obtain ⟨other, hother, rfl⟩ := resolveOne_eq_ok_iff.1 hresolved
  obtain rfl := Option.some.inj (himported.symm.trans hother)
  exact ⟨_, hx, rfl⟩

namespace Plan

variable {settings : Settings} {w : WorkingTree} {r : Registry} {p : Plan}
  {library dependency : String}

/-- The finished libraries are those of the emitted requests. -/
theorem Realizes.exists_finished_iff (real : Realizes settings w r p) :
    (∃ name, p.graph.state? name = some (.finished library)) ↔
      ∃ q ∈ r.emitted settings w, q.backend ≠ .analyzer ∧ q.libraryName = library := by
  simp only [real.state?_iff, Implementation.finished.injEq]
  constructor
  · rintro ⟨_, q, hq, hb, -, rfl⟩
    exact ⟨q, hq, hb, rfl⟩
  · rintro ⟨q, hq, hb, rfl⟩
    exact ⟨_, q, hq, hb, rfl, rfl⟩

/-- **The links of finished libraries** are those for the imports of their requests. -/
theorem Realizes.linksImport_iff (real : Realizes settings w r p) :
    p.LinksImport settings w r library dependency ↔
      ∃ q ∈ r.emitted settings w, q.backend ≠ .analyzer ∧ q.libraryName = library
        ∧ ∃ reference ∈ q.interface.importsFor q.version, q.LinksFor r reference dependency := by
  constructor
  · rintro ⟨-, q, hq, hlibrary, injected, hinjects, hdependency⟩
    obtain ⟨linked, hinjects', hlinks⟩ := real.exists_injected hq hinjects.backend_ne
    obtain rfl := hinjects.unique hinjects'
    exact ⟨q, hq, hinjects.backend_ne, hlibrary,
      Outcome.exists_right_of_forall₂ hlinks.flip hdependency⟩
  · rintro ⟨q, hq, hb, hlibrary, reference, hreference, hlink⟩
    obtain ⟨injected, hinjects, hlinks⟩ := real.exists_injected hq hb
    obtain ⟨other, hother, hlink'⟩ := Outcome.exists_right_of_forall₂ hlinks hreference
    obtain rfl := hlink.unique hlink'
    exact ⟨real.exists_finished_iff.2 ⟨q, hq, hb, hlibrary⟩, q, hq, hlibrary, injected, hinjects,
      hother⟩

/-- A name of a library, put together from the versioned name and the ending for its backend. -/
theorem append_text_eq_ending (name : String) (backend : Backend) :
    name ++ "-" ++ backend.text = name ++ Role.library.ending backend := by
  simp [Role.ending, Role.suffix, String.append_assoc]

/-- **A link for an import follows an import**, for one backend. -/
theorem Realizes.exists_imports (real : Realizes settings w r p) (hall : Import.AllRegistered r)
    (h : p.LinksImport settings w r library dependency) :
    ∃ (backend : Backend) (source target : String), Import.Imports r source target
      ∧ library = source ++ Role.library.ending backend
      ∧ dependency = target ++ Role.library.ending backend := by
  obtain ⟨q, hq, -, rfl, reference, hreference, imported, himported, -, rfl⟩ :=
    real.linksImport_iff.1 h
  obtain ⟨hi, hqi⟩ := Registry.mem_requests_iff.1 (real.exists_answer_of_emitted hq).1
  exact ⟨q.backend, _, _,
    Import.imports_standsFor hall hi (Interface.version_mem_of_mem_requests hqi) hreference
      himported,
    append_text_eq_ending .., append_text_eq_ending ..⟩

/-- **A way along links is a way along imports**, for one backend. -/
theorem Realizes.exists_imports_of_transGen (real : Realizes settings w r p)
    (hall : Import.AllRegistered r)
    (h : TransGen (p.LinksImport settings w r) library dependency) :
    ∃ (backend : Backend) (source target : String), TransGen (Import.Imports r) source target
      ∧ library = source ++ Role.library.ending backend
      ∧ dependency = target ++ Role.library.ending backend := by
  induction h with
  | single hlink =>
    obtain ⟨backend, source, target, himport, hlibrary, hdependency⟩ :=
      real.exists_imports hall hlink
    exact ⟨backend, source, target, .single himport, hlibrary, hdependency⟩
  | tail _ hlink ih =>
    obtain ⟨backend, source, middle, hway, hlibrary, hmiddle⟩ := ih
    obtain ⟨backend', middle', target, himport, hmiddle', hdependency⟩ :=
      real.exists_imports hall hlink
    -- The library in between has one name, and this tells one versioned name and one backend.
    obtain ⟨rfl, rfl, -⟩ := Role.append_ending_inj.1 (hmiddle.symm.trans hmiddle')
    exact ⟨backend, source, target, hway.tail himport, hlibrary, hdependency⟩

theorem linksImport_acyclic (hp : ofRegistry settings w r = .ok p) :
    ¬∃ library, TransGen (p.LinksImport settings w r) library library := by
  rintro ⟨library, hcycle⟩
  obtain ⟨-, -, hcycles, -⟩ := ofRegistry_eq_ok_iff.1 hp
  obtain ⟨hall, hacyclic⟩ := Import.checkCycles_eq_ok_iff.1 hcycles
  obtain ⟨backend, source, target, himports, hsource, htarget⟩ :=
    (realizes hp).exists_imports_of_transGen hall hcycle
  obtain ⟨rfl, -⟩ := Role.append_ending_inj.1 (hsource.symm.trans htarget)
  exact hacyclic ⟨source, himports⟩

/-! ## Build orders -/

/-- **The libraries of a plan can be built in some order**: no library reaches itself along the
links that were injected for imports. -/
theorem builds_in_order (hp : ofRegistry settings w r = .ok p) :
    (¬∃ library, TransGen (p.LinksImport settings w r) library library)
      ∧ ∃ order, p.IsBuildOrder settings w r order := by
  have hacyclic := linksImport_acyclic hp
  refine ⟨hacyclic, ?_⟩
  let names := ((r.emitted settings w).filter fun q => q.backend ≠ .analyzer).map
    Request.libraryName
  obtain ⟨order, hperm, hpairwise⟩ := exists_perm_pairwise hacyclic names.dedup
  refine ⟨order, ?_, hperm.nodup_iff.2 names.nodup_dedup, ?_⟩
  · intro library
    rw [hperm.mem_iff, List.mem_dedup, (realizes hp).exists_finished_iff]
    simp [names, and_assoc]
  · rintro before library after rfl dependency hdependency hlink
    obtain ⟨-, hlater, -⟩ := List.pairwise_append.1 hpairwise
    rcases List.mem_append.1 hdependency with hbefore | hrest
    · exact hbefore
    -- A library links neither itself nor one that stands behind it.
    rcases List.mem_cons.1 hrest with rfl | hafter
    · exact absurd ⟨_, .single hlink⟩ hacyclic
    · exact absurd hlink ((List.pairwise_cons.1 hlater).1 dependency hafter)

theorem sample_builds_in_order :
    ∃ p, ofRegistry {} sampleTree (registryOf sampleInterfaces) = .ok p
      ∧ p.LinksImport {} sampleTree (registryOf sampleInterfaces) "foo-V2-cpp" "bar-cpp"
      ∧ (¬∃ library, TransGen (p.LinksImport {} sampleTree (registryOf sampleInterfaces))
          library library)
      ∧ ∃ order, p.IsBuildOrder {} sampleTree (registryOf sampleInterfaces) order := by
  have hok : (ofRegistry {} sampleTree (registryOf sampleInterfaces)).isOk = true := by
    decide +kernel
  obtain ⟨p, hp⟩ := Outcome.exists_ok_of_isOk hok
  refine ⟨p, hp, ?_, builds_in_order hp⟩
  have hrequest : sampleInterfaces[0].request {} "2" .cpp
      ∈ (registryOf sampleInterfaces).emitted {} sampleTree := by
    decide +kernel
  have hbar : (registryOf sampleInterfaces).get? (Import.split "bar").1
      = some sampleInterfaces[1] := by
    decide +kernel
  refine (realizes hp).linksImport_iff.2 ⟨_, hrequest, by decide, by decide +kernel, "bar", ?_, ?_⟩
  · decide +kernel
  · exact ⟨_, hbar, by decide, by decide +kernel⟩

end Plan

end InterfacePlan
