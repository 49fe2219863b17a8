import InterfacePlan.Proofs.Collection.StrictOrder
import InterfacePlan.Proofs.Import.Resolution
/-!
# Building a registry

Interfaces are registered one after the other, and the first one that cannot be registered decides
the error. Which interface that is depends on the order of the list. Whether there is one does not,
and neither does the registry, which holds the interfaces of the list and nothing else.

## Main definitions

* `Registry.Flaw`: why an interface cannot be registered after others
* `Registry.FlawAt`: why the interface at a position of a list cannot be registered
* `Registry.Admissible`: lists of valid interfaces with different names

## Main results

* `Registry.add_eq_error_iff`, `Registry.perm_of_add`: registering one interface
* `Registry.addAll_outcome`: registering a list of interfaces
* `Registry.eq_of_perm`: a registry is determined by the interfaces that it holds
* `Registry.ofList_outcome`: when a registry is built, what it holds, and the error otherwise
-/

namespace InterfacePlan.Registry

variable {r r' : Registry} {i : Interface} {is earlier : List Interface} {e : PlanError}

/-! ## What a registry holds -/

/-- Interfaces are listed in strictly increasing name order. -/
theorem pairwise_interfaces (r : Registry) :
    r.interfaces.Pairwise fun i j => compare i.name j.name = .lt := by
  rw [interfaces, SortedMap.values, List.pairwise_map]
  refine r.byName.sorted.imp_of_mem fun {a b} ha hb hlt => ?_
  rw [(r.sound a.1 a.2 (SortedMap.mem_toList_iff.1 ha)).1,
    (r.sound b.1 b.2 (SortedMap.mem_toList_iff.1 hb)).1]
  exact hlt

theorem nodup_names (r : Registry) : (r.interfaces.map Interface.name).Nodup :=
  StrictOrder.nodup (List.pairwise_map.2 r.pairwise_interfaces)

theorem get?_eq_some_iff {name : String} :
    r.get? name = some i ↔ i ∈ r.interfaces ∧ i.name = name := by
  constructor
  · intro h
    exact ⟨mem_interfaces_of_get? h, (r.sound name i h).1⟩
  · rintro ⟨hi, rfl⟩
    exact mem_interfaces_iff.1 hi

theorem contains_iff {name : String} :
    r.byName.contains name = true ↔ name ∈ r.interfaces.map Interface.name := by
  rw [SortedMap.contains_iff, List.mem_map]
  exact exists_congr fun i => get?_eq_some_iff

/-- **A registry is determined by the interfaces that it holds.** -/
theorem eq_of_perm (h : r.interfaces.Perm r'.interfaces) : r = r' := by
  have hget : ∀ name, r.get? name = r'.get? name := fun name => by
    ext i
    rw [get?_eq_some_iff, get?_eq_some_iff, h.mem_iff]
  cases r
  cases r'
  congr
  exact SortedMap.ext_get? hget

/-! ## Registering one interface -/

/-- **Why `i` cannot be registered after `earlier` ones**: its versions are not well formed, or they
are and its name is taken. -/
inductive Flaw (earlier : List Interface) (i : Interface) : PlanError → Prop
  | invalid {e : PlanError} (versions : i.validateVersions = .error e) : Flaw earlier i e
  | repeated (valid : i.validateVersions = .ok ()) (taken : i.name ∈ earlier.map Interface.name) :
    Flaw earlier i (.duplicateInterface i.name)

theorem exists_flaw_iff : (∃ e, Flaw earlier i e) ↔
    i.validateVersions = .ok () → i.name ∈ earlier.map Interface.name := by
  constructor
  · rintro ⟨_, versions | ⟨-, taken⟩⟩ valid
    · rw [valid] at versions
      cases versions
    · exact taken
  · intro h
    rcases Outcome.eq_ok_or_eq_error i.validateVersions with ⟨_, valid⟩ | ⟨e, versions⟩
    · exact ⟨_, .repeated valid (h valid)⟩
    · exact ⟨e, .invalid versions⟩

theorem Flaw.unique {e' : PlanError} (h : Flaw earlier i e) (h' : Flaw earlier i e') : e = e' := by
  cases h <;> cases h' <;> simp_all

theorem flaw_congr {others : List Interface} (h : earlier.Perm others) :
    Flaw earlier i e ↔ Flaw others i e := by
  have htaken : i.name ∈ earlier.map Interface.name ↔ i.name ∈ others.map Interface.name :=
    (h.map _).mem_iff
  constructor
  · rintro (versions | ⟨valid, taken⟩)
    · exact .invalid versions
    · exact .repeated valid (htaken.1 taken)
  · rintro (versions | ⟨valid, taken⟩)
    · exact .invalid versions
    · exact .repeated valid (htaken.2 taken)

/-- An interface is refused for a flaw, and for nothing else. -/
theorem add_eq_error_iff : r.add i = .error e ↔ Flaw r.interfaces i e := by
  unfold add
  split
  case h_1 versions =>
    constructor
    · intro h
      exact .invalid (Except.error.inj h ▸ versions)
    · intro h
      rw [h.unique (.invalid versions)]
  case h_2 valid =>
    split
    case isTrue htaken =>
      have hflaw : Flaw r.interfaces i (.duplicateInterface i.name) :=
        .repeated valid (contains_iff.1 htaken)
      constructor
      · intro h
        exact Except.error.inj h ▸ hflaw
      · intro h
        rw [h.unique hflaw]
    case isFalse hnew =>
      constructor
      · intro h
        cases h
      · intro h
        exact absurd (contains_iff.2 (exists_flaw_iff.1 ⟨e, h⟩ valid)) hnew

/-- An interface is added to those that are registered, which stay as they are. -/
theorem perm_of_add (h : r.add i = .ok r') : r'.interfaces.Perm (i :: r.interfaces) := by
  unfold add at h
  split at h
  case h_1 => cases h
  case h_2 =>
    split at h
    case isTrue => cases h
    case isFalse hnew =>
      obtain rfl := Except.ok.inj h
      rw [contains_iff] at hnew
      have hnodup : (i :: r.interfaces).Nodup :=
        .of_map Interface.name (List.nodup_cons.2 ⟨hnew, r.nodup_names⟩)
      refine (List.perm_ext_iff_of_nodup
        (.of_map Interface.name (nodup_names _)) hnodup).2 fun j => ?_
      rw [mem_interfaces_iff, get?, SortedMap.get?_insert, List.mem_cons]
      split
      case isTrue hname =>
        constructor
        · intro hij
          exact .inl (Option.some.inj hij).symm
        · rintro (rfl | hj)
          · rfl
          · exact absurd (hname ▸ List.mem_map_of_mem hj) hnew
      case isFalse hname =>
        rw [← get?, ← mem_interfaces_iff]
        exact ⟨.inr, fun hj => hj.resolve_left fun hij => hname (hij ▸ rfl)⟩

/-! ## Registering a list -/

/-- **Lists from which a registry can be built**: each interface is valid, and no two share a
name. -/
structure Admissible (is : List Interface) : Prop where
  valid : ∀ i ∈ is, i.validateVersions = .ok ()
  distinct : (is.map Interface.name).Nodup

theorem admissible_interfaces (r : Registry) : Admissible r.interfaces :=
  ⟨fun _ => validateVersions_of_mem, r.nodup_names⟩

theorem Admissible.perm {js : List Interface} (h : Admissible is) (hperm : is.Perm js) :
    Admissible js :=
  ⟨fun i hi => h.valid i (hperm.mem_iff.2 hi), (hperm.map _).nodup_iff.1 h.distinct⟩

/-- A list stays admissible as long as no interface with a flaw is put at its end. -/
theorem admissible_concat_iff :
    Admissible (earlier ++ [i]) ↔ Admissible earlier ∧ ∀ e, ¬Flaw earlier i e := by
  rw [← not_exists, exists_flaw_iff]
  constructor
  · rintro ⟨valid, distinct⟩
    rw [List.map_append, List.nodup_append] at distinct
    refine ⟨⟨fun j hj => valid j (List.mem_append_left _ hj), distinct.1⟩, fun h => ?_⟩
    exact distinct.2.2 _ (h (valid i (by simp))) _ (by simp) rfl
  · rintro ⟨⟨valid, distinct⟩, hflaw⟩
    obtain ⟨hi, hnew⟩ := Classical.not_imp.1 hflaw
    refine ⟨fun j hj => ?_, ?_⟩
    · rcases List.mem_append.1 hj with hj | hj
      · exact valid j hj
      · rwa [List.mem_singleton.1 hj]
    · rw [List.map_append, List.map_singleton, ← List.concat_eq_append]
      exact distinct.concat hnew

/-- **What becomes of a list of interfaces**, in a registry that holds `earlier` ones: all of them
are registered, or those before the first one with a flaw are, and the flaw is reported. -/
theorem addAll_outcome (h : r.interfaces.Perm earlier) :
    (∃ r', r.addAll is = .ok r' ∧ r'.interfaces.Perm (earlier ++ is))
      ∨ ∃ before i after e, r.addAll is = .error e ∧ is = before ++ i :: after
          ∧ Admissible (earlier ++ before) ∧ Flaw (earlier ++ before) i e := by
  induction is generalizing r earlier with
  | nil => exact .inl ⟨r, rfl, by simpa using h⟩
  | cons i is ih =>
    rcases Outcome.eq_ok_or_eq_error (r.add i) with ⟨s, hs⟩ | ⟨e, he⟩
    · have hs' : s.interfaces.Perm (earlier ++ [i]) :=
        ((perm_of_add hs).trans (h.cons i)).trans (List.perm_append_singleton i earlier).symm
      have hstep : r.addAll (i :: is) = s.addAll is := by rw [addAll, hs]
      rcases ih hs' with ⟨r', hr', hperm⟩ | ⟨before, j, after, e, he, rfl, hadmissible, hflaw⟩
      · exact .inl ⟨r', hstep.trans hr', by simpa using hperm⟩
      · exact .inr ⟨i :: before, j, after, e, hstep.trans he, rfl, by simpa using hadmissible,
          by simpa using hflaw⟩
    · refine .inr ⟨[], i, is, e, by rw [addAll, he], rfl, ?_, ?_⟩
      · simpa using r.admissible_interfaces.perm h
      · simpa using (flaw_congr h).1 (add_eq_error_iff.1 he)

/-! ## The registry of a list -/

/-- **Why the interface at a position of a list cannot be registered** after those before it. -/
def FlawAt (is : List Interface) (n : Nat) (e : PlanError) : Prop :=
  ∃ i, is[n]? = some i ∧ Flaw (is.take n) i e

/-- A list is admissible up to a position if there is no flaw before it. -/
theorem admissible_take_iff {n : Nat} :
    Admissible (is.take n) ↔ ∀ m < n, ∀ e, ¬FlawAt is m e := by
  induction n with
  | zero => simpa using ⟨by simp, List.nodup_nil⟩
  | succ n ih =>
    rw [Nat.forall_lt_succ_right, ← ih, List.take_add_one]
    cases hn : is[n]? with
    | none => simp [FlawAt, hn]
    | some i => simp [FlawAt, hn, admissible_concat_iff]

theorem admissible_iff : Admissible is ↔ ∀ n e, ¬FlawAt is n e := by
  have htake : Admissible is ↔ Admissible (is.take is.length) := by rw [List.take_length]
  rw [htake, admissible_take_iff]
  constructor
  · intro h n e hflaw
    obtain ⟨i, hi, -⟩ := id hflaw
    exact h n (List.getElem?_eq_some_iff.1 hi).1 e hflaw
  · intro h n _
    exact h n

/-- The flaw at a position is the only one there. -/
theorem FlawAt.unique {n : Nat} {e' : PlanError} (h : FlawAt is n e) (h' : FlawAt is n e') :
    e = e' := by
  obtain ⟨i, hi, hflaw⟩ := h
  obtain ⟨j, hj, hflaw'⟩ := h'
  obtain rfl : i = j := Option.some.inj (hi.symm.trans hj)
  exact hflaw.unique hflaw'

/-- All interfaces of a list are registered, or those before the first one with a flaw are. -/
theorem ofList_cases (is : List Interface) : (∃ r, ofList is = .ok r ∧ r.interfaces.Perm is)
    ∨ ∃ before i after e, ofList is = .error e ∧ is = before ++ i :: after
        ∧ Admissible before ∧ Flaw before i e :=
  addAll_outcome (List.Perm.refl (interfaces ∅))

theorem interfaces_of_ofList (h : ofList is = .ok r) : r.interfaces.Perm is := by
  rcases ofList_cases is with ⟨r', hr', hperm⟩ | ⟨_, _, _, e, he, -⟩
  · obtain rfl : r' = r := Except.ok.inj (hr'.symm.trans h)
    exact hperm
  · cases he.symm.trans h

/-- The error is the flaw at the first position at which there is one. -/
theorem flawAt_of_ofList (h : ofList is = .error e) :
    ∃ n, FlawAt is n e ∧ ∀ m < n, ∀ e', ¬FlawAt is m e' := by
  rcases ofList_cases is with ⟨r', hr', -⟩ | ⟨before, i, after, e', he, rfl, hadmissible, hflaw⟩
  · cases hr'.symm.trans h
  · obtain rfl : e' = e := Except.error.inj (he.symm.trans h)
    have htake : (before ++ i :: after).take before.length = before := List.take_left
    refine ⟨before.length, ⟨i, by simp, ?_⟩, ?_⟩
    · rw [htake]
      exact hflaw
    · rw [← admissible_take_iff, htake]
      exact hadmissible

theorem exists_ofList_iff : (∃ r, ofList is = .ok r) ↔ Admissible is := by
  constructor
  · rintro ⟨r, h⟩
    exact r.admissible_interfaces.perm (interfaces_of_ofList h)
  · intro hadmissible
    rcases Outcome.eq_ok_or_eq_error (ofList is) with hok | ⟨e, he⟩
    · exact hok
    · obtain ⟨n, hflaw, -⟩ := flawAt_of_ofList he
      exact absurd hflaw (admissible_iff.1 hadmissible n e)

/-- **What becomes of a list of interfaces.** A registry is built exactly if each interface is valid
and no two share a name. It then holds the interfaces of the list as they are and no others, in
strictly increasing name order, and it is the registry of the list in any other order as well.
Otherwise the error is that of the first position at which an interface is invalid or has the name
of an earlier one; an interface that is both is reported as invalid. -/
theorem ofList_outcome (is : List Interface) :
    ((∃ r, ofList is = .ok r) ↔
        (∀ i ∈ is, i.validateVersions = .ok ()) ∧ (is.map Interface.name).Nodup)
      ∧ (∀ r, ofList is = .ok r →
          r.interfaces.Perm is ∧ r.size = is.length
            ∧ r.interfaces.Pairwise (fun i j => compare i.name j.name = .lt)
            ∧ (∀ name i, r.get? name = some i ↔ i ∈ is ∧ i.name = name)
            ∧ ∀ js : List Interface, js.Perm is → ofList js = .ok r)
      ∧ ∀ e, ofList is = .error e ↔
          ∃ n, FlawAt is n e ∧ ∀ m < n, ∀ e', ¬FlawAt is m e' := by
  refine ⟨?_, fun r h => ?_, fun e => ⟨flawAt_of_ofList, ?_⟩⟩
  · rw [exists_ofList_iff]
    exact ⟨fun h => ⟨h.valid, h.distinct⟩, fun h => ⟨h.1, h.2⟩⟩
  · have hperm := interfaces_of_ofList h
    refine ⟨hperm, ?_, r.pairwise_interfaces, fun name i => ?_, fun js hjs => ?_⟩
    · rw [← hperm.length_eq, interfaces, SortedMap.values, List.length_map]
      rfl
    · rw [get?_eq_some_iff, hperm.mem_iff]
    · -- The other order is admissible too, and its registry holds the same interfaces.
      obtain ⟨r', h'⟩ := exists_ofList_iff.2 ((exists_ofList_iff.1 ⟨r, h⟩).perm hjs.symm)
      rw [h', eq_of_perm ((interfaces_of_ofList h').trans (hjs.trans hperm.symm))]
  · rintro ⟨n, hflaw, hfirst⟩
    rcases Outcome.eq_ok_or_eq_error (ofList is) with hok | ⟨e', he'⟩
    · exact absurd hflaw (admissible_iff.1 (exists_ofList_iff.1 hok) n e)
    · -- Both flaws are the first one, so they are at the same position.
      obtain ⟨n', hflaw', hfirst'⟩ := flawAt_of_ofList he'
      obtain rfl : n = n' := by
        apply Nat.le_antisymm
        · exact Nat.le_of_not_lt fun hlt => hfirst n' hlt e' hflaw'
        · exact Nat.le_of_not_lt fun hlt => hfirst' n hlt e hflaw
      rw [he', hflaw.unique hflaw']

end InterfacePlan.Registry
