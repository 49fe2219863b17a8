import Mathlib.Data.List.Sort
import InterfacePlan.Glob.Listing
import InterfacePlan.Proofs.Path.Components
/-!
# Sorting without repetitions

Files are sorted by the components of their paths, and of neighbours with the same components only
the first is kept. Since paths of the same rank have the same components, these are neighbours after
sorting, and what is left is strictly increasing.

## Main results

* `Glob.pairwise_dropRepeats_mergeSort`: what is left is strictly increasing
* `Glob.exists_mem_dropRepeats_mergeSort`: of paths with the same components, one is left
-/

namespace InterfacePlan.Glob

variable {p q : Path} {ps : List Path}

/-- The first one of a list is kept. -/
theorem exists_dropRepeats_cons (p : Path) (ps : List Path) :
    ∃ rest, dropRepeats (p :: ps) = p :: rest := by
  cases ps with
  | nil => exact ⟨[], rfl⟩
  | cons q ps =>
    rw [dropRepeats]
    split
    · split <;> exact ⟨_, rfl⟩
    · exact ⟨_, rfl⟩

theorem dropRepeats_cons_cons (p q : Path) (ps : List Path) : dropRepeats (p :: q :: ps)
    = p :: if Path.same p q then (dropRepeats (q :: ps)).tail else dropRepeats (q :: ps) := by
  rw [dropRepeats]
  obtain ⟨rest, hrest⟩ := exists_dropRepeats_cons q ps
  rw [hrest]
  split <;> rfl

theorem dropRepeats_sublist (ps : List Path) : (dropRepeats ps).Sublist ps := by
  induction ps with
  | nil => exact List.Sublist.refl _
  | cons p ps ih =>
    cases ps with
    | nil => exact List.Sublist.refl _
    | cons q ps =>
      rw [dropRepeats_cons_cons]
      refine List.Sublist.cons_cons p ?_
      split
      · exact (List.tail_sublist _).trans ih
      · exact ih

/-- **Of paths with the same components, one is kept.** -/
theorem exists_mem_dropRepeats (hp : p ∈ ps) :
    ∃ q ∈ dropRepeats ps, Path.components q = Path.components p := by
  induction ps with
  | nil => simp at hp
  | cons first ps ih =>
    cases ps with
    | nil => exact ⟨p, hp, rfl⟩
    | cons second ps =>
      rw [dropRepeats_cons_cons]
      rcases List.mem_cons.1 hp with rfl | hp
      · exact ⟨p, List.mem_cons_self .., rfl⟩
      obtain ⟨q, hq, hcomponents⟩ := ih hp
      split
      case isTrue hsame =>
        obtain ⟨rest, hrest⟩ := exists_dropRepeats_cons second ps
        rw [hrest] at hq
        rcases List.mem_cons.1 hq with rfl | hq
        · exact ⟨first, List.mem_cons_self .., (Path.same_iff.1 hsame).trans hcomponents⟩
        · exact ⟨q, List.mem_cons_of_mem _ (by rwa [hrest]), hcomponents⟩
      case isFalse => exact ⟨q, List.mem_cons_of_mem _ hq, hcomponents⟩

/-- **What is left of a sorted list is strictly increasing.** -/
theorem pairwise_dropRepeats (h : ps.Pairwise fun p q => Path.le p q = true) :
    (dropRepeats ps).Pairwise fun p q => Path.compareComponents p q = .lt := by
  induction ps with
  | nil => exact .nil
  | cons p ps ih =>
    cases ps with
    | nil => exact List.pairwise_singleton ..
    | cons q ps =>
      obtain ⟨hp, hps⟩ := List.pairwise_cons.1 h
      obtain ⟨rest, hrest⟩ := exists_dropRepeats_cons q ps
      have hq := ih hps
      rw [dropRepeats_cons_cons, hrest] at *
      obtain ⟨hlt, htail⟩ := List.pairwise_cons.1 hq
      split
      case isTrue hsame =>
        refine List.pairwise_cons.2 ⟨fun x hx => ?_, htail⟩
        rw [Path.compareComponents, Path.same_iff.1 hsame]
        exact hlt x hx
      case isFalse hsame =>
        have hpq : Path.compareComponents p q = .lt := Path.compareComponents_eq_lt_iff.2
          ⟨hp q (List.mem_cons_self ..), by simpa using hsame⟩
        refine List.pairwise_cons.2 ⟨fun x hx => ?_, hq⟩
        rcases List.mem_cons.1 hx with rfl | hx
        · exact hpq
        · exact Path.compareComponents_trans hpq (hlt x hx)

/-- A list that is sorted, without repetitions. -/
theorem pairwise_dropRepeats_mergeSort (ps : List Path) :
    (dropRepeats (ps.mergeSort Path.le)).Pairwise
      fun p q => Path.compareComponents p q = .lt := by
  have htrans : ∀ p q r, Path.le p q = true → Path.le q r = true → Path.le p r = true :=
    fun p q r hpq hqr => Path.le_trans hpq hqr
  exact pairwise_dropRepeats (List.pairwise_mergeSort htrans Path.le_total ps)

theorem mem_of_mem_dropRepeats_mergeSort (hp : p ∈ dropRepeats (ps.mergeSort Path.le)) :
    p ∈ ps :=
  List.mem_mergeSort.1 ((dropRepeats_sublist _).subset hp)

theorem exists_mem_dropRepeats_mergeSort (hp : p ∈ ps) :
    ∃ q ∈ dropRepeats (ps.mergeSort Path.le), Path.components q = Path.components p :=
  exists_mem_dropRepeats (List.mem_mergeSort.2 hp)

end InterfacePlan.Glob
