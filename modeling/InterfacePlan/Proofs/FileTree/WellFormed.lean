import Mathlib.Data.List.Induction
import InterfacePlan.FileTree.WorkingTree
/-!
# Well-formed file trees

In a file tree as it is read from a disk, whatever stands somewhere stands in a directory, under a
name that a path can spell.

## Main definitions

* `FileTree.IsFileName`, `FileTree.WellFormed`: names that paths can spell, and trees of them
* `FileTree.step?`: where a single part of a path leads

## Main results

* `FileTree.mem_below_iff`: what stands below a place
* `FileTree.WellFormed.node?_of_append`: things stand below directories only
* `FileTree.step?_name`: where a name leads
-/

namespace InterfacePlan

namespace FileTree

/-- **A name that a path can spell**: it means itself, has no slash in it, and is not too long. -/
structure IsFileName (name : String) : Prop where
  ne_special : name.toList ∉ [[], ['.'], ['.', '.']]
  no_slash : '/' ∉ name.toList
  no_nul : '\x00' ∉ name.toList
  size_le : name.utf8ByteSize ≤ WorkingTree.longestName

instance (name : String) : Decidable (IsFileName name) :=
  decidable_of_iff (name.toList ∉ [[], ['.'], ['.', '.']] ∧ '/' ∉ name.toList
      ∧ '\x00' ∉ name.toList ∧ name.utf8ByteSize ≤ WorkingTree.longestName)
    ⟨fun ⟨h, h', h'', h'''⟩ => ⟨h, h', h'', h'''⟩, fun ⟨h, h', h'', h'''⟩ => ⟨h, h', h'', h'''⟩⟩

namespace IsFileName

variable {name : String} (h : IsFileName name)
include h

theorem ne_nil : name.toList ≠ [] := fun hname => h.ne_special (by simp [hname])

theorem ne_dot : name.toList ≠ ['.'] := fun hname => h.ne_special (by simp [hname])

theorem ne_dots : name.toList ≠ ['.', '.'] := fun hname => h.ne_special (by simp [hname])

end IsFileName

/-- **A well-formed file tree**: everything in it has a name and stands in a directory. -/
structure WellFormed (t : FileTree) : Prop where
  names : ∀ e ∈ t.nodes.toList, ∀ name ∈ e.1, IsFileName name
  parents : ∀ e ∈ t.nodes.toList, t.node? e.1.dropLast = some .directory

variable {t : FileTree} {place way : Place} {node : Node}

@[simp] theorem node?_root (t : FileTree) : t.node? [] = some .directory := if_pos rfl

theorem mem_nodes_iff (hplace : place ≠ []) :
    (place, node) ∈ t.nodes.toList ↔ t.node? place = some node := by
  rw [SortedMap.mem_toList_iff, node?, if_neg hplace]

/-! ## Below a place -/

theorem wayBelow?_eq_some_iff {start place way : Place} :
    wayBelow? start place = some way ↔ way ≠ [] ∧ place = start ++ way := by
  induction start generalizing place with
  | nil =>
    cases place with
    | nil => simp [wayBelow?, eq_comm]
    | cons b place =>
      simp only [wayBelow?, Option.some.injEq, List.nil_append]
      exact ⟨fun h => ⟨h ▸ List.cons_ne_nil _ _, h⟩, And.right⟩
  | cons a start ih =>
    cases place with
    | nil => simp [wayBelow?]
    | cons b place =>
      rw [wayBelow?]
      split
      case isTrue hab => simp [hab, ih]
      case isFalse hab => simp [Ne.symm hab]

/-- **What stands below a place.** -/
theorem mem_below_iff :
    (way, node) ∈ t.below place ↔ way ≠ [] ∧ t.node? (place ++ way) = some node := by
  simp only [below, List.mem_filterMap, Option.map_eq_some_iff, Prod.mk.injEq, Prod.exists,
    wayBelow?_eq_some_iff]
  constructor
  · rintro ⟨place', node', he, way', ⟨hway, rfl⟩, rfl, rfl⟩
    exact ⟨hway, (mem_nodes_iff (by simp [hway])).1 he⟩
  · rintro ⟨hway, hnode⟩
    exact ⟨_, _, (mem_nodes_iff (by simp [hway])).2 hnode, way, ⟨hway, rfl⟩, rfl, rfl⟩

/-- **What stands directly in a place.** -/
theorem mem_children_iff {name : String} :
    (name, node) ∈ t.children place ↔ ([name], node) ∈ t.below place := by
  rw [children, List.mem_filterMap]
  constructor
  · rintro ⟨⟨way, node'⟩, hbelow, heq⟩
    dsimp only at heq
    split at heq
    case h_1 =>
      obtain ⟨rfl, rfl⟩ := Prod.mk.inj (Option.some.inj heq)
      exact hbelow
    case h_2 => cases heq
  · intro hbelow
    exact ⟨_, hbelow, rfl⟩

namespace WellFormed

variable (wf : t.WellFormed)
include wf

theorem isFileName (hnode : t.node? place = some node) {name : String} (hname : name ∈ place) :
    IsFileName name :=
  wf.names _ ((mem_nodes_iff (List.ne_nil_of_mem hname)).2 hnode) name hname

theorem isFileName_of_below (hbelow : (way, node) ∈ t.below place) :
    ∀ name ∈ way, IsFileName name :=
  fun _ hname => wf.isFileName (mem_below_iff.1 hbelow).2 (List.mem_append_right _ hname)

theorem node?_dropLast (hnode : t.node? place = some node) :
    t.node? place.dropLast = some .directory := by
  by_cases hplace : place = []
  · simp [hplace]
  · exact wf.parents _ ((mem_nodes_iff hplace).2 hnode)

/-- Something stands below directories only. -/
theorem node?_of_append (hway : way ≠ []) (hnode : t.node? (place ++ way) = some node) :
    t.node? place = some .directory := by
  -- Induction on the way from its end: a shorter one leads to a directory, if it is one at all.
  induction way using List.reverseRecOn generalizing node with
  | nil => contradiction
  | append_singleton way name ih =>
    have hparent := wf.node?_dropLast hnode
    rw [← List.append_assoc, List.dropLast_concat] at hparent
    by_cases hempty : way = []
    · simpa [hempty] using hparent
    · exact ih hempty hparent

end WellFormed

/-! ## Steps -/

/-- **Where a single part of a path leads**, from a directory. -/
def step? (t : FileTree) (place : Place) (part : List Char) : Option Place :=
  if part = [] || part = ['.'] then some place
  else if part = ['.', '.'] then some place.dropLast
  else if WorkingTree.longestName < (String.ofList part).utf8ByteSize then none
  else if (t.node? (place ++ [String.ofList part])).isSome then
    some (place ++ [String.ofList part])
  else none

@[simp] theorem step?_nil (t : FileTree) (place : Place) : t.step? place [] = some place := rfl

@[simp] theorem step?_dot (t : FileTree) (place : Place) : t.step? place ['.'] = some place := rfl

theorem step?_name {name : String} (hname : IsFileName name) :
    t.step? place name.toList
      = if (t.node? (place ++ [name])).isSome then some (place ++ [name]) else none := by
  rw [step?, String.ofList_toList, if_neg (by simp [hname.ne_nil, hname.ne_dot]),
    if_neg hname.ne_dots, if_neg (Nat.not_lt.2 hname.size_le)]

end FileTree

end InterfacePlan
