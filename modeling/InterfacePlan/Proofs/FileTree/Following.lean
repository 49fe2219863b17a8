import Mathlib.Data.String.Basic
import InterfacePlan.Proofs.Collection.Outcome
import InterfacePlan.Proofs.FileTree.WellFormed
import InterfacePlan.Proofs.Path.Components
/-!
# Following paths

In a well-formed file tree, following a path is taking one step after the other, and everything
below a directory is reached by the names on the way to it.

A path as a whole has to be usable as well: it is no longer than paths may be. This is why something
in a directory that can be read may have no path that leads to it.

## Main definitions

* `WorkingTree.IsUsable`: a text that is not ruled out as a path before anything is looked up

## Main results

* `WorkingTree.find_eq_ok_iff`: finding a path is following it, if it may be used
* `WorkingTree.follow_append_iff`, `WorkingTree.followAll_asDirectory_iff`: following a path that
  goes on
* `WorkingTree.follow_names`: following the names on the way to something
-/

namespace InterfacePlan

namespace WorkingTree

variable {t : FileTree} {place place' way : Place} {node : Node} {xs ys : List (List Char)}

/-! ## Following parts -/

/-- **Following a path is taking steps**, each of them from a directory. -/
theorem follow_cons_iff (wf : t.WellFormed) (hnode : t.node? place = some node) {part : List Char} :
    follow t place node (part :: xs) = .ok place' ↔ node = .directory
      ∧ ∃ next n, t.step? place part = some next ∧ t.node? next = some n
        ∧ follow t next n xs = .ok place' := by
  rw [follow, FileTree.step?]
  cases node with
  | file content => simp [Node.isFile]
  | directory =>
    simp only [Node.isFile, Bool.false_eq_true, if_false, true_and]
    split
    case isTrue => simp [hnode]
    split
    case isTrue => simp [wf.node?_dropLast hnode]
    split
    case isTrue => simp
    cases hnext : t.node? (place ++ [String.ofList part]) <;> simp [hnext]

/-- **Following a path that goes on** is following both of its parts. -/
theorem follow_append_iff (wf : t.WellFormed) (hnode : t.node? place = some node) :
    follow t place node (xs ++ ys) = .ok place' ↔
      ∃ mid n, follow t place node xs = .ok mid ∧ t.node? mid = some n
        ∧ follow t mid n ys = .ok place' := by
  induction xs generalizing place node with
  | nil => simp [follow, hnode]
  | cons part xs ih =>
    rw [List.cons_append, follow_cons_iff wf hnode]
    simp only [follow_cons_iff wf hnode]
    constructor
    · rintro ⟨hdirectory, next, n, hstep, hn, hfollow⟩
      obtain ⟨mid, m, hmid, hm, hrest⟩ := (ih hn).1 hfollow
      exact ⟨mid, m, ⟨hdirectory, next, n, hstep, hn, hmid⟩, hm, hrest⟩
    · rintro ⟨mid, m, ⟨hdirectory, next, n, hstep, hn, hmid⟩, hm, hrest⟩
      exact ⟨hdirectory, next, n, hstep, hn, (ih hn).2 ⟨mid, m, hmid, hm, hrest⟩⟩

/-- What leads to a directory starts from one. -/
theorem directory_of_follow (wf : t.WellFormed) (hnode : t.node? place = some node)
    (hfollow : follow t place node xs = .ok place')
    (hdirectory : t.node? place' = some .directory) : node = .directory := by
  cases xs with
  | nil =>
    obtain rfl : place = place' := by simpa [follow] using hfollow
    exact Option.some.inj (hnode.symm.trans hdirectory)
  | cons part xs => exact ((follow_cons_iff wf hnode).1 hfollow).1

/-- **Following the names on the way to something** leads there. -/
theorem follow_names (wf : t.WellFormed) (hplace : t.node? place = some .directory)
    (hway : t.node? (place ++ way) = some node) :
    follow t place .directory (way.map String.toList) = .ok (place ++ way) := by
  induction way generalizing place with
  | nil => simp [follow]
  | cons name way ih =>
    rw [List.append_cons] at hway ⊢
    obtain ⟨n, hn⟩ : ∃ n, t.node? (place ++ [name]) = some n := by
      by_cases hempty : way = []
      · exact ⟨node, by simpa [hempty] using hway⟩
      · exact ⟨_, wf.node?_of_append hempty hway⟩
    have hname := wf.isFileName hn (List.mem_append_right _ (List.mem_singleton.2 rfl))
    rw [List.map_cons, follow_cons_iff wf hplace]
    refine ⟨rfl, place ++ [name], n, by simp [FileTree.step?_name hname, hn], hn, ?_⟩
    cases n with
    | directory => exact ih hn hway
    | file content =>
      have hempty : way = [] := by
        by_contra hne
        rw [wf.node?_of_append hne hway] at hn
        cases hn
      simp [hempty, follow]

/-! ## Following paths -/

variable {w : WorkingTree} {p : Path} {cs : List Char}

/-- **A text that may be used as a path.** -/
def IsUsable (cs : List Char) : Prop :=
  '\x00' ∉ cs ∧ (String.ofList cs).utf8ByteSize ≤ longestPath

/-- A text from which characters are left out stays usable. -/
theorem IsUsable.of_sublist {ds : List Char} (hds : IsUsable ds) (h : cs.Sublist ds) :
    IsUsable cs := by
  refine ⟨fun hnul => hds.1 (h.subset hnul), Nat.le_trans ?_ hds.2⟩
  rw [String.utf8ByteSize_ofList, String.utf8ByteSize_ofList]
  exact String.utf8Len_le_of_sublist h

theorem find_eq_ok_iff :
    w.find p = .ok place ↔ IsUsable p.toList ∧ w.followAll p.toList = .ok place := by
  rw [find, IsUsable, String.ofList_toList]
  by_cases hnul : '\x00' ∈ p.toList
  · simp [hnul]
  · by_cases hsize : longestPath < p.utf8ByteSize
    · simp [hnul, hsize, Nat.not_le.2 hsize]
    · simp [hnul, hsize, Nat.not_lt.1 hsize]

/-- The empty path names nothing. -/
theorem ne_empty_of_find (hfind : w.find p = .ok place) : p ≠ "" := by
  rintro rfl
  simp [find, followAll] at hfind

theorem isDirectory_iff : w.isDirectory p = true ↔
    ∃ place, w.find p = .ok place ∧ w.tree.node? place = some .directory := by
  unfold isDirectory node?
  cases hfind : w.find p with
  | error e => simp
  | ok place =>
    simp only [Except.ok.injEq, exists_eq_left']
    cases w.tree.node? place with
    | none => simp
    | some node => cases node <;> simp [Node.isDirectory]

theorem follow_splitOn_nil :
    follow t place .directory (Text.splitOn '/' []) = .ok place' ↔ place = place' := by
  simp [Text.splitOn, follow, Node.isFile]

/-- Something has to stand where a path is followed from. -/
theorem followFrom_eq_ok_iff {start : Place} : followFrom t start cs = .ok place' ↔
    ∃ node, t.node? start = some node
      ∧ follow t start node (Text.splitOn '/' cs) = .ok place' := by
  unfold followFrom
  cases t.node? start <;> simp

theorem followFrom_append_slash_iff (wf : t.WellFormed) (start : Place) (cs rest : List Char) :
    followFrom t start (cs ++ '/' :: rest) = .ok place' ↔
      ∃ place, followFrom t start cs = .ok place ∧ t.node? place = some .directory
        ∧ follow t place .directory (Text.splitOn '/' rest) = .ok place' := by
  simp only [followFrom_eq_ok_iff, Text.splitOn_append_cons]
  obtain ⟨part, parts, hparts⟩ := List.exists_cons_of_ne_nil (Text.splitOn_ne_nil '/' rest)
  rw [hparts]
  constructor
  · rintro ⟨node, hstart, hfollow⟩
    obtain ⟨mid, n, hmid, hn, hrest⟩ := (follow_append_iff wf hstart).1 hfollow
    obtain ⟨rfl, -⟩ := (follow_cons_iff wf hn).1 hrest
    exact ⟨mid, ⟨node, hstart, hmid⟩, hn, hrest⟩
  · rintro ⟨mid, ⟨node, hstart, hmid⟩, hn, hrest⟩
    exact ⟨node, hstart, (follow_append_iff wf hstart).2 ⟨mid, _, hmid, hn, hrest⟩⟩

/-- An absolute path is followed from the root. -/
theorem followAll_cons_slash (cs : List Char) : w.followAll ('/' :: cs) = .ok place
    ↔ follow w.tree [] .directory (Text.splitOn '/' cs) = .ok place := by
  simp [followAll, followFrom_eq_ok_iff]

/-- A relative path is followed from the current directory. -/
theorem followAll_of_relative (hcs : cs ≠ []) (hslash : cs.head? ≠ some '/') :
    w.followAll cs = followFrom w.tree w.current cs := by
  unfold followAll
  split <;> simp_all

theorem followAll_append_slash_iff (wf : w.tree.WellFormed) (hcs : cs ≠ []) (rest : List Char) :
    w.followAll (cs ++ '/' :: rest) = .ok place' ↔
      ∃ place, w.followAll cs = .ok place ∧ w.tree.node? place = some .directory
        ∧ follow w.tree place .directory (Text.splitOn '/' rest) = .ok place' := by
  obtain ⟨c, cs, rfl⟩ := List.exists_cons_of_ne_nil hcs
  by_cases hc : c = '/'
  · subst hc
    exact followFrom_append_slash_iff wf [] cs rest
  · rw [followAll_of_relative (by simp) (by simpa using hc),
      followAll_of_relative (by simp) (by simpa using hc)]
    exact followFrom_append_slash_iff wf w.current (c :: cs) rest

/-- **Following a path into a directory** is finding the directory and following the rest. -/
theorem followAll_asDirectory_iff (wf : w.tree.WellFormed) (hp : p ≠ "") (rest : List Char) :
    w.followAll (Path.asDirectory p ++ rest) = .ok place' ↔
      ∃ place, w.followAll p.toList = .ok place ∧ w.tree.node? place = some .directory
        ∧ follow w.tree place .directory (Text.splitOn '/' rest) = .ok place' := by
  obtain ⟨cs, hcs, hp' | hp'⟩ := Path.exists_asDirectory_eq p
  · have hne : cs ≠ [] := hp' ▸ mt String.toList_eq_nil_iff.1 hp
    rw [hcs, List.append_assoc, List.singleton_append, followAll_append_slash_iff wf hne, hp']
  · rw [hcs, List.append_assoc, List.singleton_append, hp']
    by_cases hne : cs = []
    · subst hne
      simp only [List.nil_append, followAll_cons_slash, follow_splitOn_nil, exists_eq_left',
        FileTree.node?_root, true_and]
    · rw [followAll_append_slash_iff wf hne]
      constructor
      · rintro ⟨place, hplace, hdirectory, hrest⟩
        refine ⟨place, ?_, hdirectory, hrest⟩
        rw [followAll_append_slash_iff wf hne]
        exact ⟨place, hplace, hdirectory, follow_splitOn_nil.2 rfl⟩
      · rintro ⟨place, hplace, hdirectory, hrest⟩
        obtain ⟨mid, hmid, -, hnil⟩ := (followAll_append_slash_iff wf hne _).1 hplace
        obtain rfl := follow_splitOn_nil.1 hnil
        exact ⟨mid, hmid, hdirectory, hrest⟩

end WorkingTree

end InterfacePlan
