import InterfacePlan.Glob.Walk
import InterfacePlan.Proofs.FileTree.Following
/-!
# How a walk spells paths

A walk spells the path of what it finds on the way. Below the current directory a path starts with
the first name, and below any other one it goes on behind a slash. Such a path leads to what was
found, provided that it is not too long, and its components are those of the directory and the names
on the way.

## Main definitions

* `Glob.lead`, `Glob.into`: what the path of something in a directory starts with, and this path
* `Glob.Reaches`: a path that a walk spelled for a directory

## Main results

* `Glob.isCurrent_iff`: which paths are the current directory
* `Glob.Reaches.find_into_iff`: where the path of something in a directory leads
* `Glob.Reaches.find_childPath`, `Glob.Reaches.components_childPath`: the paths of everything below
-/

namespace InterfacePlan

namespace Path

theorem component?_ne_current (part : List Char) : component? part ≠ some .current := by
  unfold component?
  split
  · simp
  · split <;> simp

end Path

namespace Glob

open WorkingTree (follow IsUsable)

variable {w : WorkingTree} {p dir : Path} {place place' : Place} {cs part : List Char}
  {parts : List (List Char)}

/-! ## The current directory -/

theorem all_splitOn_iff {cs : List Char} :
    ((Text.splitOn '/' cs).all fun part => part = [] || part = ['.']) = true
      ↔ (Text.splitOn '/' cs).filterMap Path.component? = [] := by
  simp [List.filterMap_eq_nil_iff, Path.component?_eq_none_iff]

/-- **A path is the current directory** if it has a single dot as its only component. -/
theorem isCurrent_iff : isCurrent p = true ↔ Path.components p = [.current] := by
  unfold isCurrent
  split
  case h_1 hp =>
    have hdot : p = "." := by rw [← String.toList_inj, hp]; rfl
    simp [hdot, Path.components, Text.splitOn]
  case h_2 cs hp =>
    rw [all_splitOn_iff, Path.components, hp]
    simp [Text.splitOn]
  case h_3 hne hne' =>
    refine iff_of_false (by simp) fun h => ?_
    by_cases hroot : p.toList.head? = some '/'
    · obtain ⟨cs, hcs⟩ := List.head?_eq_some_iff.1 hroot
      simp [Path.components, hcs] at h
    · obtain ⟨part, parts, hparts⟩ := List.exists_cons_of_ne_nil (Text.splitOn_ne_nil '/' p.toList)
      have hcomponents := Path.components_of_splitOn hroot hparts
      rw [String.ofList_toList, h] at hcomponents
      by_cases hdot : part = ['.']
      · have hjoin := Text.joinWith_splitOn '/' p.toList
        rw [hparts, hdot] at hjoin
        cases parts with
        | nil => exact hne hjoin.symm
        | cons next rest => exact hne' _ hjoin.symm
      · have hmem : Path.Component.current ∈
            (if part = ['.'] then [.current] else (Path.component? part).toList)
              ++ parts.filterMap Path.component? := hcomponents ▸ List.mem_singleton.2 rfl
        simp [hdot, Path.component?_ne_current] at hmem

/-! ## Paths of things in a directory -/

/-- **What the path of something in a directory starts with.** -/
def lead (p : Path) : List Char := if isCurrent p then [] else Path.asDirectory p

/-- **The path of something in a directory**, as a walk spells it. -/
def into (p : Path) (cs : List Char) : Path := String.ofList (lead p ++ cs)

@[simp] theorem toList_into (p : Path) (cs : List Char) : (into p cs).toList = lead p ++ cs :=
  String.toList_ofList

theorem lead_of_isCurrent (hp : isCurrent p = true) : lead p = [] := if_pos hp

theorem lead_of_not_isCurrent (hp : isCurrent p = false) : lead p = Path.asDirectory p :=
  if_neg (by simp [hp])

@[simp] theorem isCurrent_dot : isCurrent "." = true := rfl

@[simp] theorem isCurrent_root : isCurrent "/" = false := rfl

@[simp] theorem lead_dot : lead "." = [] := rfl

@[simp] theorem lead_root : lead "/" = ['/'] := by decide

/-- A walk joins the next component, except to the current directory. -/
theorem into_eq {q : Path} (hp : p ≠ "") (hq : q.toList.head? ≠ some '/') :
    into p q.toList = if isCurrent p then q else Path.join p q := by
  rw [← String.toList_inj, toList_into]
  split
  case isTrue h => rw [lead_of_isCurrent h, List.nil_append]
  case isFalse h => rw [lead_of_not_isCurrent (by simpa using h), Path.toList_join hp hq]

theorem lead_sublist (p : Path) : (lead p).Sublist (p.toList ++ ['/']) := by
  unfold lead Path.asDirectory
  split
  · exact List.nil_sublist _
  split
  · exact List.sublist_append_left ..
  · exact List.Sublist.refl _

theorem components_into (hp : p ≠ "") (hcurrent : isCurrent p = false) (cs : List Char) :
    Path.components (into p cs)
      = Path.components p ++ (Text.splitOn '/' cs).filterMap Path.component? := by
  rw [into, lead_of_not_isCurrent hcurrent, Path.components_asDirectory hp]

/-- A path that has left the current directory is not going to be it again. -/
theorem isCurrent_into (hp : p ≠ "") (hcurrent : isCurrent p = false) (cs : List Char) :
    isCurrent (into p cs) = false := by
  rw [← Bool.not_eq_true, isCurrent_iff] at hcurrent ⊢
  rw [components_into hp (by rwa [← Bool.not_eq_true, isCurrent_iff])]
  intro h
  rcases List.append_eq_singleton_iff.1 h with ⟨hnil, -⟩ | ⟨hdot, -⟩
  · exact Path.components_ne_nil hp hnil
  · exact hcurrent hdot

/-! ## Directories that are reached -/

/-- **A path that a walk spelled for a directory.** The current directory is spelled as a dot. -/
structure Reaches (w : WorkingTree) (p : Path) (place : Place) : Prop where
  find_eq : w.find p = .ok place
  node?_eq : w.tree.node? place = some .directory
  eq_dot : isCurrent p = true → p = "."

namespace Reaches

theorem ne_empty (reaches : Reaches w p place) : p ≠ "" :=
  WorkingTree.ne_empty_of_find reaches.find_eq

theorem isUsable (reaches : Reaches w p place) : IsUsable p.toList :=
  (WorkingTree.find_eq_ok_iff.1 reaches.find_eq).1

theorem isDirectory (reaches : Reaches w p place) : w.isDirectory p = true := by
  simp [WorkingTree.isDirectory, WorkingTree.node?, reaches.find_eq, reaches.node?_eq,
    Node.isDirectory]

theorem contains (reaches : Reaches w p place) : w.contains p = true := by
  simp [WorkingTree.contains, WorkingTree.node?, reaches.find_eq, reaches.node?_eq]

/-- **Where the path of something in a directory leads**: from the directory on, along the parts of
the rest. Only below the current directory, something has to be there. -/
theorem find_into_iff (wf : w.tree.WellFormed) (reaches : Reaches w p place)
    (husable : IsUsable (lead p ++ cs)) (hcs : isCurrent p = true → cs ≠ [])
    (hslash : cs.head? ≠ some '/') : w.find (into p cs) = .ok place'
      ↔ follow w.tree place .directory (Text.splitOn '/' cs) = .ok place' := by
  rw [WorkingTree.find_eq_ok_iff, toList_into, and_iff_right husable]
  cases hcurrent : isCurrent p with
  | false =>
    rw [lead_of_not_isCurrent hcurrent, WorkingTree.followAll_asDirectory_iff wf reaches.ne_empty]
    have hfollow := (WorkingTree.find_eq_ok_iff.1 reaches.find_eq).2
    simp only [hfollow, Except.ok.injEq, exists_eq_left', reaches.node?_eq, true_and]
  | true =>
    rw [lead_of_isCurrent hcurrent, List.nil_append,
      WorkingTree.followAll_of_relative (hcs hcurrent) hslash]
    obtain rfl := reaches.eq_dot hcurrent
    obtain ⟨-, hdot⟩ := WorkingTree.find_eq_ok_iff.1 reaches.find_eq
    have hdot' : WorkingTree.followFrom w.tree w.current ['.'] = .ok place := hdot
    obtain ⟨node, hnode, hfollow⟩ := WorkingTree.followFrom_eq_ok_iff.1 hdot'
    obtain ⟨rfl, next, n, hstep, -, hnil⟩ := (WorkingTree.follow_cons_iff wf hnode).1 hfollow
    obtain rfl : w.current = next := by simpa using hstep
    obtain rfl : w.current = place := by simpa [follow] using hnil
    simp [WorkingTree.followFrom_eq_ok_iff, hnode]

theorem head?_ne_slash (hslash : '/' ∉ part) : part.head? ≠ some '/' :=
  fun h => hslash (List.mem_of_head? h)

/-- **One part further**, a walk reaches where the part leads. -/
theorem into {next : Place} (wf : w.tree.WellFormed) (reaches : Reaches w p place)
    (hstep : w.tree.step? place part = some next) (hnext : w.tree.node? next = some .directory)
    (husable : IsUsable (lead p ++ part)) (hslash : '/' ∉ part)
    (hlost : isCurrent p = true → part ≠ []) : Reaches w (Glob.into p part) next where
  find_eq := by
    rw [reaches.find_into_iff wf husable hlost (head?_ne_slash hslash),
      Text.splitOn_of_not_mem hslash, WorkingTree.follow_cons_iff wf reaches.node?_eq]
    exact ⟨rfl, next, _, hstep, hnext, rfl⟩
  node?_eq := hnext
  eq_dot hcurrent := by
    cases hp : isCurrent p with
    | false => simp [isCurrent_into reaches.ne_empty hp] at hcurrent
    | true =>
      rw [← String.toList_inj, toList_into, lead_of_isCurrent hp, List.nil_append]
      unfold isCurrent at hcurrent
      rw [toList_into, lead_of_isCurrent hp, List.nil_append] at hcurrent
      split at hcurrent
      case h_1 => rfl
      case h_2 => simp at hslash
      case h_3 => cases hcurrent

end Reaches

/-! ## Everything below a directory -/

section Names

variable {way : Place} (hnames : ∀ name ∈ way, FileTree.IsFileName name)
include hnames

theorem splitOn_names (hway : way ≠ []) :
    Text.splitOn '/' (Text.joinWith '/' (way.map String.toList)) = way.map String.toList := by
  refine Text.splitOn_joinWith (by simpa using hway) fun part hpart => ?_
  obtain ⟨name, hname, rfl⟩ := List.mem_map.1 hpart
  exact (hnames name hname).no_slash

theorem component?_name {name : String} (hname : name ∈ way) :
    Path.component? name.toList = some (.name name) := by
  have h := hnames name hname
  simp [Path.component?, h.ne_nil, h.ne_dot, h.ne_dots]

theorem filterMap_component?_names :
    (way.map String.toList).filterMap Path.component? = way.map .name := by
  rw [List.filterMap_map, ← List.filterMap_eq_map]
  exact List.filterMap_congr fun name hname => component?_name hnames hname

theorem head?_joinWith_names : (Text.joinWith '/' (way.map String.toList)).head? ≠ some '/' := by
  cases way with
  | nil => simp [Text.joinWith]
  | cons name way =>
    have hname := hnames name (List.mem_cons_self ..)
    obtain ⟨c, cs, hcs⟩ := List.exists_cons_of_ne_nil hname.ne_nil
    have hc : c ≠ '/' := fun h => hname.no_slash (by simp [hcs, h])
    cases way <;> simp [Text.joinWith, hcs, hc]

theorem joinWith_names_ne_nil (hway : way ≠ []) :
    Text.joinWith '/' (way.map String.toList) ≠ [] := by
  intro hnil
  have hsplit := splitOn_names hnames hway
  rw [hnil] at hsplit
  obtain ⟨name, hname, hempty⟩ := List.mem_map.1 (hsplit ▸ List.mem_singleton.2 rfl :
    [] ∈ way.map String.toList)
  exact (hnames name hname).ne_nil hempty

end Names

namespace Reaches

variable {way : Place} {node : Node} (wf : w.tree.WellFormed) (reaches : Reaches w p place)
  (hbelow : (way, node) ∈ w.tree.below place)
include wf reaches hbelow

theorem childPath_eq :
    childPath p way = Glob.into p (Text.joinWith '/' (way.map String.toList)) := by
  have hhead := head?_joinWith_names (wf.isFileName_of_below hbelow)
  rw [← Text.toList_join_slash] at hhead ⊢
  rw [into_eq reaches.ne_empty hhead, childPath]

/-- The characters of the path are allowed. -/
theorem nul_not_mem_childPath : '\x00' ∉ (childPath p way).toList := by
  rw [childPath_eq wf reaches hbelow, toList_into]
  intro hnul
  rcases List.mem_append.1 hnul with hnul | hnul
  · rcases List.mem_append.1 ((lead_sublist p).subset hnul) with hnul | hnul
    · exact reaches.isUsable.1 hnul
    · exact absurd (List.mem_singleton.1 hnul) (by decide)
  · obtain h | ⟨part, hpart, h⟩ := Text.mem_joinWith hnul
    · exact absurd h (by decide)
    · obtain ⟨name, hname, rfl⟩ := List.mem_map.1 hpart
      exact (wf.isFileName_of_below hbelow name hname).no_nul h

/-- **The path of something below a directory leads there**, unless it is too long. -/
theorem find_childPath (hsize : (childPath p way).utf8ByteSize ≤ WorkingTree.longestPath) :
    w.find (childPath p way) = .ok (place ++ way) := by
  have hnames := wf.isFileName_of_below hbelow
  obtain ⟨hway, hnode⟩ := FileTree.mem_below_iff.1 hbelow
  have husable : IsUsable (childPath p way).toList :=
    ⟨nul_not_mem_childPath wf reaches hbelow, by rwa [String.ofList_toList]⟩
  rw [childPath_eq wf reaches hbelow] at husable ⊢
  rw [toList_into] at husable
  rw [reaches.find_into_iff wf husable (fun _ => joinWith_names_ne_nil hnames hway)
      (head?_joinWith_names hnames), splitOn_names hnames hway,
    WorkingTree.follow_names wf reaches.node?_eq hnode]

/-- Only the length of the path decides whether it leads anywhere. -/
theorem find_childPath_eq_ok_iff : w.find (childPath p way) = .ok place' ↔
    (childPath p way).utf8ByteSize ≤ WorkingTree.longestPath ∧ place' = place ++ way := by
  constructor
  · intro hfind
    have hsize := (WorkingTree.find_eq_ok_iff.1 hfind).1.2
    rw [String.ofList_toList] at hsize
    rw [find_childPath wf reaches hbelow hsize] at hfind
    exact ⟨hsize, (Except.ok.inj hfind).symm⟩
  · rintro ⟨hsize, rfl⟩
    exact find_childPath wf reaches hbelow hsize

/-- **The components of the path** are those of the directory, and the names on the way. -/
theorem components_childPath : Path.components (childPath p way)
    = (if isCurrent p then [] else Path.components p) ++ way.map .name := by
  have hnames := wf.isFileName_of_below hbelow
  obtain ⟨hway, hnode⟩ := FileTree.mem_below_iff.1 hbelow
  have hsplit := splitOn_names hnames hway
  have hparts : (Text.splitOn '/' (Text.joinWith '/' (way.map String.toList))).filterMap
      Path.component? = way.map .name := by
    rw [hsplit, filterMap_component?_names hnames]
  rw [childPath_eq wf reaches hbelow, ← hparts]
  cases hcurrent : isCurrent p with
  | false => rw [components_into reaches.ne_empty hcurrent, if_neg (by simp)]
  | true =>
    rw [Glob.into, lead_of_isCurrent hcurrent, List.nil_append, if_pos rfl, List.nil_append]
    refine Path.components_of_head_ne (head?_joinWith_names hnames) ?_
    rw [hsplit]
    intro hdot
    obtain ⟨name, hname, heq⟩ := List.mem_map.1 (List.mem_of_head? hdot)
    exact (hnames name hname).ne_dot heq

end Reaches

end Glob

end InterfacePlan
