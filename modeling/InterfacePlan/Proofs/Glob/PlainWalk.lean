import InterfacePlan.Proofs.Glob.PlainText
import InterfacePlan.Proofs.Glob.Spelling
/-!
# Walks to a directory

A walk does not look a directory up by the path in the pattern, but goes there part by part, and
spells its own path on the way. So `./a//b` is spelled `a/b`. There is one way to get lost: from the
current directory, an empty part is looked up as the empty path, which names nothing.

## Main definitions

* `Glob.spelling`: how a walk spells the path of a directory
* `Glob.IsLost`: paths on which a walk gets lost

## Main results

* `Glob.walk_plain_append`: a walk along plain parts
* `Glob.walk_to_directory`: a walk to a directory
* `Glob.walk_of_isLost`: a walk that gets lost finds nothing
-/

namespace InterfacePlan.Glob

open WorkingTree (follow IsUsable)

variable {w : WorkingTree} {p dir : Path} {place place' : Place} {part : List Char}
  {parts : List (List Char)}

/-! ## Walks along plain parts -/

/-- How a walk spells the path that parts lead to. -/
def spell (p : Path) (parts : List (List Char)) : Path := parts.foldl into p

/-- A walk along a plain part looks it up. -/
theorem walk_plain {ps : List Pattern} (hps : ps ≠ []) (directoriesOnly : Bool)
    (reaches : Reaches w p place) (hslash : '/' ∉ part)
    (hcontains : w.contains (into p part) = true) :
    walk w directoriesOnly (.plain part :: ps) (.ofPath w p)
      = walk w directoriesOnly ps (.ofPath w (into p part)) := by
  have hinto : (if isCurrent p then String.ofList part else Path.join p (String.ofList part))
      = into p part := by
    rw [← into_eq reaches.ne_empty (by simpa using Reaches.head?_ne_slash hslash),
      String.toList_ofList]
  have hempty : ps.isEmpty = false := by simpa using hps
  obtain ⟨node, hnode⟩ := Option.isSome_iff_exists.1 hcontains
  have hfound : Found.mk (into p part) node.isDirectory = .ofPath w (into p part) := by
    simp [Found.ofPath, WorkingTree.isDirectory, hnode]
  rw [walk.eq_def w directoriesOnly (_ :: _)]
  simp only [Pattern.literal?_plain, Found.ofPath, hinto, hempty, hnode, reaches.isDirectory,
    if_true, Bool.false_eq_true, if_false]
  rw [hfound]
  exact ite_self _

/-- **A walk along plain parts** goes where they lead, unless it gets lost. -/
theorem walk_plain_append {ps : List Pattern} (hps : ps ≠ []) (directoriesOnly : Bool)
    (wf : w.tree.WellFormed) (reaches : Reaches w p place)
    (hfollow : follow w.tree place .directory parts = .ok place')
    (hdirectory : w.tree.node? place' = some .directory)
    (husable : parts ≠ [] → IsUsable (lead p ++ Text.joinWith '/' parts))
    (hslash : ∀ part ∈ parts, '/' ∉ part)
    (hlost : isCurrent p = true → (parts.dropWhile (· = ['.'])).head? ≠ some []) :
    walk w directoriesOnly (parts.map .plain ++ ps) (.ofPath w p)
        = walk w directoriesOnly ps (.ofPath w (spell p parts))
      ∧ Reaches w (spell p parts) place' := by
  -- Induction on the parts: the walk goes one part further, and reaches a directory again.
  induction parts generalizing p place with
  | nil =>
    obtain rfl : place = place' := by simpa [follow] using hfollow
    exact ⟨rfl, reaches⟩
  | cons part parts ih =>
    obtain ⟨-, next, n, hstep, hn, hrest⟩ :=
      (WorkingTree.follow_cons_iff wf reaches.node?_eq).1 hfollow
    obtain rfl := WorkingTree.directory_of_follow wf hn hrest hdirectory
    have hpart : '/' ∉ part := hslash part (List.mem_cons_self ..)
    have hwhole := husable (List.cons_ne_nil _ _)
    have hinit : IsUsable (lead p ++ part) := by
      refine hwhole.of_sublist (List.Sublist.append_left (List.IsPrefix.sublist ?_) _)
      cases parts with
      | nil => exact List.prefix_rfl
      | cons => exact List.prefix_append ..
    have hne : isCurrent p = true → part ≠ [] := by
      rintro hcurrent rfl
      exact hlost hcurrent (by simp)
    have reaches' := reaches.into wf hstep hn hinit hpart hne
    rw [List.map_cons, List.cons_append,
      walk_plain (by simp [hps]) directoriesOnly reaches hpart reaches'.contains]
    refine ih reaches' hrest (fun hparts => hwhole.of_sublist ?_)
      (fun q hq => hslash q (List.mem_cons_of_mem _ hq)) fun hcurrent => ?_
    · rw [Text.joinWith_cons_of_ne_nil hparts]
      simpa using (lead_sublist (into p part)).append_right (Text.joinWith '/' parts)
    · -- Only a dot stays in the current directory, so the next part is as good as the first one.
      cases hp : isCurrent p with
      | false => simp [isCurrent_into reaches.ne_empty hp] at hcurrent
      | true =>
        have hdot := congrArg String.toList (reaches'.eq_dot hcurrent)
        rw [toList_into, lead_of_isCurrent hp, List.nil_append] at hdot
        simpa [show part = ['.'] from hdot] using hlost hp

/-! ## Walks to a directory -/

/-- **How a walk spells the path of a directory.** -/
def spelling (dir : Path) : Path := spell (startOf dir).1 (partsOf (startOf dir).2)

/-- **A path on which a walk gets lost**: in front of the first name of a relative path, there is
an empty part. -/
def IsLost (dir : Path) : Prop :=
  (startOf dir).1 = "."
    ∧ ((partsOf (startOf dir).2).dropWhile (· = ['.'])).head? = some []

instance (dir : Path) : Decidable (IsLost dir) := inferInstanceAs (Decidable (_ ∧ _))

/-- A walk that gets lost finds nothing. -/
theorem walk_of_isLost (directoriesOnly : Bool) (ps : List Pattern) (hlost : IsLost dir) :
    walk w directoriesOnly ((partsOf (startOf dir).2).map .plain ++ ps)
      (.ofPath w (startOf dir).1) = .ok [] := by
  obtain ⟨hstart, hempty⟩ := hlost
  rw [hstart]
  generalize partsOf (startOf dir).2 = parts at hempty ⊢
  -- Induction on the parts: dots lead from the current directory to itself.
  induction parts with
  | nil => simp at hempty
  | cons part parts ih =>
    rw [List.map_cons, List.cons_append, walk.eq_def]
    simp only [Pattern.literal?_plain, Found.ofPath, isCurrent_dot, if_true]
    by_cases hdot : part = ['.']
    · subst hdot
      have hempty' : (parts.dropWhile (· = ['.'])).head? = some [] := by simpa using hempty
      have hrest : (parts.map Pattern.plain ++ ps).isEmpty = false := by
        cases parts with
        | nil => simp at hempty'
        | cons => rfl
      have hwalk := ih hempty'
      rw [Found.ofPath] at hwalk
      simp only [hrest, show String.ofList ['.'] = "." from rfl, decide_true, Bool.true_or, if_true,
        Bool.false_eq_true, if_false, hwalk]
      exact ite_self _
    · have hpart : part = [] := by simpa [hdot] using hempty
      have hnode : w.node? "" = none := by
        simp [WorkingTree.node?, WorkingTree.find, WorkingTree.followAll]
      simp [hpart, hnode]

theorem reaches_root (w : WorkingTree) : Reaches w "/" [] where
  find_eq := by
    rw [WorkingTree.find_eq_ok_iff]
    refine ⟨⟨by decide, by decide⟩, ?_⟩
    exact (WorkingTree.followAll_cons_slash []).2 (WorkingTree.follow_splitOn_nil.2 rfl)
  node?_eq := FileTree.node?_root w.tree
  eq_dot hcurrent := by simp at hcurrent

theorem reaches_current (hnode : w.tree.node? w.current = some .directory) :
    Reaches w "." w.current where
  find_eq := by
    rw [WorkingTree.find_eq_ok_iff]
    refine ⟨⟨by decide, by decide⟩, ?_⟩
    rw [WorkingTree.followAll_of_relative (by simp) (by simp), WorkingTree.followFrom_eq_ok_iff]
    exact ⟨_, hnode, by simp [Text.splitOn, follow, Node.isFile]⟩
  node?_eq := hnode
  eq_dot _ := rfl

/-- Where a walk starts, and how it goes on from there. -/
theorem exists_reaches_startOf (wf : w.tree.WellFormed) (hfind : w.find dir = .ok place)
    (hdirectory : w.tree.node? place = some .directory) :
    ∃ start, Reaches w (startOf dir).1 start ∧ lead (startOf dir).1 ++ (startOf dir).2 = dir.toList
      ∧ follow w.tree start .directory (Text.splitOn '/' (startOf dir).2) = .ok place := by
  obtain ⟨-, hfollow⟩ := WorkingTree.find_eq_ok_iff.1 hfind
  by_cases habsolute : dir.toList.head? = some '/'
  · obtain ⟨cs, hcs⟩ := List.head?_eq_some_iff.1 habsolute
    rw [hcs, WorkingTree.followAll_cons_slash] at hfollow
    rw [startOf_of_eq hcs, hcs]
    exact ⟨[], reaches_root w, by simp, hfollow⟩
  · have hne : dir.toList ≠ [] := by
      rintro hnil
      rw [hnil] at hfollow
      cases hfollow
    rw [WorkingTree.followAll_of_relative hne habsolute] at hfollow
    obtain ⟨node, hnode, hfollow⟩ := WorkingTree.followFrom_eq_ok_iff.1 hfollow
    obtain rfl := WorkingTree.directory_of_follow wf hnode hfollow hdirectory
    rw [startOf_of_ne habsolute]
    exact ⟨w.current, reaches_current hnode, by simp, hfollow⟩

/-- An empty part at the end leads nowhere else, so it may as well be left out. -/
theorem follow_partsOf {t : FileTree} {start : Place} {node : Node} {cs : List Char}
    (wf : t.WellFormed) (hnode : t.node? start = some node)
    (hfollow : follow t start node (Text.splitOn '/' cs) = .ok place) :
    follow t start node (partsOf cs) = .ok place := by
  unfold partsOf
  split
  case isTrue hlast =>
    obtain ⟨parts, hsplit⟩ := List.getLast?_eq_some_iff.1 hlast
    rw [hsplit, WorkingTree.follow_append_iff wf hnode] at hfollow
    obtain ⟨mid, n, hmid, hn, hnil⟩ := hfollow
    obtain ⟨-, next, n, hstep, -, hrest⟩ := (WorkingTree.follow_cons_iff wf hn).1 hnil
    obtain rfl : mid = next := by simpa using hstep
    obtain rfl : mid = place := by simpa [follow] using hrest
    rwa [hsplit, List.dropLast_concat]
  case isFalse => exact hfollow

/-- **A walk to a directory** goes where the path leads, unless it gets lost. -/
theorem walk_to_directory {ps : List Pattern} (hps : ps ≠ []) (directoriesOnly : Bool)
    (wf : w.tree.WellFormed) (hfind : w.find dir = .ok place)
    (hdirectory : w.tree.node? place = some .directory) (hlost : ¬IsLost dir) :
    walk w directoriesOnly ((partsOf (startOf dir).2).map .plain ++ ps)
        (.ofPath w (startOf dir).1)
        = walk w directoriesOnly ps (.ofPath w (spelling dir))
      ∧ Reaches w (spelling dir) place := by
  obtain ⟨start, reaches, htext, hfollow⟩ := exists_reaches_startOf wf hfind hdirectory
  refine walk_plain_append hps directoriesOnly wf reaches
    (follow_partsOf wf reaches.node?_eq hfollow) hdirectory (fun _ => ?_)
    (fun part hpart => Text.not_mem_of_mem_splitOn (mem_splitOn_of_mem_partsOf hpart))
    fun hcurrent hempty => hlost ⟨reaches.eq_dot hcurrent, hempty⟩
  have husable := (WorkingTree.find_eq_ok_iff.1 hfind).1
  rw [← htext] at husable
  have hinit := joinWith_partsOf_prefix (startOf dir).2
  exact husable.of_sublist (hinit.sublist.append_left _)

end InterfacePlan.Glob
