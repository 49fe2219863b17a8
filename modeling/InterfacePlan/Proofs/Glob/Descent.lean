import InterfacePlan.Proofs.Glob.Spelling
/-!
# Descents

A walk goes on from a path by joining something to it. So whatever the components of a pattern are,
every path that a walk finds from a directory on starts with the path of the directory. The current
directory is the exception, because its dot is not spelled.

## Main definitions

* `Glob.Under`: paths that go on from the path of a directory
* `Glob.onward`: how a walk goes on with the components that are left
* `Glob.Pattern.IsPart`: patterns that do not stand for texts with a slash by themselves

## Main results

* `Glob.mem_of_visitBelow`, `Glob.mem_of_visitChildren`: where the results of visits come from
* `Glob.under_of_walk`: whatever a walk finds goes on from the path that it started from
-/

namespace InterfacePlan.Glob

variable {w : WorkingTree} {p q s : Path} {paths : List Path}

/-! ## Visits -/

theorem mem_of_visitAll {α : Type} {things : List α} {visit : α → Except WalkError (List Path)}
    (h : visitAll things visit = .ok paths) (hq : q ∈ paths) :
    ∃ t ∈ things, ∃ found, visit t = .ok found ∧ q ∈ found := by
  obtain ⟨founds, hfounds, rfl⟩ := Outcome.map_eq_ok_iff.1 h
  obtain ⟨found, hfound, hq⟩ := List.mem_flatten.1 hq
  obtain ⟨t, ht, hvisit⟩ := Outcome.exists_right_of_forall₂
    (List.Forall₂.flip (Outcome.mapM_eq_ok_iff.1 hfounds)) hfound
  exact ⟨t, ht, found, hvisit, hq⟩

/-- **What is found below a directory** is found for something that stands there. -/
theorem mem_of_visitBelow {visit : Place × Node → Except WalkError (List Path)}
    (h : visitBelow w p visit = .ok paths) (hq : q ∈ paths) :
    ∃ place, w.find p = .ok place ∧ ∃ e ∈ w.tree.below place, ∃ found,
      visit e = .ok found ∧ q ∈ found := by
  obtain ⟨entries, hentries, hall⟩ := Outcome.bind_eq_ok_iff.1 h
  obtain ⟨place, hfind, rfl⟩ := Outcome.map_eq_ok_iff.1 (Outcome.mapError_eq_ok_iff.1 hentries)
  obtain ⟨e, he, found, hvisit, hq⟩ := mem_of_visitAll hall hq
  obtain ⟨found', hfound', hrest⟩ := Outcome.bind_eq_ok_iff.1 hvisit
  have hsame : found' = found := by
    split at hrest
    case isTrue =>
      obtain ⟨_, -, hrest⟩ := Outcome.bind_eq_ok_iff.1 hrest
      exact Except.ok.inj hrest
    case isFalse => exact Except.ok.inj hrest
  exact ⟨place, hfind, e, he, found, hsame ▸ hfound', hq⟩

/-- **What is found in a directory** is found for something that stands directly in it. -/
theorem mem_of_visitChildren {visit : String × Node → Except WalkError (List Path)}
    (h : visitChildren w p visit = .ok paths) (hq : q ∈ paths) :
    ∃ place, w.find p = .ok place ∧ ∃ name node, ([name], node) ∈ w.tree.below place
      ∧ ∃ found, visit (name, node) = .ok found ∧ q ∈ found := by
  obtain ⟨entries, hentries, hall⟩ := Outcome.bind_eq_ok_iff.1 h
  obtain ⟨place, hfind, rfl⟩ := Outcome.map_eq_ok_iff.1 (Outcome.mapError_eq_ok_iff.1 hentries)
  obtain ⟨⟨name, node⟩, he, found, hvisit, hq⟩ := mem_of_visitAll hall hq
  exact ⟨place, hfind, name, node, FileTree.mem_children_iff.1 he, found, hvisit, hq⟩

/-! ## Paths that go on -/

/-- **A path that goes on from the path of a directory.** -/
def Under (s q : Path) : Prop := Path.asDirectory s <+: q.toList

/-- A path, or one that goes on from it. -/
def AtOrUnder (s q : Path) : Prop := q = s ∨ Under s q

section AtOrUnder

variable (hs : s ≠ "") (hcurrent : isCurrent s = false) (hp : AtOrUnder s p)
include hs

omit hs in
theorem exists_into_of_under (hcurrent : isCurrent s = false) (hq : Under s q) :
    ∃ rest, q = into s rest := by
  obtain ⟨rest, hrest⟩ := hq
  refine ⟨rest, ?_⟩
  rw [into, lead_of_not_isCurrent hcurrent, hrest, String.ofList_toList]

include hp in
theorem AtOrUnder.ne_empty : p ≠ "" := by
  rcases hp with rfl | hp
  · exact hs
  · rintro rfl
    obtain ⟨cs, hcs, -⟩ := Path.exists_asDirectory_eq s
    rw [Under, hcs] at hp
    simp at hp

include hcurrent hp in
theorem AtOrUnder.isCurrent_eq_false : isCurrent p = false := by
  rcases hp with rfl | hp
  · exact hcurrent
  · obtain ⟨rest, rfl⟩ := exists_into_of_under hcurrent hp
    exact isCurrent_into hs hcurrent rest

include hp in
/-- **Joining goes on from a path.** -/
theorem AtOrUnder.join (hq : q.toList.head? ≠ some '/') : Under s (Path.join p q) := by
  rw [Under, Path.toList_join (hp.ne_empty hs) hq]
  rcases hp with rfl | hp
  · exact List.prefix_append ..
  · refine List.IsPrefix.trans (List.IsPrefix.trans hp ?_) (List.prefix_append ..)
    unfold Path.asDirectory
    split
    · exact List.prefix_rfl
    · exact List.prefix_append ..

include hcurrent hp in
/-- The path of something below a directory goes on from its path. -/
theorem AtOrUnder.childPath (wf : w.tree.WellFormed) {place way : Place} {node : Node}
    (hbelow : (way, node) ∈ w.tree.below place) : Under s (childPath p way) := by
  rw [Glob.childPath, hp.isCurrent_eq_false hs hcurrent, if_neg (by simp)]
  refine hp.join hs ?_
  rw [Text.toList_join_slash]
  exact head?_joinWith_names (wf.isFileName_of_below hbelow)

end AtOrUnder

/-! ## Steps of a walk -/

/-- How a walk goes on with the components that are left. -/
def onward (w : WorkingTree) (directoriesOnly : Bool) (ps : List Pattern) (f : Found) :
    Except WalkError (List Path) :=
  if ps.isEmpty then .ok (f.result directoriesOnly) else walk w directoriesOnly ps f

/-- The path of a name that is looked up in a directory. -/
def namedPath (directory : Path) (name : String) : Path :=
  if isCurrent directory then name else Path.join directory name

/-- What a component finds for one of the names that a listing does not show. -/
def aside (w : WorkingTree) (directoriesOnly : Bool) (p : Pattern) (ps : List Pattern) (f : Found)
    (name : String) : Except WalkError (List Path) :=
  if p.startsWithDot && p.matches name then
    onward w directoriesOnly ps (.ofPath w (Path.join f.path name))
  else .ok []

section Equations

variable {directoriesOnly : Bool} {p : Pattern} {ps : List Pattern} {f : Found}

/-- **A name without special characters** is looked up. -/
theorem walk_of_literal {name : String} (hp : p.literal? = some name) :
    walk w directoriesOnly (p :: ps) f =
      if name = "." ∨ name = ".." then
        if f.isDirectory then onward w directoriesOnly ps (.ofPath w (namedPath f.path name))
        else .ok []
      else match w.node? (namedPath f.path name) with
        | some node => onward w directoriesOnly ps ⟨namedPath f.path name, node.isDirectory⟩
        | none => .ok [] := by
  rw [walk.eq_def]
  dsimp only
  rw [hp]
  simp only [Bool.or_eq_true, decide_eq_true_eq]
  rfl

section Special

variable (hp : p.literal? = none)
include hp

theorem walk_of_not_isDirectory (hdirectory : f.isDirectory = false) :
    walk w directoriesOnly (p :: ps) f = .ok [] := by
  rw [walk.eq_def]
  dsimp only
  rw [hp]
  simp [hdirectory]

theorem walk_of_isRecursive (hdirectory : f.isDirectory = true) (hrecursive : p.isRecursive = true)
    {q : Pattern} : walk w directoriesOnly (p :: q :: ps) f =
      visitBelow w f.path fun e => if q.matches (e.1.getLast?.getD "") then
        onward w directoriesOnly ps (.below f.path e) else .ok [] := by
  rw [walk.eq_def]
  dsimp only
  rw [hp]
  simp only [hdirectory, hrecursive]
  rfl

theorem walk_of_isRecursive_last (hdirectory : f.isDirectory = true)
    (hrecursive : p.isRecursive = true) : walk w directoriesOnly [p] f =
      visitBelow w f.path fun e =>
        .ok (if e.2.isDirectory then [childPath f.path e.1] else []) := by
  rw [walk.eq_def]
  dsimp only
  rw [hp]
  simp only [hdirectory, hrecursive]
  rfl

theorem walk_of_single (hdirectory : f.isDirectory = true) (hsingle : p.isRecursive = false) :
    walk w directoriesOnly (p :: ps) f = (do
      let parent ← aside w directoriesOnly p ps f ".."
      let itself ← aside w directoriesOnly p ps f "."
      let children ← visitChildren w f.path fun e => if p.matches e.1 then
        onward w directoriesOnly ps (.below f.path ([e.1], e.2)) else .ok []
      pure (parent ++ itself ++ children)) := by
  rw [walk.eq_def]
  dsimp only
  rw [hp]
  simp only [hdirectory, hsingle]
  rfl

end Special

end Equations

/-- **A step of a walk**, by one component of the pattern: to a path that is spelled there, or to
something below the directory. -/
inductive StepsTo (w : WorkingTree) (p : Pattern) (source : Path) : Path → Prop
  | named {name : String} (spelled : p.literal? = some name) :
    StepsTo w p source (if isCurrent source then name else Path.join source name)
  | special {name : String} (dots : name = "." ∨ name = "..") :
    StepsTo w p source (Path.join source name)
  | below {place way : Place} {node : Node} (stands : (way, node) ∈ w.tree.below place) :
    StepsTo w p source (childPath source way)

section Steps

theorem not_mem_of_ok_nil (h : (.ok [] : Except WalkError (List Path)) = .ok paths) :
    q ∉ paths := by
  obtain rfl := Except.ok.inj h
  exact List.not_mem_nil

/-- What is found under a condition, is found if the condition holds. -/
theorem eq_ok_of_guard {c : Prop} [Decidable c] {x : Except WalkError (List Path)}
    (h : (if c then x else .ok []) = .ok paths) (hq : q ∈ paths) : x = .ok paths := by
  split at h
  · exact h
  · exact absurd hq (not_mem_of_ok_nil h)

variable {directoriesOnly : Bool} {ps : List Pattern} {p : Pattern} {f : Found}
  (hwalk : walk w directoriesOnly (p :: ps) f = .ok paths) (hq : q ∈ paths)
include hwalk hq

/-- **Only a directory is walked** by a component with special characters. -/
theorem isDirectory_of_mem_walk (hliteral : p.literal? = none) : f.isDirectory = true := by
  by_contra hfile
  rw [walk_of_not_isDirectory hliteral (by simpa using hfile)] at hwalk
  exact not_mem_of_ok_nil hwalk hq

/-- **What a component for any number of directories finds**, it finds below the directory. The
component behind it is used up as well. -/
theorem exists_below_of_recursive (hliteral : p.literal? = none)
    (hrecursive : p.isRecursive = true) :
    ∃ place, w.find f.path = .ok place ∧ ∃ e ∈ w.tree.below place, ∃ (f' : Found) (found : _),
      f'.path = childPath f.path e.1 ∧ onward w directoriesOnly ps.tail f' = .ok found
        ∧ q ∈ found := by
  have hdirectory := isDirectory_of_mem_walk hwalk hq hliteral
  cases ps with
  | nil =>
    rw [walk_of_isRecursive_last hliteral hdirectory hrecursive] at hwalk
    obtain ⟨place, hfind, e, he, found, hfound, hq⟩ := mem_of_visitBelow hwalk hq
    obtain rfl := Except.ok.inj hfound
    split at hq
    case isTrue =>
      refine ⟨place, hfind, e, he, ⟨childPath f.path e.1, true⟩, _, rfl, ?_, hq⟩
      simp [onward, Found.result]
    case isFalse => simp at hq
  | cons p' ps =>
    rw [walk_of_isRecursive hliteral hdirectory hrecursive] at hwalk
    obtain ⟨place, hfind, e, he, found, hfound, hq⟩ := mem_of_visitBelow hwalk hq
    exact ⟨place, hfind, e, he, .below f.path e, found, rfl, eq_ok_of_guard hfound hq, hq⟩

/-- **What a walk finds, it finds after a step.** -/
theorem exists_step_of_walk : ∃ (f' : Found) (qs : List Pattern) (found : List Path),
    StepsTo w p f.path f'.path ∧ qs <:+ ps ∧ onward w directoriesOnly qs f' = .ok found
      ∧ q ∈ found := by
  cases hliteral : p.literal? with
  | some name =>
    rw [walk_of_literal hliteral] at hwalk
    split at hwalk
    case isTrue =>
      have honward := eq_ok_of_guard hwalk hq
      exact ⟨.ofPath w _, ps, paths, .named hliteral, List.suffix_rfl, honward, hq⟩
    case isFalse =>
      split at hwalk
      case h_1 node _ =>
        exact ⟨⟨_, node.isDirectory⟩, ps, paths, .named hliteral, List.suffix_rfl, hwalk, hq⟩
      case h_2 => exact absurd hq (not_mem_of_ok_nil hwalk)
  | none =>
    cases hrecursive : p.isRecursive with
    | true =>
      obtain ⟨place, -, e, he, f', found, hpath, honward, hq⟩ :=
        exists_below_of_recursive hwalk hq hliteral hrecursive
      exact ⟨f', ps.tail, found, hpath ▸ .below he, List.tail_suffix ps, honward, hq⟩
    | false =>
      have hdirectory := isDirectory_of_mem_walk hwalk hq hliteral
      rw [walk_of_single hliteral hdirectory hrecursive] at hwalk
      obtain ⟨parent, hparent, hwalk⟩ := Outcome.bind_eq_ok_iff.1 hwalk
      obtain ⟨itself, hitself, hwalk⟩ := Outcome.bind_eq_ok_iff.1 hwalk
      obtain ⟨children, hchildren, hwalk⟩ := Outcome.bind_eq_ok_iff.1 hwalk
      obtain rfl := Except.ok.inj hwalk
      -- What is found is found for the parent, for the directory itself, or for a child.
      rw [List.mem_append, List.mem_append] at hq
      rcases hq with (hq | hq) | hq
      · have honward := eq_ok_of_guard hparent hq
        exact ⟨.ofPath w _, ps, parent, .special (.inr rfl), List.suffix_rfl, honward, hq⟩
      · have honward := eq_ok_of_guard hitself hq
        exact ⟨.ofPath w _, ps, itself, .special (.inl rfl), List.suffix_rfl, honward, hq⟩
      · obtain ⟨place, -, name, node, he, found, hfound, hq⟩ := mem_of_visitChildren hchildren hq
        have honward := eq_ok_of_guard hfound hq
        exact ⟨.below f.path ([name], node), ps, found, .below he, List.suffix_rfl, honward, hq⟩

end Steps

/-! ## Walks -/

/-- **A pattern for a part of a path**: the text that it stands for, if it is a single one, has no
slash in it. -/
def Pattern.IsPart (p : Pattern) : Prop := ∀ name, p.literal? = some name → '/' ∉ name.toList

theorem Found.mem_result {f : Found} {directoriesOnly : Bool}
    (hq : q ∈ f.result directoriesOnly) : q = f.path := by
  unfold result at hq
  split at hq
  · simp at hq
  · exact List.mem_singleton.1 hq

/-- **A step goes on from a path.** -/
theorem AtOrUnder.stepsTo (wf : w.tree.WellFormed) (hs : s ≠ "") (hcurrent : isCurrent s = false)
    (hp : AtOrUnder s p) {pattern : Pattern} (hpart : pattern.IsPart)
    (hstep : StepsTo w pattern p q) : Under s q := by
  cases hstep with
  | named spelled =>
    rw [hp.isCurrent_eq_false hs hcurrent, if_neg (by simp)]
    exact hp.join hs (Reaches.head?_ne_slash (hpart _ spelled))
  | special dots =>
    refine hp.join hs ?_
    rcases dots with rfl | rfl <;> decide
  | below stands => exact hp.childPath hs hcurrent wf stands

/-- **Whatever a walk finds goes on from the path that it started from.** -/
theorem under_of_walk (wf : w.tree.WellFormed) (hs : s ≠ "") (hcurrent : isCurrent s = false)
    {directoriesOnly : Bool} {ps : List Pattern} {f : Found} (hparts : ∀ p ∈ ps, p.IsPart)
    (hf : AtOrUnder s f.path) (hwalk : walk w directoriesOnly ps f = .ok paths) (hq : q ∈ paths) :
    Under s q := by
  -- Induction on the number of components, because a step may use up two of them.
  induction hn : ps.length using Nat.strong_induction_on generalizing ps f paths with
  | _ n ih =>
  subst hn
  cases ps with
  | nil => exact absurd hq (not_mem_of_ok_nil hwalk)
  | cons p ps =>
    obtain ⟨f', qs, found, hstep, hsuffix, honward, hq⟩ := exists_step_of_walk hwalk hq
    have hf' := hf.stepsTo wf hs hcurrent (hparts p (List.mem_cons_self ..)) hstep
    rw [onward] at honward
    split at honward
    case isTrue =>
      obtain rfl := Except.ok.inj honward
      rwa [Found.mem_result hq]
    case isFalse =>
      refine ih qs.length ?_ (fun p' hp' => hparts p' ?_) (.inr hf') honward hq rfl
      · exact Nat.lt_succ_of_le hsuffix.length_le
      · exact List.mem_cons_of_mem _ (hsuffix.subset hp')

end InterfacePlan.Glob
