import InterfacePlan.Proofs.Glob.Descent
/-!
# When walks succeed

A walk fails at the first directory that it has to list and cannot read. It does not list everything
that it comes to: names without special characters are looked up, and a file is not listed. So which
directories a walk lists depends on the pattern and on the tree, and it succeeds exactly if it can
read all of them.

## Main definitions

* `Glob.GoesOn`: the steps of a walk, with the components that are left after each
* `Glob.ListsHere`, `Glob.Lists`: the directories that a walk lists
* `Glob.CanList`: directories that can be read
* `Glob.CanListHere`, `Glob.CanGoOn`: what a walk needs for its next component, and behind it

## Main results

* `Glob.exists_walk_cons_eq_ok_iff`: when a walk gets over its next component
* `Glob.exists_walk_eq_ok_iff`: when a walk succeeds
-/

namespace InterfacePlan.Glob

variable {w : WorkingTree} {path : Path} {p : Pattern} {ps : List Pattern} {f : Found}
  {directoriesOnly : Bool}

/-- **A directory that can be read**: its path can be followed. -/
def CanList (w : WorkingTree) (directory : Path) : Prop := ∃ place, w.find directory = .ok place

/-! ## Visits -/

/-- What is tried under a condition succeeds if it does where the condition holds. -/
theorem exists_guard_eq_ok_iff {c : Prop} [Decidable c] {x : Except WalkError (List Path)} :
    (∃ paths, (if c then x else .ok []) = .ok paths) ↔ (c → ∃ paths, x = .ok paths) := by
  split <;> simp_all

theorem exists_visitAll_eq_ok_iff {α : Type} {things : List α}
    {visit : α → Except WalkError (List Path)} : (∃ paths, visitAll things visit = .ok paths) ↔
      ∀ t ∈ things, ∃ found, visit t = .ok found :=
  Outcome.exists_map_eq_ok_iff.trans Outcome.exists_mapM_eq_ok_iff

/-- **What is done with the entries of a directory** is done if the directory can be read. -/
theorem exists_entries_eq_ok_iff {α β : Type} {entriesOf : Place → α}
    {visit : α → Except WalkError β} :
    (∃ b, (((w.find path).map entriesOf).mapError (WalkError.mk path) >>= visit) = .ok b) ↔
      ∃ place, w.find path = .ok place ∧ ∃ b, visit (entriesOf place) = .ok b := by
  cases w.find path <;> simp [bind, Except.bind, Except.map, Except.mapError]

/-- **Visiting what is in a directory** succeeds if the directory can be read and all visits
succeed. -/
theorem exists_visitChildren_eq_ok_iff {visit : String × Node → Except WalkError (List Path)} :
    (∃ paths, visitChildren w path visit = .ok paths) ↔ ∃ place, w.find path = .ok place
      ∧ ∀ name node, ([name], node) ∈ w.tree.below place →
          ∃ found, visit (name, node) = .ok found := by
  refine exists_entries_eq_ok_iff.trans (exists_congr fun place => and_congr_right fun _ => ?_)
  rw [exists_visitAll_eq_ok_iff, Prod.forall]
  simp only [FileTree.mem_children_iff]

/-- **Visiting everything below a directory** succeeds if all directories can be read, the one that
it starts from as well as those that it finds, and all visits succeed. -/
theorem exists_visitBelow_eq_ok_iff {visit : Place × Node → Except WalkError (List Path)} :
    (∃ paths, visitBelow w path visit = .ok paths) ↔ ∃ place, w.find path = .ok place
      ∧ ∀ e ∈ w.tree.below place, (∃ found, visit e = .ok found)
        ∧ (e.2.isDirectory = true → CanList w (childPath path e.1)) := by
  refine exists_entries_eq_ok_iff.trans (exists_congr fun place => and_congr_right fun _ => ?_)
  rw [exists_visitAll_eq_ok_iff]
  refine forall₂_congr fun e _ => ?_
  unfold CanList
  dsimp only
  cases visit e <;> cases e.2.isDirectory <;> cases w.find (childPath path e.1) <;>
    simp [bind, Except.bind, Except.mapError]

/-! ## Steps -/

/-- **The steps of a walk**: from what it has come to, with the components that are left there, to
what it goes on with. -/
inductive GoesOn (w : WorkingTree) (f : Found) : List Pattern → List Pattern → Found → Prop
  | dots {p : Pattern} {ps : List Pattern} {name : String} (spelled : p.literal? = some name)
      (isDots : name = "." ∨ name = "..") (directory : f.isDirectory = true) :
      GoesOn w f (p :: ps) ps (.ofPath w (namedPath f.path name))
  | named {p : Pattern} {ps : List Pattern} {name : String} {node : Node}
      (spelled : p.literal? = some name) (isName : ¬(name = "." ∨ name = ".."))
      (stands : w.node? (namedPath f.path name) = some node) :
      GoesOn w f (p :: ps) ps ⟨namedPath f.path name, node.isDirectory⟩
  | below {p q : Pattern} {qs : List Pattern} {place : Place} {e : Place × Node}
      (special : p.literal? = none) (directory : f.isDirectory = true)
      (recursive : p.isRecursive = true) (found : w.find f.path = .ok place)
      (stands : e ∈ w.tree.below place) (fits : q.matches (e.1.getLast?.getD "") = true) :
      GoesOn w f (p :: q :: qs) qs (.below f.path e)
  | aside {p : Pattern} {ps : List Pattern} {name : String} (special : p.literal? = none)
      (directory : f.isDirectory = true) (single : p.isRecursive = false)
      (isDots : name = ".." ∨ name = ".") (fits : (p.startsWithDot && p.matches name) = true) :
      GoesOn w f (p :: ps) ps (.ofPath w (Path.join f.path name))
  | child {p : Pattern} {ps : List Pattern} {place : Place} {name : String} {node : Node}
      (special : p.literal? = none) (directory : f.isDirectory = true)
      (single : p.isRecursive = false) (found : w.find f.path = .ok place)
      (stands : ([name], node) ∈ w.tree.below place) (fits : p.matches name = true) :
      GoesOn w f (p :: ps) ps (.below f.path ([name], node))

/-- **The directories that a walk lists for its next component**: the one that it has come to, and
for any number of directories all those below. -/
inductive ListsHere (w : WorkingTree) (p : Pattern) (f : Found) : Path → Prop
  | itself (special : p.literal? = none) (directory : f.isDirectory = true) :
      ListsHere w p f f.path
  | below {place : Place} {e : Place × Node} (special : p.literal? = none)
      (directory : f.isDirectory = true) (recursive : p.isRecursive = true)
      (found : w.find f.path = .ok place) (stands : e ∈ w.tree.below place)
      (isDirectory : e.2.isDirectory = true) : ListsHere w p f (childPath f.path e.1)

/-- **The directories that a walk lists.** -/
inductive Lists (w : WorkingTree) : List Pattern → Found → Path → Prop
  | here {p : Pattern} {ps : List Pattern} {f : Found} {directory : Path}
      (lists : ListsHere w p f directory) : Lists w (p :: ps) f directory
  | onward {ps qs : List Pattern} {f g : Found} {directory : Path} (step : GoesOn w f ps qs g)
      (lists : Lists w qs g directory) : Lists w ps f directory

/-- A walk can read the directories that it lists for its next component. -/
def CanListHere (w : WorkingTree) (p : Pattern) (f : Found) : Prop :=
  ∀ directory, ListsHere w p f directory → CanList w directory

/-- A walk succeeds wherever it goes on. -/
def CanGoOn (w : WorkingTree) (directoriesOnly : Bool) (ps : List Pattern) (f : Found) : Prop :=
  ∀ qs g, GoesOn w f ps qs g → ∃ found, onward w directoriesOnly qs g = .ok found

theorem GoesOn.length_lt {qs : List Pattern} {g : Found} (h : GoesOn w f ps qs g) :
    qs.length < ps.length := by
  cases h <;> simp only [List.length_cons] <;> omega

section Literal

variable {name : String} (hp : p.literal? = some name)
include hp

/-- **A walk gets over a name without special characters** if it succeeds with what stands there. -/
theorem exists_walk_literal_iff : (∃ paths, walk w directoriesOnly (p :: ps) f = .ok paths) ↔
    CanGoOn w directoriesOnly (p :: ps) f := by
  rw [walk_of_literal hp]
  constructor
  · intro h qs g hstep
    cases hstep with
    | dots spelled isDots directory =>
      obtain rfl := Option.some.inj (hp.symm.trans spelled)
      rwa [if_pos isDots, if_pos directory] at h
    | named spelled isName stands =>
      obtain rfl := Option.some.inj (hp.symm.trans spelled)
      rwa [if_neg isName, stands] at h
    | below special | aside special | child special =>
      rw [hp] at special
      cases special
  · intro h
    split
    case isTrue isDots =>
      split
      case isTrue directory => exact h _ _ (.dots hp isDots directory)
      case isFalse => exact ⟨[], rfl⟩
    case isFalse isName =>
      split
      case h_1 node stands => exact h _ _ (.named hp isName stands)
      case h_2 => exact ⟨[], rfl⟩

end Literal

section Special

variable (hp : p.literal? = none)
include hp

theorem listsHere_iff_of_single (hdirectory : f.isDirectory = true)
    (hsingle : p.isRecursive = false) {directory : Path} :
    ListsHere w p f directory ↔ directory = f.path := by
  constructor
  · intro h
    cases h with
    | itself => rfl
    | below _ _ recursive =>
      rw [hsingle] at recursive
      cases recursive
  · rintro rfl
    exact .itself hp hdirectory

/-- Everything below a directory can be visited if all that is listed for it can be read. -/
theorem exists_visitBelow_iff_listsHere (hdirectory : f.isDirectory = true)
    (hrecursive : p.isRecursive = true) {visit : Place × Node → Except WalkError (List Path)} :
    (∃ paths, visitBelow w f.path visit = .ok paths) ↔
      CanListHere w p f
        ∧ ∀ place, w.find f.path = .ok place → ∀ e ∈ w.tree.below place,
            ∃ found, visit e = .ok found := by
  rw [exists_visitBelow_eq_ok_iff]
  constructor
  · rintro ⟨place, hfind, hall⟩
    refine ⟨fun directory h => ?_, fun place' hfind' e he => ?_⟩
    · cases h with
      | itself => exact ⟨place, hfind⟩
      | below _ _ _ found stands isDirectory =>
        obtain rfl := Except.ok.inj (hfind.symm.trans found)
        exact (hall _ stands).2 isDirectory
    · obtain rfl := Except.ok.inj (hfind.symm.trans hfind')
      exact (hall e he).1
  · rintro ⟨hlists, hall⟩
    obtain ⟨place, hfind⟩ := hlists _ (.itself hp hdirectory)
    refine ⟨place, hfind, fun e he => ⟨hall place hfind e he, fun isDirectory => ?_⟩⟩
    exact hlists _ (.below hp hdirectory hrecursive hfind he isDirectory)

/-- **A walk gets over any number of directories** if it can read all directories below, and
succeeds with whatever the component behind fits. -/
theorem exists_walk_recursive_iff (hdirectory : f.isDirectory = true)
    (hrecursive : p.isRecursive = true) :
    (∃ paths, walk w directoriesOnly (p :: ps) f = .ok paths) ↔
      CanListHere w p f ∧ CanGoOn w directoriesOnly (p :: ps) f := by
  cases ps with
  | nil =>
    rw [walk_of_isRecursive_last hp hdirectory hrecursive,
      exists_visitBelow_iff_listsHere hp hdirectory hrecursive]
    refine and_congr_right fun _ => iff_of_true (fun _ _ _ _ => ⟨_, rfl⟩) fun qs g hstep => ?_
    cases hstep <;> simp_all
  | cons q qs =>
    rw [walk_of_isRecursive hp hdirectory hrecursive,
      exists_visitBelow_iff_listsHere hp hdirectory hrecursive]
    refine and_congr_right fun _ => ?_
    constructor
    · intro h qs' g hstep
      cases hstep with
      | below _ _ _ found stands fits =>
        have hvisit := h _ found _ stands
        rwa [if_pos fits] at hvisit
      | dots spelled | named spelled =>
        rw [hp] at spelled
        cases spelled
      | aside _ _ single | child _ _ single =>
        rw [hrecursive] at single
        cases single
    · intro h place hfind e he
      rw [exists_guard_eq_ok_iff]
      exact fun fits => h _ _ (.below hp hdirectory hrecursive hfind he fits)

/-- **A walk gets over a component for names** if it can read the directory, and succeeds with
whatever the component fits. -/
theorem exists_walk_single_iff (hdirectory : f.isDirectory = true)
    (hsingle : p.isRecursive = false) :
    (∃ paths, walk w directoriesOnly (p :: ps) f = .ok paths) ↔
      CanListHere w p f ∧ CanGoOn w directoriesOnly (p :: ps) f := by
  rw [walk_of_single hp hdirectory hsingle]
  constructor
  · rintro ⟨paths, h⟩
    obtain ⟨parent, hparent, h⟩ := Outcome.bind_eq_ok_iff.1 h
    obtain ⟨itself, hitself, h⟩ := Outcome.bind_eq_ok_iff.1 h
    obtain ⟨children, hchildren, -⟩ := Outcome.bind_eq_ok_iff.1 h
    obtain ⟨place, hfind, hall⟩ := exists_visitChildren_eq_ok_iff.1 ⟨children, hchildren⟩
    refine ⟨fun directory hlists => ?_, fun qs g hstep => ?_⟩
    · obtain rfl := (listsHere_iff_of_single hp hdirectory hsingle).1 hlists
      exact ⟨place, hfind⟩
    · cases hstep with
      | aside _ _ _ isDots fits =>
        rcases isDots with rfl | rfl
        · exact exists_guard_eq_ok_iff.1 ⟨parent, hparent⟩ fits
        · exact exists_guard_eq_ok_iff.1 ⟨itself, hitself⟩ fits
      | child _ _ _ found stands fits =>
        obtain rfl := Except.ok.inj (hfind.symm.trans found)
        exact exists_guard_eq_ok_iff.1 (hall _ _ stands) fits
      | dots spelled | named spelled =>
        rw [hp] at spelled
        cases spelled
      | below _ _ recursive =>
        rw [hsingle] at recursive
        cases recursive
  · rintro ⟨hlists, hsteps⟩
    obtain ⟨place, hfind⟩ := hlists _ (.itself hp hdirectory)
    have haside : ∀ name, name = ".." ∨ name = "." →
        ∃ found, aside w directoriesOnly p ps f name = .ok found := fun name isDots =>
      exists_guard_eq_ok_iff.2 fun fits => hsteps _ _ (.aside hp hdirectory hsingle isDots fits)
    obtain ⟨parent, hparent⟩ := haside _ (.inl rfl)
    obtain ⟨itself, hitself⟩ := haside _ (.inr rfl)
    obtain ⟨children, hchildren⟩ :
        ∃ paths, visitChildren w f.path (fun e => if p.matches e.1 then
          onward w directoriesOnly ps (.below f.path ([e.1], e.2)) else .ok []) = .ok paths := by
      refine exists_visitChildren_eq_ok_iff.2 ⟨place, hfind, fun name node stands => ?_⟩
      rw [exists_guard_eq_ok_iff]
      exact fun fits => hsteps _ _ (.child hp hdirectory hsingle hfind stands fits)
    rw [hparent, hitself, hchildren]
    exact ⟨_, rfl⟩

end Special

/-- **When a walk gets over its next component**: it can read the directories that it lists for it,
and succeeds wherever it goes on. -/
theorem exists_walk_cons_eq_ok_iff : (∃ paths, walk w directoriesOnly (p :: ps) f = .ok paths) ↔
    CanListHere w p f ∧ CanGoOn w directoriesOnly (p :: ps) f := by
  cases hliteral : p.literal? with
  | some name =>
    rw [exists_walk_literal_iff hliteral, iff_and_self]
    intro _ directory hlists
    cases hlists with
    | itself special | below special =>
      rw [hliteral] at special
      cases special
  | none =>
    cases hdirectory : f.isDirectory with
    | false =>
      rw [walk_of_not_isDirectory hliteral hdirectory]
      refine iff_of_true ⟨[], rfl⟩ ⟨fun directory hlists => ?_, fun qs g hstep => ?_⟩
      · cases hlists <;> simp_all
      · cases hstep <;> simp_all
    | true =>
      cases hrecursive : p.isRecursive with
      | true => exact exists_walk_recursive_iff hliteral hdirectory hrecursive
      | false => exact exists_walk_single_iff hliteral hdirectory hrecursive

/-- **When a walk succeeds**: it can read every directory that it lists. -/
theorem exists_walk_eq_ok_iff : (∃ paths, walk w directoriesOnly ps f = .ok paths) ↔
    ∀ directory, Lists w ps f directory → CanList w directory := by
  -- Induction on the number of components, because a step may use up two of them.
  induction hn : ps.length using Nat.strong_induction_on generalizing ps f with
  | _ n ih =>
  subst hn
  have honward : ∀ qs g, GoesOn w f ps qs g →
      ((∃ found, onward w directoriesOnly qs g = .ok found)
        ↔ ∀ directory, Lists w qs g directory → CanList w directory) := by
    intro qs g hstep
    rw [onward]
    split
    case isTrue hempty =>
      obtain rfl := List.isEmpty_iff.1 hempty
      refine iff_of_true ⟨_, rfl⟩ fun directory h => ?_
      cases h with
      | onward step => cases step
    case isFalse => exact ih qs.length hstep.length_lt rfl
  cases ps with
  | nil =>
    refine iff_of_true ⟨[], by rw [walk.eq_def]⟩ fun directory h => ?_
    cases h with
    | onward step => cases step
  | cons p ps =>
    rw [exists_walk_cons_eq_ok_iff]
    constructor
    · rintro ⟨hhere, hsteps⟩ directory h
      cases h with
      | here lists => exact hhere _ lists
      | onward step lists => exact (honward _ _ step).1 (hsteps _ _ step) _ lists
    · intro h
      refine ⟨fun directory lists => h _ (.here lists), fun qs g step => ?_⟩
      exact (honward _ _ step).2 fun directory lists => h _ (.onward step lists)

end InterfacePlan.Glob
