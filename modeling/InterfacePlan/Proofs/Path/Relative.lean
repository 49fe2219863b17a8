import InterfacePlan.Path.Relative
import InterfacePlan.Proofs.Path.Components
/-!
# Paths as seen from a directory

The path from a directory to something below it consists of the components that come behind those
of the directory. A dot at the start is a component as well, so the comparison of components ends at
it. A path that has lost the dot of its directory still has the right relative path if the directory
is the dot alone. If the directory goes on behind its dot, it does not: all of its other components
are undone, including one that was taken for a part of the way.

## Main definitions

* `Path.Component.IsStep`: components behind the start of a path
* `Path.solid`: the components of a path without a dot at its start
* `Path.GoesOnFromDot`: paths that go on behind a dot
* `Path.IsNamePath`: paths that consist of names only

## Main results

* `Path.components_of_absolute`, `Path.components_of_relative`: the components of a path are its
  start and steps
* `Path.components_join`: steps that are joined are the components of the result
* `Path.toSlash_relativeTo`: the relative path of something below a directory
* `Path.parent_mem_relativeTo`: what it is for a directory that goes on from a dot
* `Path.IsNamePath.toSlash_eq`: a path that consists of names is in normal form
* `Path.IsNamePath.components_join`: what joining such a path adds
-/

namespace InterfacePlan.Path

variable {p q base : Path} {cs : List Char} {way steps : List Component}

/-! ## Steps -/

/-- **A component behind the start of a path**: a step to the parent, or a name that means itself
and has no slash in it. -/
inductive Component.IsStep : Component → Prop
  | parent : IsStep .parent
  | name {s : String} (ordinary : s.toList ∉ [[], ['.'], ['.', '.']]) (no_slash : '/' ∉ s.toList) :
    IsStep (.name s)

namespace Component.IsStep

variable {c : Component}

theorem of_component? {part : List Char} (hslash : '/' ∉ part) (h : component? part = some c) :
    c.IsStep := by
  unfold component? at h
  split at h
  case isTrue => cases h
  case isFalse hpart =>
    rw [Bool.or_eq_true, decide_eq_true_eq, decide_eq_true_eq, not_or] at hpart
    split at h
    case isTrue =>
      obtain rfl := Option.some.inj h
      exact .parent
    case isFalse hdots =>
      obtain rfl := Option.some.inj h
      exact .name (by simp [hpart, hdots]) (by simpa using hslash)

variable (h : c.IsStep)
include h

theorem ne_root : c ≠ .root := by cases h <;> simp

theorem ne_current : c ≠ .current := by cases h <;> simp

theorem no_slash : '/' ∉ c.text.toList := by
  cases h with
  | parent => decide
  | name _ no_slash => exact no_slash

theorem text_ne : c.text.toList ≠ [] ∧ c.text.toList ≠ ['.'] := by
  cases h with
  | parent => decide
  | name ordinary _ =>
    simp only [List.mem_cons, List.not_mem_nil, or_false, not_or] at ordinary
    exact ⟨ordinary.1, ordinary.2.1⟩

theorem component?_text : component? c.text.toList = some c := by
  cases h with
  | parent => decide
  | name ordinary _ =>
    simp only [List.mem_cons, List.not_mem_nil, or_false, not_or] at ordinary
    simp [component?, Component.text, ordinary]

end Component.IsStep

theorem isStep_of_mem_filterMap {c : Component}
    (hc : c ∈ (Text.splitOn '/' cs).filterMap component?) : c.IsStep := by
  obtain ⟨part, hpart, hcomponent⟩ := List.mem_filterMap.1 hc
  exact .of_component? (Text.not_mem_of_mem_splitOn hpart) hcomponent

theorem components_of_absolute (hp : p.toList = '/' :: cs) :
    components p = .root :: (Text.splitOn '/' cs).filterMap component? := by
  rw [← components_ofList_slash, ← hp, String.ofList_toList]

/-- A relative path consists of the steps between its slashes, and of a dot if it starts with
one. -/
theorem components_of_relative (hp : p.toList.head? ≠ some '/') :
    components p = (Text.splitOn '/' p.toList).filterMap component?
      ∨ components p = .current :: (Text.splitOn '/' p.toList).filterMap component? := by
  obtain ⟨part, parts, hparts⟩ := List.exists_cons_of_ne_nil (Text.splitOn_ne_nil '/' p.toList)
  have hcomponents := components_of_splitOn hp hparts
  rw [String.ofList_toList] at hcomponents
  rw [hcomponents, hparts]
  by_cases hdot : part = ['.']
  · exact .inr (by simp [hdot, component?])
  · exact .inl (by cases hpart : component? part <;> simp [hdot, hpart])

theorem isAbsolute_iff : isAbsolute p = true ↔ .root ∈ components p := by
  have hsteps : ∀ cs, .root ∉ (Text.splitOn '/' cs).filterMap component? := fun cs h =>
    (isStep_of_mem_filterMap h).ne_root rfl
  rw [isAbsolute, decide_eq_true_eq]
  by_cases hroot : p.toList.head? = some '/'
  · obtain ⟨cs, hcs⟩ := List.head?_eq_some_iff.1 hroot
    rw [components_of_absolute hcs]
    simp [hroot]
  · rcases components_of_relative hroot with h | h <;> simp [h, hroot, hsteps]

section Join

variable (h : ∀ c ∈ way, c.IsStep)
include h

theorem splitOn_join (hne : way ≠ []) :
    Text.splitOn '/' (Text.join "/" (way.map Component.text)).toList
      = way.map fun c => c.text.toList := by
  rw [Text.toList_join_slash, List.map_map]
  refine Text.splitOn_joinWith (by simpa using hne) fun part hpart => ?_
  obtain ⟨c, hc, rfl⟩ := List.mem_map.1 hpart
  exact (h c hc).no_slash

theorem filterMap_component?_text :
    (way.map fun c => c.text.toList).filterMap component? = way := by
  rw [List.filterMap_map]
  conv => rhs; rw [← List.filterMap_some (l := way)]
  exact List.filterMap_congr fun c hc => (h c hc).component?_text

/-- **Steps that are joined are the components of the result.** -/
theorem components_join : components (Text.join "/" (way.map Component.text)) = way := by
  by_cases hne : way = []
  · subst hne
    rfl
  · have hsplit := splitOn_join h hne
    obtain ⟨c, rest, rfl⟩ := List.exists_cons_of_ne_nil hne
    have hc := h c (List.mem_cons_self ..)
    have hroot : (Text.join "/" ((c :: rest).map Component.text)).toList.head? ≠ some '/' := by
      intro hroot
      obtain ⟨cs, hcs⟩ := List.head?_eq_some_iff.1 hroot
      rw [hcs, Text.splitOn, if_pos rfl, List.map_cons] at hsplit
      exact hc.text_ne.1 (List.cons.inj hsplit).1.symm
    have hdot : (Text.splitOn '/' (Text.join "/" ((c :: rest).map Component.text)).toList).head?
        ≠ some ['.'] := by
      rw [hsplit]
      simpa using hc.text_ne.2
    have hcomponents := components_of_head_ne hroot hdot
    rwa [String.ofList_toList, hsplit, filterMap_component?_text h] at hcomponents

theorem toSlash_join : toSlash (Text.join "/" (way.map Component.text))
    = Text.join "/" (way.map Component.text) := by
  rw [toSlash, components_join h]

end Join

/-! ## Directories and dots -/

/-- **The components of a path without a dot at its start.** -/
def solid (p : Path) : List Component := (components p).filter (· ≠ .current)

/-- **A path that goes on from a dot**, as `./a` does. -/
def GoesOnFromDot (p : Path) : Prop := ∃ c cs, components p = .current :: c :: cs

theorem goesOnFromDot_iff : GoesOnFromDot p ↔
    (components p).head? = some .current ∧ (components p).tail ≠ [] := by
  constructor
  · rintro ⟨c, cs, h⟩
    simp [h]
  · rintro ⟨hhead, htail⟩
    obtain ⟨cs, hcs⟩ := List.head?_eq_some_iff.1 hhead
    rw [hcs, List.tail_cons] at htail
    obtain ⟨c, cs, rfl⟩ := List.exists_cons_of_ne_nil htail
    exact ⟨c, cs, hcs⟩

instance (p : Path) : Decidable (GoesOnFromDot p) := decidable_of_iff _ goesOnFromDot_iff.symm

theorem filter_steps (h : ∀ c ∈ steps, c.IsStep) : steps.filter (· ≠ .current) = steps :=
  List.filter_eq_self.2 fun c hc => by simpa using (h c hc).ne_current

theorem solid_of_absolute (hp : p.toList = '/' :: cs) :
    solid p = .root :: (Text.splitOn '/' cs).filterMap component? := by
  rw [solid, components_of_absolute hp, List.filter_cons_of_pos (by decide),
    filter_steps fun c => isStep_of_mem_filterMap]

theorem solid_of_relative (hp : p.toList.head? ≠ some '/') :
    solid p = (Text.splitOn '/' p.toList).filterMap component? := by
  have hsteps : ((Text.splitOn '/' p.toList).filterMap component?).filter (· ≠ .current) = _ :=
    filter_steps fun c => isStep_of_mem_filterMap
  rcases components_of_relative hp with h | h
  · rw [solid, h, hsteps]
  · rw [solid, h, List.filter_cons_of_neg (by decide), hsteps]

/-- How the solid components of a path differ from all of them. -/
theorem solid_cases (p : Path) : (components p = solid p ∧ .current ∉ solid p)
    ∨ (components p = .current :: solid p ∧ ∀ c ∈ solid p, c.IsStep) := by
  have hcurrent : .current ∉ solid p := by simp [solid]
  by_cases hroot : p.toList.head? = some '/'
  · obtain ⟨cs, hcs⟩ := List.head?_eq_some_iff.1 hroot
    exact .inl ⟨by rw [components_of_absolute hcs, solid_of_absolute hcs], hcurrent⟩
  · have hsolid := solid_of_relative hroot
    rcases components_of_relative hroot with h | h
    · exact .inl ⟨h.trans hsolid.symm, hcurrent⟩
    · exact .inr ⟨by rw [h, hsolid], by
        rw [hsolid]
        exact fun c => isStep_of_mem_filterMap⟩

/-! ## Ways -/

/-- The way to something behind a list of components is what stands behind it. -/
theorem wayTo?_append (cs way : List Component) : wayTo? true cs (cs ++ way) = some way := by
  induction cs with
  | nil => rfl
  | cons c cs ih => simpa [wayTo?] using ih

/-- The dot of a directory is skipped together with the first step of the path, which is then undone
like all other steps of the directory. A step to the parent cannot be undone. -/
theorem wayTo?_of_dot {c e : Component} {cs es : List Component} (hc : c.IsStep) :
    wayTo? true (.current :: c :: cs) (c :: e :: es)
      = if c = .parent then none
        else some (c :: .parent :: (cs.map (fun _ => .parent) ++ e :: es)) := by
  have hcurrent : wayTo? true (.current :: c :: cs) (c :: e :: es)
      = (wayTo? false (c :: cs) (e :: es)).map (c :: ·) := by
    rw [wayTo?, decide_eq_false hc.ne_current.symm]
    simp
  rw [hcurrent, wayTo?, if_neg (by simp), if_neg hc.ne_current]
  split <;> simp

section Below

variable (hp : components p = solid base ++ way) (hway : ∀ c ∈ way, c.IsStep) (hne : way ≠ [])
include hp hway

/-- Without its dot, a path starts like one with it. -/
theorem isAbsolute_eq : isAbsolute base = isAbsolute p := by
  have hroot : .root ∉ way := fun h => (hway _ h).ne_root rfl
  have hsolid : .root ∈ solid base ↔ .root ∈ components base := by simp [solid]
  rw [Bool.eq_iff_iff, isAbsolute_iff, isAbsolute_iff, hp, List.mem_append, hsolid,
    or_iff_left hroot]

include hne

/-- **The relative path of something below a directory**: the steps behind the directory. -/
theorem toSlash_relativeTo (hdot : ¬GoesOnFromDot base) :
    toSlash (relativeTo base p) = Text.join "/" (way.map Component.text) := by
  have hto : wayTo? true (components base) (components p) = some way := by
    rcases solid_cases base with ⟨hbase, -⟩ | ⟨hbase, -⟩
    · rw [hp, hbase]
      exact wayTo?_append _ _
    · have hsolid : solid base = [] := by
        by_contra h
        obtain ⟨c, cs, hcs⟩ := List.exists_cons_of_ne_nil h
        exact hdot ⟨c, cs, by rw [hbase, hcs]⟩
      obtain ⟨c, cs, rfl⟩ := List.exists_cons_of_ne_nil hne
      have hc : Component.current ≠ c := fun h =>
        (hway c (List.mem_cons_self ..)).ne_current h.symm
      rw [hbase, hp, hsolid]
      simp [wayTo?, hc]
  rw [relativeTo, if_pos (isAbsolute_eq hp hway), hto]
  exact toSlash_join hway

/-- **For a directory that goes on from a dot**, there is a step to the parent among the first two
components of the relative path. -/
theorem parent_mem_relativeTo (hdot : GoesOnFromDot base) :
    .parent ∈ (components (toSlash (relativeTo base p))).take 2 := by
  have habsolute := isAbsolute_eq hp hway
  obtain ⟨c, cs, hcs⟩ := hdot
  rcases solid_cases base with ⟨hbase, hnot⟩ | ⟨hbase, hsteps⟩
  · rw [hbase] at hcs
    exact absurd (hcs ▸ List.mem_cons_self ..) hnot
  have hsolid : solid base = c :: cs := (List.cons.inj (hbase.symm.trans hcs)).2
  rw [hsolid] at hp hsteps
  have hc := hsteps c (List.mem_cons_self ..)
  obtain ⟨e, es, hes⟩ := List.exists_cons_of_ne_nil (List.append_ne_nil_of_right_ne_nil cs hne)
  rw [List.cons_append, hes] at hp
  have hrest : ∀ d ∈ e :: es, d.IsStep := by
    rw [← hes]
    exact List.forall_mem_append.2 ⟨fun d hd => hsteps d (List.mem_cons_of_mem _ hd), hway⟩
  rw [relativeTo, if_pos habsolute, hcs, hp, wayTo?_of_dot hc]
  by_cases hparent : c = .parent
  · rw [if_pos hparent]
    dsimp only
    rw [toSlash, hp, components_join (List.forall_mem_cons.2 ⟨hc, hrest⟩), hparent]
    exact List.mem_cons_self ..
  · have hundone : ∀ d ∈ c :: .parent :: (cs.map (fun _ => .parent) ++ e :: es), d.IsStep := by
      refine List.forall_mem_cons.2 ⟨hc, List.forall_mem_cons.2 ⟨.parent, ?_⟩⟩
      refine List.forall_mem_append.2 ⟨fun d hd => ?_, hrest⟩
      obtain ⟨_, -, rfl⟩ := List.mem_map.1 hd
      exact .parent
    rw [if_neg hparent]
    dsimp only
    rw [toSlash_join hundone, components_join hundone]
    exact List.mem_cons_of_mem _ (List.mem_cons_self ..)

end Below

/-! ## Paths that consist of names -/

/-- **A path that consists of names only**: no part between its slashes is empty, or a single dot,
or two dots. -/
def IsNamePath (p : Path) : Prop :=
  ∀ part ∈ Text.splitOn '/' p.toList, part ∉ [[], ['.'], ['.', '.']]

instance (p : Path) : Decidable (IsNamePath p) :=
  decidable_of_iff
    ((Text.splitOn '/' p.toList).all fun part => !List.contains [[], ['.'], ['.', '.']] part)
    (by simp [IsNamePath])

namespace IsNamePath

theorem append_slash (hp : IsNamePath p) (hq : IsNamePath q) : IsNamePath (p ++ "/" ++ q) := by
  have htext : (p ++ "/" ++ q).toList = p.toList ++ '/' :: q.toList := by
    simp [String.toList_append]
  rw [IsNamePath, htext, Text.splitOn_append_cons]
  exact List.forall_mem_append.2 ⟨hp, hq⟩

variable (hp : IsNamePath p)
include hp

theorem head?_ne_slash : p.toList.head? ≠ some '/' := by
  intro hroot
  obtain ⟨cs, hcs⟩ := List.head?_eq_some_iff.1 hroot
  exact hp [] (by simp [hcs, Text.splitOn]) (by simp)

/-- The components of a path that consists of names are its parts. -/
theorem components_eq_filterMap :
    components p = (Text.splitOn '/' p.toList).filterMap component? := by
  have hdot : (Text.splitOn '/' p.toList).head? ≠ some ['.'] := fun h =>
    hp _ (List.mem_of_head? h) (by simp)
  have hcomponents := components_of_head_ne hp.head?_ne_slash hdot
  rwa [String.ofList_toList] at hcomponents

theorem components_eq : components p
    = (Text.splitOn '/' p.toList).map fun part => .name (String.ofList part) := by
  rw [hp.components_eq_filterMap, ← List.filterMap_eq_map]
  refine List.filterMap_congr fun part hpart => ?_
  have hordinary := hp part hpart
  simp only [List.mem_cons, List.not_mem_nil, or_false, not_or] at hordinary
  simp [component?, hordinary]

theorem components_ne_nil : components p ≠ [] := by
  rw [hp.components_eq]
  simpa using Text.splitOn_ne_nil '/' p.toList

theorem isStep_of_mem_components {c : Component} (hc : c ∈ components p) : c.IsStep := by
  rw [hp.components_eq] at hc
  obtain ⟨part, hpart, rfl⟩ := List.mem_map.1 hc
  refine .name ?_ ?_ <;> rw [String.toList_ofList]
  · exact hp part hpart
  · exact Text.not_mem_of_mem_splitOn hpart

theorem parent_not_mem_components : .parent ∉ components p := by
  rw [hp.components_eq]
  simp

/-- **A path that consists of names is in normal form.** -/
theorem toSlash_eq : toSlash p = p := by
  have htexts : (components p).map Component.text
      = (Text.splitOn '/' p.toList).map String.ofList := by
    rw [hp.components_eq, List.map_map]
    rfl
  rw [toSlash, htexts, ← String.toList_inj, Text.toList_join_slash, List.map_map]
  simp [Function.comp_def, Text.joinWith_splitOn]

/-- Behind a path that consists of names, the steps of a way follow after a slash. -/
theorem join_append (hne : way ≠ []) : Text.join "/" ((components p ++ way).map Component.text)
    = p ++ "/" ++ Text.join "/" (way.map Component.text) := by
  rw [List.map_append, Text.join_append (by simpa using hp.components_ne_nil) (by simpa using hne)]
  congr 2
  exact hp.toSlash_eq

theorem components_append (q : Path) : components (p ++ "/" ++ q)
    = components p ++ (Text.splitOn '/' q.toList).filterMap component? := by
  have hne : p.toList ≠ [] := by
    intro hnil
    exact hp [] (by simp [hnil, Text.splitOn]) (by simp)
  have htext : p ++ "/" ++ q = String.ofList (p.toList ++ '/' :: q.toList) := by
    rw [← String.toList_inj]
    simp [String.toList_append]
  rw [htext, components_append_slash hne, String.ofList_toList]

/-- Nothing that starts with a path of several names has a step to the parent in the beginning. -/
theorem parent_not_mem_append_slash (hlong : 2 ≤ (components p).length) (q : Path) :
    .parent ∉ (components (p ++ "/" ++ q)).take 2 := by
  rw [hp.components_append, List.take_append_of_le_length hlong]
  exact fun h => hp.parent_not_mem_components (List.mem_of_mem_take h)

theorem two_le_length_components (hq : IsNamePath q) :
    2 ≤ (components (p ++ "/" ++ q)).length := by
  have hpos := List.length_pos_of_ne_nil hp.components_ne_nil
  have hpos' := List.length_pos_of_ne_nil hq.components_ne_nil
  rw [hp.components_append, ← hq.components_eq_filterMap, List.length_append]
  omega

/-- **Joining a path that consists of names** adds its components. -/
theorem components_join (q : Path) : components (join q p) = components q ++ components p := by
  by_cases hq : q = ""
  · have hrelative : isAbsolute p = false := by simpa [isAbsolute] using hp.head?_ne_slash
    subst hq
    simp [join, hrelative, show components "" = [] from rfl]
  · rw [← String.ofList_toList (s := join q p), toList_join hq hp.head?_ne_slash,
      components_asDirectory hq, hp.components_eq_filterMap]

theorem solid_join (q : Path) : solid (join q p) = solid q ++ components p := by
  have hsolid : (components p).filter (· ≠ .current) = components p :=
    filter_steps fun _ => hp.isStep_of_mem_components
  rw [solid, hp.components_join, List.filter_append, hsolid]
  rfl

end IsNamePath

end InterfacePlan.Path
