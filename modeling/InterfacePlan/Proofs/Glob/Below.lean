import InterfacePlan.Proofs.Glob.Descent
import InterfacePlan.Proofs.Glob.Grammar
import InterfacePlan.Proofs.Glob.Listing
import InterfacePlan.Proofs.Path.Relative
/-!
# Files below a directory

The files that a pattern lists in a plain directory lie below it: the components of each path are
those of the directory, without a dot at the start, and then steps that lead to the file from there.
If the pattern asks for files with some extension, the steps are names, so the file stands below the
place of the directory itself.

## Main definitions

* `Glob.LiesBelow`: files below a directory, with the steps that lead to them

## Main results

* `Glob.PathPattern.parse_join`: what a pattern below a plain path consists of
* `Glob.components_spelling`: the components of what a walk to a directory spells
* `Glob.exists_liesBelow_of_mem_files`: every listed file lies below the directory
* `Glob.LiesBelow.exists_names`: files with some extension are reached by names
-/

namespace InterfacePlan.Glob

variable {dir q : Path} {cs ds : List Char} {ps : List Pattern}

/-! ## Components without slashes -/

theorem characterSet?_eq_some {t : Token} {n : Nat} {rest : List Char}
    (h : characterSet? cs = some (t, n, rest)) : (∀ c, t ≠ .char c) ∧ rest ⊆ cs := by
  have hbehind : ∀ c (cs : List Char), (cs.dropWhile (· ≠ ']')).drop 1 ⊆ c :: cs := fun c cs =>
    (((List.drop_sublist 1 _).trans (List.dropWhile_sublist _)).cons c).subset
  unfold characterSet? at h
  split at h
  case h_1 c cs =>
    split at h
    · simp only [Option.some.injEq, Prod.mk.injEq] at h
      obtain ⟨rfl, -, rfl⟩ := h
      exact ⟨by simp, List.subset_cons_of_subset _ (hbehind c cs)⟩
    · cases h
  case h_2 => cases h
  case h_3 c cs _ _ =>
    split at h
    · simp only [Option.some.injEq, Prod.mk.injEq] at h
      obtain ⟨rfl, -, rfl⟩ := h
      exact ⟨by simp, hbehind c cs⟩
    · cases h
  case h_4 => cases h

/-- Characters of a pattern that stand for themselves are characters of its text. -/
theorem mem_of_char_mem_tokens {atStart : Bool} {position : Nat} {ts : List Token}
    (h : tokens atStart position cs = .ok ts) {c : Char} (hc : .char c ∈ ts) : c ∈ cs := by
  fun_induction tokens atStart position cs generalizing ts with
  | case1 =>
    obtain rfl := Except.ok.inj h
    simp at hc
  | case2 | case3 | case6 | case9 => cases h
  | case4 =>
    obtain rfl := Except.ok.inj h
    simp at hc
  | case5 | case7 | case8 =>
    obtain ⟨ts, hts, rfl⟩ := Outcome.map_eq_ok_iff.1 h
    simp_all
  | case10 atStart position cs t n rest hset ih =>
    obtain ⟨ts, hts, rfl⟩ := Outcome.map_eq_ok_iff.1 h
    obtain ⟨hset, hrest⟩ := characterSet?_eq_some hset
    rcases List.mem_cons.1 hc with hc | hc
    · exact absurd hc.symm (hset c)
    · exact List.mem_cons_of_mem _ (hrest (ih hts hc))
  | case11 atStart position d cs _ _ _ _ _ ih =>
    obtain ⟨ts, hts, rfl⟩ := Outcome.map_eq_ok_iff.1 h
    rcases List.mem_cons.1 hc with hc | hc
    · exact List.mem_cons.2 (.inl (Token.char.inj hc))
    · exact List.mem_cons_of_mem _ (ih hts hc)

theorem char_mem_of_plain? {ts : List Token} (h : Pattern.plain? ts = some cs) :
    ∀ c ∈ cs, .char c ∈ ts := by
  induction ts generalizing cs with
  | nil =>
    obtain rfl := Option.some.inj h
    simp
  | cons t ts ih =>
    cases t with
    | char d =>
      obtain ⟨ds, hds, rfl⟩ := Option.map_eq_some_iff.1 h
      intro c hc
      rcases List.mem_cons.1 hc with rfl | hc
      · exact List.mem_cons_self ..
      · exact List.mem_cons_of_mem _ (ih hds c hc)
    | _ => cases h

/-- **A text without slashes is a pattern for a part of a path.** -/
theorem Pattern.isPart_of_parse {p : Pattern} (hslash : '/' ∉ cs) (h : parse cs = .ok p) :
    p.IsPart := by
  obtain ⟨ts, hts, rfl⟩ := Outcome.map_eq_ok_iff.1 h
  intro name hname
  obtain ⟨ds, hds, rfl⟩ := Option.map_eq_some_iff.1 hname
  rw [String.toList_ofList]
  exact fun hmem => hslash (mem_of_char_mem_tokens hts (char_mem_of_plain? hds _ hmem))

/-! ## Patterns below a plain path -/

theorem collapse_subset (ps : List Pattern) : collapse ps ⊆ ps := by
  fun_induction collapse ps with
  | case1 p q ps _ ih => exact List.subset_cons_of_subset _ ih
  | case2 p q ps _ ih => exact List.cons_subset_cons _ ih
  | case3 => exact List.Subset.refl _

theorem exists_collapse_cons (p : Pattern) (ps : List Pattern) :
    ∃ q qs, collapse (p :: ps) = q :: qs := by
  induction ps generalizing p with
  | nil => exact ⟨p, [], by simp [collapse]⟩
  | cons q ps ih =>
    rw [collapse]
    split
    · exact ih q
    · exact ⟨p, _, rfl⟩

/-- **A pattern below a plain path** spells the path part by part, and goes on with its own
components. -/
theorem PathPattern.parse_join {pattern : PathPattern} (hdir : dir ≠ "")
    (hplain : IsPlain dir.toList) (hq : q ≠ "") (hrelative : q.toList.head? ≠ some '/')
    (hparse : parse (Path.join dir q) = .ok pattern) :
    ∃ ps, (partsOf q.toList).mapM Pattern.parse = .ok ps ∧ ps ≠ []
      ∧ pattern.start = (startOf dir).1
      ∧ pattern.components = (partsOf (startOf dir).2).map .plain ++ collapse ps := by
  have hqs : q.toList ≠ [] := mt String.toList_eq_nil_iff.1 hq
  rw [parse_eq, startOf_join hdir hrelative] at hparse
  obtain ⟨-, -, hparse⟩ := Outcome.bind_eq_ok_iff.1 hparse
  obtain ⟨components, hcomponents, hparse⟩ := Outcome.bind_eq_ok_iff.1 hparse
  obtain rfl := Except.ok.inj hparse
  rw [componentTexts_append hqs, List.mapM_append,
    mapM_parse_partsOf (hplain.subset (startOf_subset dir)), Outcome.ok_bind] at hcomponents
  obtain ⟨ps, hps, hcomponents⟩ := Outcome.bind_eq_ok_iff.1 hcomponents
  obtain rfl := Except.ok.inj hcomponents
  have hne : ps ≠ [] := by
    rintro rfl
    have hnil := List.forall₂_nil_right_iff.1 (Outcome.mapM_eq_ok_iff.1 hps)
    exact partsOf_ne_nil hqs hnil
  obtain ⟨p, ps, rfl⟩ := List.exists_cons_of_ne_nil hne
  exact ⟨p :: ps, hps, hne, rfl, collapse_plain_append _ p ps⟩

/-- The components that a pattern has by itself are patterns for parts of a path. -/
theorem isPart_of_mapM_parse (hps : (partsOf cs).mapM Pattern.parse = .ok ps) :
    ∀ p ∈ collapse ps, p.IsPart := by
  intro p hp
  obtain ⟨part, hpart, hparse⟩ := Outcome.exists_right_of_forall₂
    (List.Forall₂.flip (Outcome.mapM_eq_ok_iff.1 hps)) (collapse_subset ps hp)
  exact Pattern.isPart_of_parse
    (Text.not_mem_of_mem_splitOn (mem_splitOn_of_mem_partsOf hpart)) hparse

/-! ## Spelled components -/

theorem filterMap_partsOf (cs : List Char) : (partsOf cs).filterMap Path.component?
    = (Text.splitOn '/' cs).filterMap Path.component? := by
  unfold partsOf
  split
  case isTrue hlast =>
    obtain ⟨parts, hparts⟩ := List.getLast?_eq_some_iff.1 hlast
    rw [hparts, List.dropLast_concat, List.filterMap_append]
    simp [Path.component?]
  case isFalse => rfl

/-- Parts that are spelled behind a path add their components, unless it is the current
directory. -/
theorem components_spell {p : Path} {parts : List (List Char)} (hp : p ≠ "")
    (hcurrent : isCurrent p = false) (hslash : ∀ part ∈ parts, '/' ∉ part) :
    Path.components (spell p parts)
      = Path.components p ++ parts.filterMap Path.component? := by
  induction parts generalizing p with
  | nil => simp [spell]
  | cons part parts ih =>
    have hpart := hslash part (List.mem_cons_self ..)
    have hinto : into p part ≠ "" := by
      intro hempty
      have hlist := congrArg String.toList hempty
      obtain ⟨cs, hcs, -⟩ := Path.exists_asDirectory_eq p
      rw [toList_into, lead_of_not_isCurrent hcurrent, hcs] at hlist
      simp at hlist
    have hrest := ih hinto (isCurrent_into hp hcurrent part)
      fun q hq => hslash q (List.mem_cons_of_mem _ hq)
    rw [components_into hp hcurrent, Text.splitOn_of_not_mem hpart, List.append_assoc,
      ← List.filterMap_append] at hrest
    exact hrest

/-- From the current directory, parts are spelled without dots. -/
theorem components_spell_dot {parts : List (List Char)}
    (hlost : (parts.dropWhile (· = ['.'])).head? ≠ some [])
    (hne : parts.filterMap Path.component? ≠ []) (hslash : ∀ part ∈ parts, '/' ∉ part) :
    Path.components (spell "." parts) = parts.filterMap Path.component? := by
  induction parts with
  | nil => contradiction
  | cons part parts ih =>
    by_cases hdot : part = ['.']
    · subst hdot
      exact ih (by simpa using hlost) (by simpa [Path.component?] using hne)
        fun q hq => hslash q (List.mem_cons_of_mem _ hq)
    · have hpart := hslash part (List.mem_cons_self ..)
      have hnil : part ≠ [] := by
        rintro rfl
        exact hlost (by simp)
      have hinto : into "." part = String.ofList part := by rw [into, lead_dot, List.nil_append]
      obtain ⟨c, hc⟩ := Option.ne_none_iff_exists'.1
        (mt Path.component?_eq_none_iff.1 (not_or.2 ⟨hnil, hdot⟩))
      have hcomponents : Path.components (String.ofList part) = [c] := by
        rw [Path.components_of_head_ne (Reaches.head?_ne_slash hpart)
          (by simpa [Text.splitOn_of_not_mem hpart] using hdot), Text.splitOn_of_not_mem hpart]
        simp [hc]
      have hcurrent : isCurrent (String.ofList part) = false := by
        rw [← Bool.not_eq_true, isCurrent_iff, hcomponents, List.singleton_inj]
        rintro rfl
        exact Path.component?_ne_current part hc
      have hspell : Path.components (spell (String.ofList part) parts) = _ :=
        components_spell (by simpa using hnil) hcurrent
          fun q hq => hslash q (List.mem_cons_of_mem _ hq)
      rw [spell, List.foldl_cons, hinto, ← spell, hspell, hcomponents]
      simp [hc]

/-- **A walk to a directory spells its components**, apart from a dot at the start. -/
theorem components_spelling (hlost : ¬IsLost dir) (hstep : ∃ c ∈ Path.components dir, c.IsStep) :
    Path.components (spelling dir) = Path.solid dir := by
  have hslash : ∀ part ∈ partsOf (startOf dir).2, '/' ∉ part := fun part hpart =>
    Text.not_mem_of_mem_splitOn (mem_splitOn_of_mem_partsOf hpart)
  by_cases hroot : dir.toList.head? = some '/'
  · obtain ⟨cs, hcs⟩ := List.head?_eq_some_iff.1 hroot
    rw [startOf_of_eq hcs] at hslash
    have hstart : Path.components "/" = [.root] := by decide
    rw [spelling, startOf_of_eq hcs, components_spell (by decide) isCurrent_root hslash, hstart,
      filterMap_partsOf, Path.solid_of_absolute hcs]
    rfl
  · rw [startOf_of_ne hroot] at hslash
    have hparts : (partsOf dir.toList).filterMap Path.component? = Path.solid dir := by
      rw [filterMap_partsOf, Path.solid_of_relative hroot]
    have hne : (partsOf dir.toList).filterMap Path.component? ≠ [] := by
      obtain ⟨c, hc, hstep⟩ := hstep
      rw [hparts]
      exact List.ne_nil_of_mem (List.mem_filter.2 ⟨hc, by simpa using hstep.ne_current⟩)
    have hhead : ((partsOf dir.toList).dropWhile (· = ['.'])).head? ≠ some [] := fun h =>
      hlost ⟨by rw [startOf_of_ne hroot], by rwa [startOf_of_ne hroot]⟩
    rw [spelling, startOf_of_ne hroot, components_spell_dot hhead hne hslash, hparts]

theorem isCurrent_spelling (hlost : ¬IsLost dir) (hstep : ∃ c ∈ Path.components dir, c.IsStep) :
    isCurrent (spelling dir) = false := by
  rw [← Bool.not_eq_true, isCurrent_iff, components_spelling hlost hstep]
  intro h
  have hmem : .current ∈ Path.solid dir := h ▸ List.mem_singleton.2 rfl
  simp [Path.solid] at hmem

/-! ## Following steps -/

theorem text_of_component? {part : List Char} {c : Path.Component}
    (h : Path.component? part = some c) : c.text.toList = part := by
  unfold Path.component? at h
  split at h
  case isTrue => cases h
  case isFalse =>
    split at h
    case isTrue hdots =>
      obtain rfl := Option.some.inj h
      rw [hdots]
      rfl
    case isFalse =>
      obtain rfl := Option.some.inj h
      exact String.toList_ofList

/-- Empty parts and single dots may be left out. -/
theorem follow_steps {t : FileTree} (wf : t.WellFormed) {place found : Place} {node : Node}
    {parts : List (List Char)} (hnode : t.node? place = some node)
    (hfollow : WorkingTree.follow t place node parts = .ok found) :
    WorkingTree.follow t place node
      ((parts.filterMap Path.component?).map fun c => c.text.toList) = .ok found := by
  induction parts generalizing place node with
  | nil => exact hfollow
  | cons part parts ih =>
    obtain ⟨hdirectory, next, n, hstep, hn, hrest⟩ :=
      (WorkingTree.follow_cons_iff wf hnode).1 hfollow
    cases hc : Path.component? part with
    | none =>
      obtain rfl : place = next := by
        rcases Path.component?_eq_none_iff.1 hc with rfl | rfl <;> simpa using hstep
      obtain rfl := Option.some.inj (hnode.symm.trans hn)
      rw [List.filterMap_cons_none hc]
      exact ih hnode hrest
    | some c =>
      rw [List.filterMap_cons_some hc, List.map_cons, WorkingTree.follow_cons_iff wf hnode,
        text_of_component? hc]
      exact ⟨hdirectory, next, n, hstep, hn, ih hn hrest⟩

/-! ## Listed files -/

/-- **A file that lies below a directory**, with the steps that lead to it from there: they are the
components that its path has behind those of the directory. -/
structure LiesBelow (w : WorkingTree) (dir : Path) (place : Place)
    (steps : List Path.Component) (file : Path) : Prop where
  components_eq : Path.components file = Path.solid dir ++ steps
  isStep : ∀ c ∈ steps, c.IsStep
  ne_nil : steps ≠ []
  leads : ∃ found content, w.find file = .ok found
    ∧ w.tree.node? found = some (.file content)
    ∧ WorkingTree.follow w.tree place .directory (steps.map fun c => c.text.toList) = .ok found

theorem mem_filesOf_of_mem_files {w : WorkingTree} {listed : List Path} {file : Path}
    (hfiles : files w dir [q] = .ok listed) (hfile : file ∈ listed) :
    ∃ pattern paths, PathPattern.parse (Path.join dir q) = .ok pattern
      ∧ pattern.paths w = .ok paths ∧ file ∈ paths ∧ w.isFile file = true := by
  obtain ⟨found, hfound, rfl⟩ := files_singleton_eq_ok_iff.1 hfiles
  have hmem := mem_of_mem_dropRepeats_mergeSort hfile
  obtain ⟨pattern, hpattern, hrest⟩ := Outcome.bind_eq_ok_iff.1 hfound
  obtain ⟨paths, hpaths, hrest⟩ := Outcome.bind_eq_ok_iff.1 hrest
  obtain rfl := Except.ok.inj hrest
  obtain ⟨hmem, hisFile⟩ := List.mem_filter.1 hmem
  exact ⟨pattern, paths, Outcome.mapError_eq_ok_iff.1 hpattern,
    Outcome.mapError_eq_ok_iff.1 hpaths, hmem, hisFile⟩

theorem isFile_iff {w : WorkingTree} {file : Path} : w.isFile file = true ↔
    ∃ found content, w.find file = .ok found ∧ w.tree.node? found = some (.file content) := by
  unfold WorkingTree.isFile WorkingTree.node?
  cases w.find file with
  | error e => simp
  | ok found =>
    cases hnode : w.tree.node? found with
    | none => simp [hnode]
    | some node => cases node <;> simp [hnode, Node.isFile]

section Listed

variable {w : WorkingTree} {place : Place} {listed : List Path} {file : Path}
  (wf : w.tree.WellFormed) (hfind : w.find dir = .ok place)
  (hdirectory : w.tree.node? place = some .directory) (hplain : IsPlain dir.toList)
  (hq : q ≠ "") (hrelative : q.toList.head? ≠ some '/')
  (hfiles : files w dir [q] = .ok listed) (hfile : file ∈ listed)
include wf hfind hdirectory hplain hq hrelative hfiles hfile

/-- A listed file was found by a walk with the pattern's own components, from the directory on. -/
theorem exists_walk_of_mem_files : ∃ ps directoriesOnly paths,
    (partsOf q.toList).mapM Pattern.parse = .ok ps ∧ ¬IsLost dir ∧ Reaches w (spelling dir) place
      ∧ walk w directoriesOnly (collapse ps) (.ofPath w (spelling dir)) = .ok paths
      ∧ file ∈ paths ∧ w.isFile file = true := by
  obtain ⟨pattern, paths, hparse, hpaths, hmem, hisFile⟩ := mem_filesOf_of_mem_files hfiles hfile
  obtain ⟨ps, hps, hne, hstart, hcomponents⟩ :=
    PathPattern.parse_join (WorkingTree.ne_empty_of_find hfind) hplain hq hrelative hparse
  rw [PathPattern.paths, hstart, hcomponents] at hpaths
  by_cases hlost : IsLost dir
  · rw [walk_of_isLost _ _ hlost] at hpaths
    exact absurd hmem (not_mem_of_ok_nil hpaths)
  · have hcollapse : collapse ps ≠ [] := by
      obtain ⟨p, ps, rfl⟩ := List.exists_cons_of_ne_nil hne
      obtain ⟨q, qs, h⟩ := exists_collapse_cons p ps
      simp [h]
    obtain ⟨hwalk, reaches⟩ :=
      walk_to_directory hcollapse pattern.directoriesOnly wf hfind hdirectory hlost
    rw [hwalk] at hpaths
    exact ⟨ps, pattern.directoriesOnly, paths, hps, hlost, reaches, hpaths, hmem, hisFile⟩

variable (hstep : ∃ c ∈ Path.components dir, c.IsStep)
include hstep

/-- **Every file that a pattern lists below a plain path lies below it.** -/
theorem exists_liesBelow_of_mem_files : ∃ steps, LiesBelow w dir place steps file := by
  obtain ⟨ps, directoriesOnly, paths, hps, hlost, reaches, hwalk, hmem, hisFile⟩ :=
    exists_walk_of_mem_files wf hfind hdirectory hplain hq hrelative hfiles hfile
  have hcurrent := isCurrent_spelling hlost hstep
  obtain ⟨rest, hrest⟩ := under_of_walk wf reaches.ne_empty hcurrent (isPart_of_mapM_parse hps)
    (.inl rfl) hwalk hmem
  obtain ⟨found, content, hfound, hnode⟩ := isFile_iff.1 hisFile
  have hcomponents := Path.components_asDirectory reaches.ne_empty rest
  rw [hrest, String.ofList_toList, components_spelling hlost hstep] at hcomponents
  have hfollow :
      WorkingTree.follow w.tree place .directory (Text.splitOn '/' rest) = .ok found := by
    obtain ⟨-, hall⟩ := WorkingTree.find_eq_ok_iff.1 hfound
    rw [← hrest, WorkingTree.followAll_asDirectory_iff wf reaches.ne_empty] at hall
    obtain ⟨place', hplace', -, hfollow⟩ := hall
    obtain rfl : place = place' :=
      Except.ok.inj ((WorkingTree.find_eq_ok_iff.1 reaches.find_eq).2.symm.trans hplace')
    exact hfollow
  have hsteps := follow_steps wf hdirectory hfollow
  refine ⟨_, hcomponents, fun c => Path.isStep_of_mem_filterMap, fun hnil => ?_, found, content,
    hfound, hnode, hsteps⟩
  rw [hnil] at hsteps
  obtain rfl := Except.ok.inj hsteps
  rw [hdirectory] at hnode
  cases hnode

end Listed

section Definitions

variable {w : WorkingTree} {place : Place} {ext : String} {listed : List Path} {file : Path}
  {steps : List Path.Component}

theorem definitions_ne_empty (ext : String) : "**/*." ++ ext ≠ "" := by
  intro h
  have hlist := congrArg String.toList h
  rw [toList_definitions] at hlist
  simp at hlist

/-- A pattern that starts with a single star is none for a single text. -/
theorem literal?_of_parse_star {cs : List Char} {p : Pattern}
    (hparse : Pattern.parse ('*' :: '.' :: cs) = .ok p) : p.literal? = none := by
  obtain ⟨ts, hts, rfl⟩ := Outcome.map_eq_ok_iff.1 hparse
  rw [tokens_star_dot] at hts
  obtain ⟨ts, -, rfl⟩ := Outcome.map_eq_ok_iff.1 hts
  rfl

/-- **Files with some extension are reached by names**, if there is no slash in the extension. -/
theorem LiesBelow.exists_names (wf : w.tree.WellFormed) (hfind : w.find dir = .ok place)
    (hdirectory : w.tree.node? place = some .directory) (hplain : IsPlain dir.toList)
    (hslash : '/' ∉ ext.toList) (hstep : ∃ c ∈ Path.components dir, c.IsStep)
    (hfiles : files w dir ["**/*." ++ ext] = .ok listed) (hfile : file ∈ listed)
    (lies : LiesBelow w dir place steps file) :
    ∃ way, steps = way.map .name ∧ w.find file = .ok (place ++ way) := by
  obtain ⟨ps, directoriesOnly, paths, hps, hlost, reaches, hwalk, hmem, -⟩ :=
    exists_walk_of_mem_files wf hfind hdirectory hplain (definitions_ne_empty ext)
      (head?_definitions ext) hfiles hfile
  rw [partsOf_definitions hslash, Outcome.mapM_eq_ok_iff, List.forall₂_cons_left_iff] at hps
  obtain ⟨first, rest, hfirst, hrest, rfl⟩ := hps
  obtain rfl := Except.ok.inj (Pattern.parse_anyDirectories.symm.trans hfirst)
  obtain ⟨last, rest, hlast, hnil, rfl⟩ := List.forall₂_cons_left_iff.1 hrest
  obtain rfl := List.forall₂_nil_left_iff.1 hnil
  have hcollapse : ∃ p qs, collapse [.anyDirectories, last] = p :: qs ∧ p.literal? = none
      ∧ p.isRecursive = true ∧ qs.tail = [] := by
    have hdirectories : Pattern.anyDirectories.isRecursive = true := by decide
    by_cases hrecursive : last.isRecursive = true
    · exact ⟨last, [], by simp [collapse, hdirectories, hrecursive], literal?_of_parse_star hlast,
        hrecursive, rfl⟩
    · exact ⟨.anyDirectories, [last], by simp [collapse, hrecursive], rfl, hdirectories, rfl⟩
  obtain ⟨p, qs, hcollapse, hliteral, hrecursive, htail⟩ := hcollapse
  rw [hcollapse] at hwalk
  obtain ⟨place', hfind', ⟨way, node⟩, hbelow, f', found, hpath, honward, hmem⟩ :=
    exists_below_of_recursive hwalk hmem hliteral hrecursive
  obtain rfl : place' = place := Except.ok.inj (hfind'.symm.trans reaches.find_eq)
  rw [htail, onward, List.isEmpty_nil, if_pos rfl] at honward
  obtain rfl := Except.ok.inj honward
  obtain rfl : file = childPath (spelling dir) way := (Found.mem_result hmem).trans hpath
  obtain ⟨found, content, hfound, -⟩ := lies.leads
  obtain ⟨-, rfl⟩ := (reaches.find_childPath_eq_ok_iff wf hbelow).1 hfound
  have hcomponents := reaches.components_childPath wf hbelow
  rw [lies.components_eq, isCurrent_spelling hlost hstep, if_neg (by simp),
    components_spelling hlost hstep, List.append_cancel_left_eq] at hcomponents
  exact ⟨way, hcomponents, hfound⟩

end Definitions

end InterfacePlan.Glob

