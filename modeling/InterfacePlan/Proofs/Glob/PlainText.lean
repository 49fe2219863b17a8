import InterfacePlan.Glob.Walk
import InterfacePlan.Proofs.Collection.Outcome
import InterfacePlan.Proofs.Path.Components
/-!
# Plain texts in patterns

A text without wildcards is a pattern for itself. So below a directory with a plain path, the
pattern for the files with some extension first spells the path, part by part, and then allows any
number of directories.

## Main definitions

* `Glob.IsPlain`: texts without wildcards
* `Glob.Pattern.plain`, `Glob.Pattern.ending`: a pattern for a single text, and one for texts with
  some ending
* `Glob.startOf`, `Glob.partsOf`: where a path starts, and its parts

## Main results

* `Glob.Pattern.matches_ending`: which names end as the pattern says
* `Glob.PathPattern.parse_below`: the pattern for files with some extension below a directory
-/

namespace InterfacePlan.Glob

/-- **A text without wildcards.** -/
def IsPlain (cs : List Char) : Prop := ∀ c ∈ cs, c ∉ ['*', '?', '[']

instance (cs : List Char) : Decidable (IsPlain cs) := List.decidableBAll _ cs

theorem IsPlain.subset {cs ds : List Char} (hds : IsPlain ds) (h : cs ⊆ ds) : IsPlain cs :=
  fun c hc => hds c (h hc)

theorem IsPlain.append {cs ds : List Char} (hcs : IsPlain cs) (hds : IsPlain ds) :
    IsPlain (cs ++ ds) :=
  List.forall_mem_append.2 ⟨hcs, hds⟩

theorem IsPlain.asDirectory {p : Path} (hp : IsPlain p.toList) : IsPlain (Path.asDirectory p) := by
  unfold Path.asDirectory
  split
  · exact hp
  · exact hp.append (by decide)

section Paths

variable {p q : Path} (hp : IsPlain p.toList) (hq : IsPlain q.toList)
include hp hq

theorem IsPlain.append_slash : IsPlain (p ++ "/" ++ q).toList := by
  rw [String.toList_append, String.toList_append]
  exact (hp.append (by decide)).append hq

theorem IsPlain.join : IsPlain (Path.join p q).toList := by
  unfold Path.join
  split
  · exact hq
  · split
    · rw [String.toList_append]
      exact hp.append hq
    · exact hp.append_slash hq

end Paths

variable {cs rest : List Char} {atStart : Bool} {position : Nat}

/-! ## Tokens -/

theorem tokens_cons_of_plain {c : Char} (hc : c ∉ ['*', '?', '[']) :
    tokens atStart position (c :: cs)
      = (tokens (c = '/') (position + 1) cs).map (.char c :: ·) := by
  simp only [List.mem_cons, List.not_mem_nil, or_false, not_or] at hc
  rw [tokens] <;> simp [hc]

/-- Whether a component starts behind a text. -/
def startsComponent (atStart : Bool) (cs : List Char) : Bool :=
  match cs.getLast? with
  | none => atStart
  | some c => c = '/'

/-- **The tokens of a plain text and what is behind it.** -/
theorem tokens_append_of_plain (hcs : IsPlain cs) :
    tokens atStart position (cs ++ rest)
      = (tokens (startsComponent atStart cs) (position + cs.length) rest).map
          (cs.map .char ++ ·) := by
  induction cs generalizing atStart position with
  | nil =>
    rw [List.nil_append, List.map_nil, startsComponent, List.getLast?_nil, List.length_nil]
    cases tokens atStart (position + 0) rest <;> rfl
  | cons c cs ih =>
    have hstarts : startsComponent atStart (c :: cs) = startsComponent (c = '/') cs := by
      unfold startsComponent
      cases hlast : cs.getLast? <;> simp [List.getLast?_cons, hlast]
    rw [List.cons_append, tokens_cons_of_plain (hcs c (List.mem_cons_self ..)),
      ih fun d hd => hcs d (List.mem_cons_of_mem _ hd), hstarts, List.length_cons]
    rw [show position + 1 + cs.length = position + (cs.length + 1) by omega]
    cases tokens (startsComponent (c = '/') cs) (position + (cs.length + 1)) rest <;> rfl

theorem tokens_of_plain (hcs : IsPlain cs) :
    tokens atStart position cs = .ok (cs.map .char) := by
  have happend : tokens atStart position (cs ++ []) = _ := tokens_append_of_plain hcs
  rw [List.append_nil, tokens] at happend
  simpa [Except.map] using happend

theorem tokens_directories (cs : List Char) :
    tokens true position ('*' :: '*' :: '/' :: cs)
      = (tokens true (position + 3) cs).map (.anyDirectories :: ·) := by
  rw [tokens.eq_def]
  simp

/-- A single star stands for any run of characters. -/
theorem tokens_star_dot (cs : List Char) : tokens atStart position ('*' :: '.' :: cs)
    = (tokens false (position + 1) ('.' :: cs)).map (.anyRun :: ·) := by
  rw [tokens.eq_def]
  simp

/-- The tokens of a single star and a plain text that starts with a dot. -/
theorem tokens_ending {ext : List Char} (hext : IsPlain ext) :
    tokens atStart position ('*' :: '.' :: ext) = .ok (.anyRun :: ('.' :: ext).map .char) := by
  have hdot : IsPlain ('.' :: ext) := by
    intro c hc
    rcases List.mem_cons.1 hc with rfl | hc
    · decide
    · exact hext c hc
  rw [tokens_star_dot, tokens_of_plain hdot]
  rfl

namespace Pattern

/-! ## Patterns for single texts -/

/-- The pattern for a single text. -/
def plain (cs : List Char) : Pattern := ⟨cs.map .char⟩

@[simp] theorem literal?_plain (cs : List Char) :
    (plain cs).literal? = some (String.ofList cs) := by
  have h : plain? (cs.map .char) = some cs := by
    induction cs with
    | nil => rfl
    | cons c cs ih => simp [plain?, ih]
  simp [literal?, plain, h]

@[simp] theorem isRecursive_plain (cs : List Char) : (plain cs).isRecursive = false := by
  simp [isRecursive, plain]

theorem parse_of_plain (hcs : IsPlain cs) : parse cs = .ok (plain cs) := by
  rw [parse, tokens_of_plain hcs]
  rfl

/-! ## Patterns for endings -/

/-- The pattern for any number of directories. -/
def anyDirectories : Pattern := ⟨[.anyDirectories]⟩

theorem parse_anyDirectories : parse ['*', '*'] = .ok anyDirectories := by
  rw [parse, Glob.tokens.eq_def]
  rfl

/-- The pattern for texts that end in a dot and an extension. -/
def ending (ext : List Char) : Pattern := ⟨.anyRun :: ('.' :: ext).map .char⟩

@[simp] theorem isRecursive_ending (ext : List Char) : (ending ext).isRecursive = false := by
  simp [isRecursive, ending]

theorem parse_ending {ext : List Char} (hext : IsPlain ext) :
    parse ('*' :: '.' :: ext) = .ok (ending ext) := by
  rw [parse, tokens_ending hext]
  rfl

theorem matchTokens_plain (cs ds : List Char) :
    matchTokens (ds.map .char) cs = true ↔ cs = ds := by
  induction ds generalizing cs with
  | nil => simp [matchTokens]
  | cons d ds ih =>
    cases cs with
    | nil => simp [matchTokens]
    | cons c cs => simp [matchTokens, Token.accepts, ih]

theorem anySuffix_iff {f : List Char → Bool} :
    anySuffix f cs = true ↔ ∃ suffix, suffix <:+ cs ∧ f suffix = true := by
  induction cs with
  | nil => simp [anySuffix]
  | cons c cs ih =>
    rw [anySuffix, Bool.or_eq_true, ih]
    simp only [List.suffix_cons_iff]
    constructor
    · rintro (h | ⟨suffix, hsuffix, h⟩)
      · exact ⟨_, .inl rfl, h⟩
      · exact ⟨suffix, .inr hsuffix, h⟩
    · rintro ⟨suffix, rfl | hsuffix, h⟩
      · exact .inl h
      · exact .inr ⟨suffix, hsuffix, h⟩

/-- **The names that a pattern for an ending stands for.** -/
theorem matches_ending {ext : List Char} {name : String} :
    (ending ext).matches name = true ↔ '.' :: ext <:+ name.toList := by
  rw [matches_eq, ending, matchTokens, anySuffix_iff]
  simp only [matchTokens_plain]
  constructor
  · rintro ⟨suffix, hsuffix, rfl⟩
    exact hsuffix
  · intro h
    exact ⟨_, h, rfl⟩

end Pattern

/-! ## Patterns below a directory -/

/-- Where a path starts, and what is behind the start. -/
def startOf (p : Path) : Path × List Char :=
  match p.toList with
  | '/' :: cs => ("/", cs)
  | cs => (".", cs)

theorem startOf_of_eq {p : Path} (hp : p.toList = '/' :: cs) : startOf p = ("/", cs) := by
  simp only [startOf, hp]

theorem startOf_of_ne {p : Path} (hp : p.toList.head? ≠ some '/') :
    startOf p = (".", p.toList) := by
  unfold startOf
  split
  case h_1 heq => simp [heq] at hp
  case h_2 => rfl

/-- The parts of a text, apart from an empty one at the end. -/
def partsOf (cs : List Char) : List (List Char) :=
  if (Text.splitOn '/' cs).getLast? = some [] then (Text.splitOn '/' cs).dropLast
  else Text.splitOn '/' cs

theorem startOf_subset (p : Path) : (startOf p).2 ⊆ p.toList := by
  unfold startOf
  split
  case h_1 cs hcs =>
    rw [hcs]
    exact List.subset_cons_self _ _
  case h_2 => exact List.Subset.refl _

theorem mem_splitOn_of_mem_partsOf {part : List Char} (h : part ∈ partsOf cs) :
    part ∈ Text.splitOn '/' cs := by
  unfold partsOf at h
  split at h
  · exact (List.dropLast_sublist _).subset h
  · exact h

/-- The parts are those of the start of a text. -/
theorem joinWith_partsOf_prefix (cs : List Char) : Text.joinWith '/' (partsOf cs) <+: cs := by
  conv => rhs; rw [← Text.joinWith_splitOn '/' cs]
  unfold partsOf
  split
  · exact Text.joinWith_dropLast_prefix _
  · exact List.prefix_rfl

/-- A text with a slash at its end, unless it is empty. -/
def closed (cs : List Char) : List Char :=
  if cs = [] ∨ cs.getLast? = some '/' then cs else cs ++ ['/']

/-- The parts of a text that goes on behind a slash at its end. -/
theorem splitOn_closed_append (cs rest : List Char) :
    Text.splitOn '/' (closed cs ++ rest) = partsOf cs ++ Text.splitOn '/' rest := by
  unfold closed partsOf
  simp only [Text.getLast?_splitOn_eq_nil_iff]
  split
  case isTrue h =>
    rcases h with rfl | h
    · rfl
    · obtain ⟨xs, rfl⟩ := List.getLast?_eq_some_iff.1 h
      rw [List.append_assoc, List.singleton_append, Text.splitOn_append_cons,
        Text.splitOn_append_cons]
      simp [Text.splitOn]
  case isFalse =>
    rw [List.append_assoc, List.singleton_append, Text.splitOn_append_cons]

/-- Joining keeps the start of a path. -/
theorem startOf_join {dir q : Path} (hdir : dir ≠ "") (hq : q.toList.head? ≠ some '/') :
    startOf (Path.join dir q) = ((startOf dir).1, closed (startOf dir).2 ++ q.toList) := by
  have hjoin := Path.toList_join hdir hq
  obtain ⟨c, cs, hcs⟩ := List.exists_cons_of_ne_nil (mt String.toList_eq_nil_iff.1 hdir)
  rw [Path.asDirectory, hcs] at hjoin
  by_cases hc : c = '/'
  · subst hc
    have hlast : ('/' :: cs).getLast? = some '/' ↔ cs = [] ∨ cs.getLast? = some '/' := by
      cases cs <;> simp [List.getLast?_cons]
    have habsolute : (Path.join dir q).toList = '/' :: (closed cs ++ q.toList) := by
      rw [hjoin, closed, ite_congr (propext hlast) (fun _ => rfl) fun _ => rfl]
      split <;> rfl
    rw [startOf_of_eq habsolute, startOf_of_eq hcs]
  · have hclosed : closed (c :: cs)
        = if (c :: cs).getLast? = some '/' then c :: cs else c :: cs ++ ['/'] := by
      simp [closed]
    rw [← hclosed] at hjoin
    have hrelative : (Path.join dir q).toList.head? ≠ some '/' := by
      rw [hjoin, hclosed]
      split <;> simpa using hc
    rw [startOf_of_ne hrelative, startOf_of_ne (by simpa [hcs] using hc), hjoin, hcs]

theorem partsOf_ne_nil (hcs : cs ≠ []) : partsOf cs ≠ [] := by
  unfold partsOf
  split
  case isTrue hlast =>
    intro hnil
    obtain ⟨parts, hparts⟩ := List.getLast?_eq_some_iff.1 hlast
    rw [hparts, List.dropLast_concat] at hnil
    have hjoin := Text.joinWith_splitOn '/' cs
    rw [hparts, hnil] at hjoin
    exact hcs hjoin.symm
  case isFalse => exact Text.splitOn_ne_nil '/' cs

/-- The components of a pattern below a path are the parts of both. -/
theorem componentTexts_append {ds : List Char} (hds : ds ≠ []) :
    componentTexts (closed cs ++ ds) = partsOf cs ++ partsOf ds := by
  have hne : (closed cs ++ ds).isEmpty = false := by simp [hds]
  have hlast : (partsOf cs ++ Text.splitOn '/' ds).getLast? = (Text.splitOn '/' ds).getLast? :=
    List.getLast?_append_of_ne_nil _ (Text.splitOn_ne_nil '/' ds)
  rw [componentTexts, hne, if_neg (by simp)]
  dsimp only
  rw [splitOn_closed_append, hlast, partsOf.eq_def ds]
  split
  · rw [List.dropLast_append_of_ne_nil (Text.splitOn_ne_nil '/' ds)]
  · rfl

/-- Each part of a plain text is a pattern for itself. -/
theorem mapM_parse_partsOf (hcs : IsPlain cs) :
    (partsOf cs).mapM Pattern.parse = .ok ((partsOf cs).map .plain) := by
  rw [Outcome.mapM_eq_ok_iff, List.forall₂_map_right_iff, List.forall₂_same]
  intro part hpart
  refine Pattern.parse_of_plain (hcs.subset ?_)
  exact Text.subset_of_mem_splitOn (mem_splitOn_of_mem_partsOf hpart)

theorem collapse_plain_append (parts : List (List Char)) (p : Pattern) (ps : List Pattern) :
    collapse (parts.map .plain ++ p :: ps) = parts.map .plain ++ collapse (p :: ps) := by
  induction parts with
  | nil => rfl
  | cons part parts ih =>
    have hcons : collapse (.plain part :: (parts.map .plain ++ p :: ps))
        = .plain part :: collapse (parts.map .plain ++ p :: ps) := by
      cases parts <;> simp [collapse]
    rw [List.map_cons, List.cons_append, hcons, ih]
    rfl

theorem PathPattern.parse_eq (pattern : String) : parse pattern = (do
    let _ ← Pattern.parse pattern.toList
    let components ← (componentTexts (startOf pattern).2).mapM Pattern.parse
    pure ⟨(startOf pattern).1, collapse components, pattern.toList.getLast? = some '/'⟩) := by
  unfold parse
  dsimp only
  split
  case h_1 cs hcs => rw [startOf_of_eq hcs]
  case h_2 hne =>
    have hrelative : pattern.toList.head? ≠ some '/' := by
      intro h
      obtain ⟨cs, hcs⟩ := List.head?_eq_some_iff.1 h
      exact hne cs hcs
    rw [startOf_of_ne hrelative]

section Below

variable {dir : Path} {ext : String} (hdir : dir ≠ "") (hplain : IsPlain dir.toList)
  (hext : IsPlain ext.toList) (hslash : '/' ∉ ext.toList)

theorem toList_definitions (ext : String) :
    ("**/*." ++ ext).toList = ['*', '*'] ++ '/' :: '*' :: '.' :: ext.toList := by
  rw [String.toList_append]
  rfl

theorem head?_definitions (ext : String) : ("**/*." ++ ext).toList.head? ≠ some '/' := by
  rw [toList_definitions]
  simp

theorem partsOf_definitions (hslash : '/' ∉ ext.toList) :
    partsOf ("**/*." ++ ext).toList = [['*', '*'], '*' :: '.' :: ext.toList] := by
  have hname : '/' ∉ '*' :: '.' :: ext.toList := by simpa using hslash
  have hsplit : Text.splitOn '/' ("**/*." ++ ext).toList
      = [['*', '*'], '*' :: '.' :: ext.toList] := by
    rw [toList_definitions, Text.splitOn_append_cons, Text.splitOn_of_not_mem hname]
    simp [Text.splitOn]
  rw [partsOf, hsplit]
  simp

include hdir in
theorem toList_join_definitions : (Path.join dir ("**/*." ++ ext)).toList
    = Path.asDirectory dir ++ (['*', '*'] ++ '/' :: '*' :: '.' :: ext.toList) := by
  rw [Path.toList_join hdir (head?_definitions ext), toList_definitions]

include hdir hplain hext in
/-- As a whole, the pattern is the path with a slash at its end, and then the wildcards. -/
theorem exists_parse_join_definitions :
    ∃ p, Pattern.parse (Path.join dir ("**/*." ++ ext)).toList = .ok p := by
  obtain ⟨cs, hcs, -⟩ := Path.exists_asDirectory_eq dir
  have hstarts : startsComponent true (Path.asDirectory dir) = true := by
    rw [hcs, startsComponent, List.getLast?_concat]
    rfl
  rw [toList_join_definitions hdir, Pattern.parse, tokens_append_of_plain hplain.asDirectory,
    hstarts]
  simp only [List.cons_append, List.nil_append]
  rw [tokens_directories, tokens_ending hext]
  exact ⟨_, rfl⟩

include hdir hplain hext hslash in
/-- Component by component, the pattern spells the parts of the path. -/
theorem mapM_parse_components : (componentTexts (startOf (Path.join dir ("**/*." ++ ext))).2).mapM
    Pattern.parse = .ok ((partsOf (startOf dir).2).map .plain
      ++ [.anyDirectories, .ending ext.toList]) := by
  have hparts : componentTexts (startOf (Path.join dir ("**/*." ++ ext))).2
      = partsOf (startOf dir).2 ++ [['*', '*'], '*' :: '.' :: ext.toList] := by
    rw [startOf_join hdir (head?_definitions ext), componentTexts_append (by simp),
      partsOf_definitions hslash]
  have hdirectory := mapM_parse_partsOf (hplain.subset (startOf_subset dir))
  rw [Outcome.mapM_eq_ok_iff] at hdirectory
  rw [hparts, Outcome.mapM_eq_ok_iff]
  have hending := Pattern.parse_ending hext
  exact List.rel_append hdirectory (.cons Pattern.parse_anyDirectories (.cons hending .nil))

include hdir hslash in
theorem getLast?_join_definitions :
    (Path.join dir ("**/*." ++ ext)).toList.getLast? ≠ some '/' := by
  intro h
  have hending : '/' ∉ '*' :: '.' :: ext.toList := by simpa using hslash
  rw [toList_join_definitions hdir, ← List.append_assoc, List.append_cons,
    List.getLast?_append_of_ne_nil _ (by simp)] at h
  exact hending (List.mem_of_getLast? h)

include hdir hplain hext hslash in
/-- **The pattern for files with some extension below a directory** spells the path of the directory
part by part. -/
theorem PathPattern.parse_below : parse (Path.join dir ("**/*." ++ ext))
    = .ok ⟨(startOf dir).1, (partsOf (startOf dir).2).map .plain
        ++ [.anyDirectories, .ending ext.toList], false⟩ := by
  obtain ⟨p, hp⟩ := exists_parse_join_definitions hdir hplain hext
  rw [parse_eq, hp, mapM_parse_components hdir hplain hext hslash,
    startOf_join hdir (head?_definitions ext)]
  simp only [Outcome.ok_bind, Outcome.pure_eq]
  rw [collapse_plain_append, decide_eq_false (getLast?_join_definitions hdir hslash)]
  simp [collapse]

end Below

end InterfacePlan.Glob
