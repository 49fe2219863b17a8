import InterfacePlan.Proofs.Glob.PlainText
/-!
# The grammar of patterns

What texts are patterns, without the way in which they are read. Two stars are a whole component and
three stars never stand together. A character set has at least one member, which may be a bracket.
A pattern with slashes has to be well formed as a whole, where a slash may be a member of a set, and
part by part, where it may not.

## Main definitions

* `Glob.IsPattern`: the grammar of patterns
* `Glob.IsPathPattern`: the grammar of patterns with slashes

## Main results

* `Glob.exists_tokens_eq_ok_iff`: a text has tokens exactly if it is in the grammar
* `Glob.PathPattern.exists_parse_eq_ok_iff`: a text is read as a pattern with slashes exactly if it
  is in the grammar
-/

namespace InterfacePlan.Glob

/-- Members of a character set up to the bracket that closes it, and the text behind it. -/
def Closes (rest cs : List Char) : Prop := ∃ members, ']' ∉ members ∧ cs = members ++ ']' :: rest

/-- **The grammar of character sets**, behind the opening bracket and with the text behind the
closing one. Whatever the first member is, it does not close the set. -/
inductive IsSet (rest : List Char) : List Char → Prop
  | oneOf {member : Char} {cs : List Char} (positive : member ≠ '!') (closes : Closes rest cs) :
    IsSet rest (member :: cs)
  | noneOf {member : Char} {cs : List Char} (closes : Closes rest cs) :
    IsSet rest ('!' :: member :: cs)

/-- **The grammar of patterns.** The flag says that the text stands at the start of a component. -/
inductive IsPattern : Bool → List Char → Prop
  | nil {atStart : Bool} : IsPattern atStart []
  | lastDirectories : IsPattern true ['*', '*']
  | directories {cs : List Char} (pattern : IsPattern true cs) :
    IsPattern true ('*' :: '*' :: '/' :: cs)
  | run {atStart : Bool} {cs : List Char} (single : cs.head? ≠ some '*')
    (pattern : IsPattern false cs) : IsPattern atStart ('*' :: cs)
  | any {atStart : Bool} {cs : List Char} (pattern : IsPattern false cs) :
    IsPattern atStart ('?' :: cs)
  | set {atStart : Bool} {cs rest : List Char} (set : IsSet rest cs)
    (pattern : IsPattern false rest) : IsPattern atStart ('[' :: cs)
  | char {atStart : Bool} {c : Char} {cs : List Char} (plain : c ∉ ['*', '?', '['])
    (pattern : IsPattern (c = '/') cs) : IsPattern atStart (c :: cs)

/-- **The grammar of patterns with slashes.** -/
structure IsPathPattern (cs : List Char) : Prop where
  whole : IsPattern true cs
  parts : ∀ part ∈ Text.splitOn '/' cs, IsPattern true part

/-! ## Character sets -/

variable {cs rest : List Char} {atStart : Bool} {position : Nat}

theorem drop_dropWhile_append {members : List Char} (unclosed : ']' ∉ members) :
    ((members ++ ']' :: rest).dropWhile (· ≠ ']')).drop 1 = rest := by
  have hall : ∀ c ∈ members, c ≠ ']' := fun c hc h => unclosed (h ▸ hc)
  rw [List.dropWhile_append_of_pos (by simpa using hall)]
  simp

/-- The first bracket closes a character set. -/
theorem mem_and_drop_dropWhile_iff :
    (']' ∈ cs ∧ (cs.dropWhile (· ≠ ']')).drop 1 = rest) ↔ Closes rest cs := by
  constructor
  · rintro ⟨hmem, rfl⟩
    obtain ⟨members, behind, rfl, unclosed⟩ := List.eq_append_cons_of_mem hmem
    exact ⟨members, unclosed, by rw [drop_dropWhile_append unclosed]⟩
  · rintro ⟨members, unclosed, rfl⟩
    exact ⟨by simp, drop_dropWhile_append unclosed⟩

/-- **What is read as a character set** is one. -/
theorem exists_characterSet?_eq_some_iff :
    (∃ t n, characterSet? cs = some (t, n, rest)) ↔ IsSet rest cs := by
  have hset : ∀ (behind : List Char) (t : Token) (n : Nat), (∃ t' n',
      (if ']' ∈ behind then some (t, n, (behind.dropWhile (· ≠ ']')).drop 1) else none)
        = some (t', n', rest)) ↔ Closes rest behind := by
    intro behind t n
    rw [← mem_and_drop_dropWhile_iff]
    split <;> simp_all
  unfold characterSet?
  split
  case h_1 c cs =>
    refine (hset cs _ _).trans ⟨.noneOf, fun h => ?_⟩
    cases h with
    | oneOf positive => exact absurd rfl positive
    | noneOf closes => exact closes
  case h_2 =>
    refine iff_of_false (by simp) fun h => ?_
    cases h with
    | oneOf positive => exact absurd rfl positive
  case h_3 c cs hmark hlone =>
    refine (hset cs _ _).trans ⟨fun h => .oneOf (fun hc => ?_) h, fun h => ?_⟩
    · -- A mark is the whole text or is followed by a member, and both are other cases.
      cases cs with
      | nil => exact hlone hc rfl
      | cons d ds => exact hmark d ds hc rfl
    · cases h with
      | oneOf positive closes => exact closes
      | noneOf closes => exact absurd rfl (hmark _ _ rfl)
  case h_4 =>
    refine iff_of_false (by simp) fun h => ?_
    cases h

/-! ## Patterns -/

/-- Two stars at the start of a pattern. -/
theorem isPattern_directories_iff : IsPattern atStart ('*' :: '*' :: cs) ↔
    atStart = true ∧ (cs = [] ∨ ∃ rest, cs = '/' :: rest ∧ IsPattern true rest) := by
  constructor
  · intro h
    cases h with
    | lastDirectories => exact ⟨rfl, .inl rfl⟩
    | directories pattern => exact ⟨rfl, .inr ⟨_, rfl, pattern⟩⟩
    | run single => exact absurd rfl single
    | char plain => simp at plain
  · rintro ⟨rfl, rfl | ⟨rest, rfl, pattern⟩⟩
    · exact .lastDirectories
    · exact .directories pattern

/-- **A text has tokens exactly if it is in the grammar.** -/
theorem exists_tokens_eq_ok_iff :
    (∃ ts, tokens atStart position cs = .ok ts) ↔ IsPattern atStart cs := by
  fun_induction tokens atStart position cs with
  | case1 => exact iff_of_true ⟨_, rfl⟩ .nil
  | case2 => simp [isPattern_directories_iff]
  | case3 _ _ cs _ hatStart =>
    rw [isPattern_directories_iff]
    simp_all
  | case4 => simp_all [isPattern_directories_iff]
  | case5 _ _ hatStart rest _ ih =>
    rw [Outcome.exists_map_eq_ok_iff, ih, isPattern_directories_iff]
    simp_all
  | case6 _ _ cs _ _ hempty hslash =>
    rw [isPattern_directories_iff]
    refine iff_of_false (by simp) ?_
    rintro ⟨-, rfl | ⟨rest, rfl, -⟩⟩
    · exact hempty rfl
    · exact hslash rest rfl
  | case7 _ _ cs _ hsingle ih =>
    rw [Outcome.exists_map_eq_ok_iff, ih]
    constructor
    · refine .run fun hhead => ?_
      obtain ⟨behind, rfl⟩ := List.head?_eq_some_iff.1 hhead
      exact hsingle behind rfl
    · intro h
      cases h with
      | lastDirectories | directories => exact absurd rfl (hsingle _)
      | run _ pattern => exact pattern
      | char plain => simp at plain
  | case8 _ _ cs ih =>
    rw [Outcome.exists_map_eq_ok_iff, ih]
    constructor
    · exact .any
    · intro h
      cases h with
      | any pattern => exact pattern
      | char plain => simp at plain
  | case9 _ _ cs hset =>
    refine iff_of_false (by simp) fun h => ?_
    cases h with
    | set set =>
      obtain ⟨t, n, hsome⟩ := exists_characterSet?_eq_some_iff.2 set
      rw [hset] at hsome
      cases hsome
    | char plain => simp at plain
  | case10 _ _ cs t n rest hset ih =>
    rw [Outcome.exists_map_eq_ok_iff, ih]
    constructor
    · exact .set (exists_characterSet?_eq_some_iff.1 ⟨t, n, hset⟩)
    · intro h
      cases h with
      | set set pattern =>
        obtain ⟨t', n', hsome⟩ := exists_characterSet?_eq_some_iff.2 set
        rw [hset] at hsome
        cases hsome
        exact pattern
      | char plain => simp at plain
  | case11 _ _ c cs _ _ hstar hmark hbracket ih =>
    rw [Outcome.exists_map_eq_ok_iff, ih]
    constructor
    · refine .char ?_
      simp only [List.mem_cons, List.not_mem_nil, or_false]
      rintro (rfl | rfl | rfl)
      exacts [hstar rfl, hmark rfl, hbracket rfl]
    · intro h
      cases h with
      | lastDirectories | directories | run => exact absurd rfl hstar
      | any => exact absurd rfl hmark
      | set => exact absurd rfl hbracket
      | char _ pattern => exact pattern

theorem Pattern.exists_parse_eq_ok_iff : (∃ p, Pattern.parse cs = .ok p) ↔ IsPattern true cs :=
  Outcome.exists_map_eq_ok_iff.trans exists_tokens_eq_ok_iff

/-! ## Patterns with slashes -/

/-- The components of a pattern are its parts, but for an empty one at the end. -/
theorem forall_mem_componentTexts_iff : (∀ part ∈ componentTexts cs, IsPattern true part) ↔
    ∀ part ∈ Text.splitOn '/' cs, IsPattern true part := by
  unfold componentTexts
  split
  case isTrue hempty =>
    rw [List.isEmpty_iff.1 hempty]
    rfl
  case isFalse =>
    dsimp only
    split
    case isTrue hlast =>
      obtain ⟨parts, hparts⟩ := List.getLast?_eq_some_iff.1 hlast
      rw [hparts, List.dropLast_concat]
      constructor
      · intro h part hpart
        rcases List.mem_append.1 hpart with hpart | hpart
        · exact h part hpart
        · obtain rfl := List.mem_singleton.1 hpart
          exact .nil
      · exact fun h part hpart => h part (List.mem_append_left _ hpart)
    case isFalse => rfl

/-- The part before a slash at the start is empty. -/
theorem forall_mem_splitOn_startOf_iff {pattern : String} :
    (∀ part ∈ Text.splitOn '/' (startOf pattern).2, IsPattern true part) ↔
      ∀ part ∈ Text.splitOn '/' pattern.toList, IsPattern true part := by
  unfold startOf
  split
  case h_1 behind heq =>
    rw [heq, Text.splitOn, if_pos rfl, List.forall_mem_cons]
    exact (and_iff_right .nil).symm
  case h_2 => rfl

/-- **A text is read as a pattern with slashes exactly if it is in the grammar.** -/
theorem PathPattern.exists_parse_eq_ok_iff {pattern : String} :
    (∃ p, PathPattern.parse pattern = .ok p) ↔ IsPathPattern pattern.toList := by
  have hcomponents : (∃ ps, (componentTexts (startOf pattern).2).mapM Pattern.parse = .ok ps) ↔
      ∀ part ∈ Text.splitOn '/' pattern.toList, IsPattern true part := by
    rw [Outcome.exists_mapM_eq_ok_iff, ← forall_mem_splitOn_startOf_iff,
      ← forall_mem_componentTexts_iff]
    simp only [Pattern.exists_parse_eq_ok_iff]
  have hrest : ∀ x : Except PatternError (List Pattern), (∃ p, (do
      let components ← x
      pure (⟨(startOf pattern).1, collapse components,
        pattern.toList.getLast? = some '/'⟩ : PathPattern)) = .ok p) ↔ ∃ ps, x = .ok ps := by
    intro x
    rw [Outcome.exists_bind_eq_ok_iff]
    exact exists_congr fun ps => and_iff_left ⟨_, rfl⟩
  rw [PathPattern.parse_eq, Outcome.exists_bind_eq_ok_iff, exists_and_right,
    Pattern.exists_parse_eq_ok_iff, hrest, hcomponents]
  exact ⟨fun h => ⟨h.1, h.2⟩, fun h => ⟨h.whole, h.parts⟩⟩

end InterfacePlan.Glob
