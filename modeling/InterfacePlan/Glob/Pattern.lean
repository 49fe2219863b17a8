import InterfacePlan.Text.Split
/-!
# Glob patterns

Patterns for file names: `?` is any character, `*` any run of characters, `[...]` one of several
characters, `[!...]` any other one, and `**`, as a whole component, any number of directories.

## Main definitions

* `Glob.Token`, `Glob.Pattern`: the parts of a pattern, and a pattern
* `Glob.PatternError`: why a text is no pattern
* `Glob.tokens`, `Glob.Pattern.parse`: the pattern that a text is
* `Glob.matchTokens`: the texts that tokens stand for
* `Glob.Pattern.matches`: the same test for names, without trying anything twice

## Main results

* `Glob.Pattern.matches_eq`: both tests agree
-/

namespace InterfacePlan.Glob

/-- A member of a character set: one character, or all from one to another. -/
inductive Specifier where
  | single (c : Char)
  | range (low high : Char)
  deriving DecidableEq, Inhabited

/-- Whether a character belongs to a member of a character set. -/
def Specifier.contains (c : Char) : Specifier → Bool
  | single d => c = d
  | range low high => low ≤ c && c ≤ high

/-- The members of a character set. Three characters with a hyphen in the middle are a range. -/
def specifiers : List Char → List Specifier
  | a :: '-' :: b :: cs => .range a b :: specifiers cs
  | c :: cs => .single c :: specifiers cs
  | [] => []

/-- **A token of a pattern**, which matches one character, a run of them or whole directories. -/
inductive Token where
  | char (c : Char)
  | anyChar
  /-- Any run of characters. -/
  | anyRun
  /-- Any number of directories. -/
  | anyDirectories
  | oneOf (set : List Specifier)
  | noneOf (set : List Specifier)
  deriving DecidableEq, Inhabited

/-- What is wrong with a text that is no pattern. -/
inductive Flaw where
  /-- More than two stars in a row. -/
  | wildcards
  /-- Two stars that are not a whole component. -/
  | recursiveWildcards
  /-- A character set that is empty or not closed. -/
  | invalidRange
  deriving DecidableEq, Inhabited

/-- The text of a flaw. -/
def Flaw.message : Flaw → String
  | wildcards => "wildcards are either regular `*` or recursive `**`"
  | recursiveWildcards => "recursive wildcards must form a single path component"
  | invalidRange => "invalid range pattern"

/-- Why a text is no pattern, and the number of characters before the flaw. -/
structure PatternError where
  position : Nat
  flaw : Flaw
  deriving DecidableEq, Inhabited

/-- The text of a pattern error, which tells where the flaw is. -/
def PatternError.message (e : PatternError) : String :=
  "Pattern syntax error near position " ++ toString e.position ++ ": " ++ e.flaw.message

/-- A character set after its opening bracket: the token, the number of its characters and the text
after the closing bracket. A set has at least one member, so a bracket at its start is a member. -/
def characterSet? : List Char → Option (Token × Nat × List Char)
  | '!' :: c :: cs =>
    if ']' ∈ cs then
      let set := c :: cs.takeWhile (· ≠ ']')
      some (.noneOf (specifiers set), set.length + 3, (cs.dropWhile (· ≠ ']')).drop 1)
    else none
  | '!' :: [] => none
  | c :: cs =>
    if ']' ∈ cs then
      let set := c :: cs.takeWhile (· ≠ ']')
      some (.oneOf (specifiers set), set.length + 2, (cs.dropWhile (· ≠ ']')).drop 1)
    else none
  | [] => none

theorem length_dropWhile_le {α : Type} (p : α → Bool) (l : List α) :
    (l.dropWhile p).length ≤ l.length := (List.dropWhile_sublist p).length_le

theorem length_characterSet? {cs r : List Char} {t : Token} {n : Nat}
    (h : characterSet? cs = some (t, n, r)) : r.length < cs.length := by
  unfold characterSet? at h
  split at h
  case h_1 c cs =>
    split at h
    · simp only [Option.some.injEq, Prod.mk.injEq] at h
      obtain ⟨-, -, rfl⟩ := h
      have := length_dropWhile_le (fun x => decide (x ≠ ']')) cs
      simp only [List.length_drop, List.length_cons]
      omega
    · exact absurd h (by simp)
  case h_2 => exact absurd h (by simp)
  case h_3 c cs _ _ =>
    split at h
    · simp only [Option.some.injEq, Prod.mk.injEq] at h
      obtain ⟨-, -, rfl⟩ := h
      have := length_dropWhile_le (fun x => decide (x ≠ ']')) cs
      simp only [List.length_drop, List.length_cons]
      omega
    · exact absurd h (by simp)
  case h_4 => exact absurd h (by simp)

/-- **The tokens of a pattern**, of which `position` characters are read. `atStart` says that the
next character starts a component. -/
def tokens (atStart : Bool) (position : Nat) : List Char → Except PatternError (List Token)
  | [] => .ok []
  | '*' :: '*' :: '*' :: _ => .error ⟨position + 2, .wildcards⟩
  | '*' :: '*' :: cs =>
    if !atStart then .error ⟨position - 1, .recursiveWildcards⟩
    else match cs with
      | [] => .ok [.anyDirectories]
      | '/' :: r => (tokens true (position + 3) r).map (.anyDirectories :: ·)
      | _ => .error ⟨position + 2, .recursiveWildcards⟩
  | '*' :: cs => (tokens false (position + 1) cs).map (.anyRun :: ·)
  | '?' :: cs => (tokens false (position + 1) cs).map (.anyChar :: ·)
  | '[' :: cs =>
    match _h : characterSet? cs with
    | none => .error ⟨position, .invalidRange⟩
    | some (t, n, r) => (tokens false (position + n) r).map (t :: ·)
  | c :: cs => (tokens (c = '/') (position + 1) cs).map (.char c :: ·)
termination_by cs => cs.length
decreasing_by
  all_goals try (simp only [List.length_cons]; omega)
  have := length_characterSet? _h
  simp only [List.length_cons]
  omega

/-- A pattern for one component of a path. -/
structure Pattern where
  tokens : List Token
  deriving DecidableEq, Inhabited

namespace Pattern

/-- The pattern that a text is. -/
def parse (cs : List Char) : Except PatternError Pattern := (Glob.tokens true 0 cs).map (⟨·⟩)

/-- Whether a pattern stands for any number of directories. -/
def isRecursive (p : Pattern) : Bool := p.tokens.contains .anyDirectories

/-- The text of tokens that are all characters. -/
def plain? : List Token → Option (List Char)
  | [] => some []
  | .char c :: ts => (plain? ts).map (c :: ·)
  | _ => none

/-- The only name that a pattern without special characters stands for. -/
def literal? (p : Pattern) : Option String := (plain? p.tokens).map String.ofList

/-- Whether a pattern stands for names that start with a dot by a dot of its own. -/
def startsWithDot (p : Pattern) : Bool := p.tokens.head? = some (.char '.')

end Pattern

/-- Whether a character is one that a token stands for. -/
def Token.accepts (c : Char) : Token → Bool
  | .char d => c = d
  | .anyChar => true
  | .oneOf set => set.any (·.contains c)
  | .noneOf set => !set.any (·.contains c)
  | .anyRun | .anyDirectories => false

/-- Whether `f` holds of some part at the end of a text. -/
def anySuffix (f : List Char → Bool) : List Char → Bool
  | [] => f []
  | c :: cs => f (c :: cs) || anySuffix f cs

/-- Whether a text is one that the tokens stand for. -/
def matchTokens : List Token → List Char → Bool
  | [], cs => cs.isEmpty
  | .anyRun :: ts, cs => anySuffix (matchTokens ts) cs
  | .anyDirectories :: ts, cs => anySuffix (matchTokens ts) cs
  | _ :: _, [] => false
  | t :: ts, c :: cs => t.accepts c && matchTokens ts cs

/-- At every place of a list, whether some value from there on is true. -/
def anyFrom : List Bool → List Bool
  | [] => []
  | b :: bs =>
    match anyFrom bs with
    | [] => [b]
    | c :: cs => (b || c) :: c :: cs

/-- For every part at the end of a text, the whole text first and the empty one last, whether the
tokens stand for it. Every token is compared with every character only once. -/
def matchTails : List Token → List Char → List Bool
  | [], cs => cs.map (fun _ => false) ++ [true]
  | .anyRun :: ts, cs => anyFrom (matchTails ts cs)
  | .anyDirectories :: ts, cs => anyFrom (matchTails ts cs)
  | t :: ts, cs =>
    List.zipWith (fun c b => t.accepts c && b) cs ((matchTails ts cs).drop 1) ++ [false]

/-- **Whether a name is one that the pattern stands for.** -/
def Pattern.matches (p : Pattern) (name : String) : Bool :=
  (matchTails p.tokens name.toList).head?.getD false

/-- That `matchTails` puts the answer for the whole text before the answers for its parts. -/
def TailsOf (ts : List Token) : Prop :=
  matchTails ts [] = [matchTokens ts []] ∧
    ∀ c cs, matchTails ts (c :: cs) = matchTokens ts (c :: cs) :: matchTails ts cs

theorem TailsOf.head {ts : List Token} (h : TailsOf ts) (cs : List Char) :
    ∃ bs, matchTails ts cs = matchTokens ts cs :: bs := by
  cases cs with
  | nil => exact ⟨[], h.1⟩
  | cons c cs => exact ⟨_, h.2 c cs⟩

theorem TailsOf.anyFrom_head {ts : List Token} (h : TailsOf ts) (cs : List Char) :
    ∃ bs, anyFrom (matchTails ts cs) = anySuffix (matchTokens ts) cs :: bs := by
  induction cs with
  | nil => exact ⟨[], by rw [h.1]; rfl⟩
  | cons c cs ih =>
    obtain ⟨bs, hbs⟩ := ih
    exact ⟨_, by rw [h.2, anyFrom, hbs]; rfl⟩

theorem TailsOf.anyFrom_cons {ts : List Token} (h : TailsOf ts) (c : Char) (cs : List Char) :
    anyFrom (matchTails ts (c :: cs)) =
      anySuffix (matchTokens ts) (c :: cs) :: anyFrom (matchTails ts cs) := by
  obtain ⟨bs, hbs⟩ := h.anyFrom_head cs
  rw [h.2, anyFrom, hbs]
  rfl

theorem tailsOf (ts : List Token) : TailsOf ts := by
  induction ts with
  | nil => exact ⟨rfl, fun _ _ => rfl⟩
  | cons t ts ih =>
    cases t with
    -- A wildcard stands for the whole of what is skipped, so its row sums up the row behind it.
    | anyRun | anyDirectories =>
      refine ⟨?_, fun c cs => ih.anyFrom_cons c cs⟩
      simp only [matchTails, ih.1]
      rfl
    -- A token for one character moves the row behind it on by one place.
    | char | anyChar | oneOf | noneOf =>
      refine ⟨rfl, fun c cs => ?_⟩
      obtain ⟨bs, hbs⟩ := ih.head cs
      simp [matchTails, matchTokens, ih.2, hbs]

theorem Pattern.matches_eq (p : Pattern) (name : String) :
    p.matches name = matchTokens p.tokens name.toList := by
  obtain ⟨bs, hbs⟩ := (tailsOf p.tokens).head name.toList
  rw [Pattern.matches, hbs]
  rfl

end InterfacePlan.Glob
