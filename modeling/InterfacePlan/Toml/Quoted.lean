import InterfacePlan.Toml.Scalar
/-!
# TOML strings

Basic strings stand between quotes and have escapes, literal strings stand between apostrophes and
have none; both have a form on several lines between tripled delimiters.

## Main definitions

* `Toml.basic?`, `Toml.literal?`: strings on one line
* `Toml.basicLines?`, `Toml.literalLines?`: strings on several lines
* `Toml.quoted?`: any string, given the text from its opening delimiter on

All of them read from the start of a text and return the string and the rest of the text.
-/

namespace InterfacePlan.Toml

/-- Whether `c` may stand for itself in a string or a comment: no control character but the tab. -/
def isPlain (c : Char) : Bool := c = '\t' || (0x20 ≤ c.toNat && c.toNat != 0x7F)

/-- Whether a character is a blank within a line. -/
def isBlank (c : Char) : Bool := c = ' ' || c = '\t'

/-- The character with the code point that hexadecimal digits denote. Surrogates are none. -/
def scalarValue? (ds : List Char) : Option Char :=
  let n := inBase 16 ds
  if ds.all isHexDigit && (n < 0xD800 || (0xDFFF < n && n < 0x110000)) then some (Char.ofNat n)
  else none

/-- The character that an escape stands for, given the text after the backslash. -/
def escaped? : List Char → Option (Char × List Char)
  | 'b' :: cs => some ('\x08', cs)
  | 't' :: cs => some ('\t', cs)
  | 'n' :: cs => some ('\n', cs)
  | 'f' :: cs => some ('\x0c', cs)
  | 'r' :: cs => some ('\r', cs)
  | '"' :: cs => some ('"', cs)
  | '\\' :: cs => some ('\\', cs)
  | 'u' :: cs =>
    if 4 ≤ cs.length then (scalarValue? (cs.take 4)).map (·, cs.drop 4) else none
  | 'U' :: cs =>
    if 8 ≤ cs.length then (scalarValue? (cs.take 8)).map (·, cs.drop 8) else none
  | _ => none

theorem length_escaped? {cs r : List Char} {c : Char} (h : escaped? cs = some (c, r)) :
    r.length < cs.length := by
  have drop : ∀ {n : Nat} {o : Option Char} {ds : List Char},
      o.map (·, ds.drop n) = some (c, r) → r.length < ds.length + 1 := by
    intro n o ds h
    obtain ⟨d, -, h⟩ := Option.map_eq_some_iff.1 h
    obtain rfl := (Prod.mk.inj h).2
    simp only [List.length_drop]
    omega
  unfold escaped? at h
  split at h
  case h_8 | h_9 =>
    split at h
    · exact drop h
    · exact absurd h (by simp)
  case h_10 => exact absurd h (by simp)
  all_goals
    obtain rfl := (Prod.mk.inj (Option.some.inj h)).2
    simp

/-- Put a character in front of a string that was read. -/
def prepend (c : Char) : Option (List Char × List Char) → Option (List Char × List Char)
  | some (s, r) => some (c :: s, r)
  | none => none

/-- A basic string on one line, after its opening quote. -/
def basic? : List Char → Option (List Char × List Char)
  | [] => none
  | '"' :: cs => some ([], cs)
  | '\\' :: cs =>
    match _h : escaped? cs with
    | none => none
    | some (c, r) => prepend c (basic? r)
  | c :: cs => if isPlain c then prepend c (basic? cs) else none
termination_by cs => cs.length
decreasing_by
  · have := length_escaped? _h
    simp only [List.length_cons]
    omega
  · simp

/-- A literal string on one line, after its opening apostrophe. -/
def literal? : List Char → Option (List Char × List Char)
  | [] => none
  | '\'' :: cs => some ([], cs)
  | c :: cs => if isPlain c then prepend c (literal? cs) else none

/-- Whether a text starts with a line end, blanks aside. -/
def startsBlankLine : List Char → Bool
  | '\n' :: _ => true
  | '\r' :: '\n' :: _ => true
  | c :: cs => isBlank c && startsBlankLine cs
  | [] => false

/-- A basic string on several lines, after its opening quotes. A run of three to five quotes ends
it, and all but the last three belong to it. A backslash at the end of a line removes all blanks and
line ends up to the next character; `trimming` says that such a removal is going on. -/
def basicLines? (trimming : Bool) : List Char → Option (List Char × List Char)
  | [] => none
  | '"' :: '"' :: '"' :: '"' :: '"' :: cs => some (['"', '"'], cs)
  | '"' :: '"' :: '"' :: '"' :: cs => some (['"'], cs)
  | '"' :: '"' :: '"' :: cs => some ([], cs)
  | '\r' :: '\n' :: cs =>
    if trimming then basicLines? true cs else prepend '\n' (basicLines? false cs)
  | '\n' :: cs => if trimming then basicLines? true cs else prepend '\n' (basicLines? false cs)
  | '\\' :: cs =>
    if startsBlankLine cs then basicLines? true cs
    else match _h : escaped? cs with
      | none => none
      | some (c, r) => prepend c (basicLines? false r)
  | c :: cs =>
    if trimming && isBlank c then basicLines? true cs
    else if isPlain c then prepend c (basicLines? false cs)
    else none
termination_by cs => cs.length
decreasing_by
  all_goals try simp only [List.length_cons]; omega
  have := length_escaped? _h
  simp only [List.length_cons]
  omega

/-- A literal string on several lines, after its opening apostrophes. -/
def literalLines? : List Char → Option (List Char × List Char)
  | [] => none
  | '\'' :: '\'' :: '\'' :: '\'' :: '\'' :: cs => some (['\'', '\''], cs)
  | '\'' :: '\'' :: '\'' :: '\'' :: cs => some (['\''], cs)
  | '\'' :: '\'' :: '\'' :: cs => some ([], cs)
  | '\r' :: '\n' :: cs => prepend '\n' (literalLines? cs)
  | '\n' :: cs => prepend '\n' (literalLines? cs)
  | c :: cs => if isPlain c then prepend c (literalLines? cs) else none

/-- A text without a line end at its start. -/
def dropLineEnd : List Char → List Char
  | '\n' :: cs => cs
  | '\r' :: '\n' :: cs => cs
  | cs => cs

/-- **Any string**, from its opening delimiter on. -/
def quoted? : List Char → Option (List Char × List Char)
  | '"' :: '"' :: '"' :: cs => basicLines? false (dropLineEnd cs)
  | '"' :: cs => basic? cs
  | '\'' :: '\'' :: '\'' :: cs => literalLines? (dropLineEnd cs)
  | '\'' :: cs => literal? cs
  | _ => none

end InterfacePlan.Toml
