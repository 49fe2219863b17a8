import InterfacePlan.Data.Basic
import InterfacePlan.Text.Decimal
/-!
# TOML scalars without quotes

Booleans, numbers, dates and times are single words. This module says which words are scalars and
what they stand for.

## Main definitions

* `Toml.integer?`: decimal, hexadecimal, octal and binary integers of 64 bits
* `Toml.isFloat`: floating-point literals that do not overflow
* `Toml.isMoment`: dates, times and date-times
* `Toml.scalar?`: the scalar that a word stands for
-/

namespace InterfacePlan.Toml

/-! ## Digits -/

/-- Digits with single underscores between them, without the underscores. -/
def ungroup (isDigit : Char → Bool) : List Char → Option (List Char)
  | [] => none
  | c :: cs =>
    if !isDigit c then none
    else match cs with
      | [] => some [c]
      | '_' :: r => (ungroup isDigit r).map (c :: ·)
      | d :: r => (ungroup isDigit (d :: r)).map (c :: ·)

/-- The value of a digit of a base up to sixteen. -/
def digitValue (c : Char) : Nat :=
  if c.isDigit then c.toNat - 48 else if c.isLower then c.toNat - 87 else c.toNat - 55

/-- The number that digits denote in base `base`. -/
def inBase (base : Nat) (ds : List Char) : Nat := ds.foldl (fun n c => base * n + digitValue c) 0

/-- The digits of hexadecimal numbers. -/
def isHexDigit (c : Char) : Bool := c.isDigit || ('a' ≤ c && c ≤ 'f') || ('A' ≤ c && c ≤ 'F')

/-- The digits of octal numbers. -/
def isOctalDigit (c : Char) : Bool := '0' ≤ c && c ≤ '7'

/-- The digits of binary numbers. -/
def isBinaryDigit (c : Char) : Bool := c = '0' || c = '1'

/-- A word without its sign, and whether the sign was a minus. -/
def unsigned : List Char → Bool × List Char
  | '+' :: cs => (false, cs)
  | '-' :: cs => (true, cs)
  | cs => (false, cs)

/-! ## Integers -/

/-- A number of a given sign, if it fits a signed 64-bit word. -/
def word64? (negative : Bool) (n : Nat) : Option Int :=
  if negative then if n ≤ Nat.pow 2 63 then some (-(n : Int)) else none
  else if n < Nat.pow 2 63 then some n else none

/-- The digits of a decimal number, which has no leading zero. -/
def decimalDigits? (cs : List Char) : Option (List Char) :=
  match ungroup Char.isDigit cs with
  | some ('0' :: _ :: _) => none
  | ds => ds

/-- **Integers.** Decimal with an optional sign and no leading zeros, or hexadecimal, octal and
binary after `0x`, `0o` and `0b`. -/
def integer? : List Char → Option Int
  | '0' :: 'x' :: cs => (ungroup isHexDigit cs).bind fun ds => word64? false (inBase 16 ds)
  | '0' :: 'o' :: cs => (ungroup isOctalDigit cs).bind fun ds => word64? false (inBase 8 ds)
  | '0' :: 'b' :: cs => (ungroup isBinaryDigit cs).bind fun ds => word64? false (inBase 2 ds)
  | cs =>
    let (negative, body) := unsigned cs
    (decimalDigits? body).bind fun ds => word64? negative (Decimal.value ds)

/-! ## Floats -/

/-- Whether a character is a decimal digit or the mark between groups of them. -/
def isDigitOrMark (c : Char) : Bool := c.isDigit || c = '_'

/-- The exponent that a word consists of, after its letter: a sign and digits. -/
def exponent? (cs : List Char) : Option Int :=
  let (negative, body) := unsigned cs
  (ungroup Char.isDigit body).map fun ds =>
    if negative then -(Decimal.value ds : Int) else (Decimal.value ds : Int)

/-- Whether `mantissa · 10 ^ exponent` is too large for a double: it rounds to infinity from half a
unit above the largest finite value. -/
def overflows (mantissa : Nat) (exponent : Int) : Bool :=
  let limit := Nat.pow 2 1024 - Nat.pow 2 970
  let magnitude := (Decimal.digits mantissa).length + exponent
  if mantissa = 0 || decide (magnitude < 300) then false
  else if decide (310 < magnitude) then true
  else if 0 ≤ exponent then decide (limit ≤ mantissa * Nat.pow 10 exponent.toNat)
  else decide (limit * Nat.pow 10 (-exponent).toNat ≤ mantissa)

/-- The fraction and the exponent of a float, given what follows its whole part. -/
def fraction? : List Char → Option (List Char × Int)
  | '.' :: cs => do
    let digits ← ungroup Char.isDigit (cs.takeWhile isDigitOrMark)
    match cs.dropWhile isDigitOrMark with
    | [] => some (digits, 0)
    | e :: r => if e = 'e' || e = 'E' then (exponent? r).map (digits, ·) else none
  | e :: cs => if e = 'e' || e = 'E' then (exponent? cs).map ([], ·) else none
  | [] => none

/-- **Floats.** A decimal number with a fraction, an exponent or both, or one of the words `inf`
and `nan`. A positive number that rounds to infinity is none. -/
def isFloat (word : List Char) : Bool :=
  let (negative, body) := unsigned word
  body = ['i', 'n', 'f'] || body = ['n', 'a', 'n'] ||
    match decimalDigits? (body.takeWhile isDigitOrMark),
      fraction? (body.dropWhile isDigitOrMark) with
    | some whole, some (digits, exponent) =>
      negative || !overflows (Decimal.value (whole ++ digits)) (exponent - digits.length)
    | _, _ => false

/-! ## Dates and times -/

/-- A number of exactly `n` digits at the start, and what follows it. -/
def fixedDigits? (n : Nat) (cs : List Char) : Option (Nat × List Char) :=
  let ds := cs.take n
  if ds.length = n && ds.all Char.isDigit then some (Decimal.value ds, cs.drop n) else none

/-- The number of days of a month, by the Gregorian calendar. -/
def daysInMonth (year month : Nat) : Nat :=
  if month = 2 then
    if year % 4 = 0 && (year % 100 != 0 || year % 400 = 0) then 29 else 28
  else if month = 4 || month = 6 || month = 9 || month = 11 then 30
  else 31

/-- What follows `c` at the start. -/
def after? (c : Char) : List Char → Option (List Char)
  | d :: cs => if d = c then some cs else none
  | [] => none

/-- What follows a date at the start. -/
def afterDate? (cs : List Char) : Option (List Char) := do
  let (year, cs) ← fixedDigits? 4 cs
  let (month, cs) ← fixedDigits? 2 (← after? '-' cs)
  let (day, cs) ← fixedDigits? 2 (← after? '-' cs)
  if 1 ≤ month ∧ month ≤ 12 ∧ 1 ≤ day ∧ day ≤ daysInMonth year month then some cs else none

/-- What follows the fraction of a second, if there is one at the start. -/
def afterFraction? : List Char → Option (List Char)
  | '.' :: c :: cs => if c.isDigit then some (cs.dropWhile Char.isDigit) else none
  | '.' :: [] => none
  | cs => some cs

/-- What follows a time of day at the start. A minute may have a leap second. -/
def afterTime? (cs : List Char) : Option (List Char) := do
  let (hour, cs) ← fixedDigits? 2 cs
  let (minute, cs) ← fixedDigits? 2 (← after? ':' cs)
  let (second, cs) ← fixedDigits? 2 (← after? ':' cs)
  if hour ≤ 23 ∧ minute ≤ 59 ∧ second ≤ 60 then afterFraction? cs else none

/-- Whether a word is empty or an offset from universal time. -/
def isOffset : List Char → Bool
  | [] => true
  | ['Z'] => true
  | ['z'] => true
  | sign :: cs =>
    (sign = '+' || sign = '-') &&
      match (do
        let (hour, cs) ← fixedDigits? 2 cs
        let (minute, cs) ← fixedDigits? 2 (← after? ':' cs)
        pure (hour ≤ 23 ∧ minute ≤ 59 ∧ cs = [] : Bool)) with
      | some ok => ok
      | none => false

/-- Whether a word is a date and nothing else. -/
def isDate (word : List Char) : Bool := afterDate? word = some []

/-- **Dates and times.** A date, a time of day, or both joined by `T` or a space and followed by an
optional offset. -/
def isMoment (word : List Char) : Bool :=
  afterTime? word = some [] ||
    match afterDate? word with
    | none => false
    | some [] => true
    | some (sep :: cs) =>
      (sep = 'T' || sep = 't' || sep = ' ') && (afterTime? cs).any isOffset

/-- **The scalar that a word stands for.** -/
def scalar? (word : List Char) : Option Data :=
  if word = ['t', 'r', 'u', 'e'] then some (.bool true)
  else if word = ['f', 'a', 'l', 's', 'e'] then some (.bool false)
  else match integer? word with
    | some n => some (.int n)
    | none =>
      if isFloat word then some (.float (String.ofList word))
      else if isMoment word then some (.datetime (String.ofList word))
      else none

end InterfacePlan.Toml
