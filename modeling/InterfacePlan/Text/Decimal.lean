/-!
# Decimal text

Version numbers are written in decimal without leading zeros, and read as unsigned 64-bit numbers.

## Main definitions

* `Decimal.text`: the decimal text of a number
* `Decimal.readWord?`: the number that a text denotes, if it is an unsigned 64-bit number

## Main results

* `Decimal.value_digits`: the digits of a number denote that number
* `Decimal.text_inj`: different numbers have different texts
-/

namespace InterfacePlan.Decimal

/-- The character of a digit below ten. -/
def digitChar (d : Nat) : Char := Char.ofNat (48 + d)

/-- The decimal digits of `n`, most significant first and without leading zeros. -/
def digits (n : Nat) : List Char :=
  if n < 10 then [digitChar n] else digits (n / 10) ++ [digitChar (n % 10)]
termination_by n

/-- The number that a list of digits denotes. -/
def value (ds : List Char) : Nat := ds.foldl (fun n c => 10 * n + (c.toNat - 48)) 0

/-- **The decimal text of a number.** -/
def text (n : Nat) : String := String.ofList (digits n)

/-- **Reading a number.** A text denotes an unsigned 64-bit number if it consists of an optional
plus sign and at least one ASCII digit, and its value fits 64 bits. Leading zeros are allowed. -/
def readWord? (s : String) : Option Nat :=
  let ds := match s.toList with
    | '+' :: ds => ds
    | ds => ds
  if !ds.isEmpty && ds.all Char.isDigit && decide (value ds < UInt64.size) then some (value ds)
  else none

theorem toNat_digitChar {d : Nat} (h : d < 10) : (digitChar d).toNat = 48 + d := by
  have all : ∀ e ∈ List.range 10, (digitChar e).toNat = 48 + e := by decide
  exact all d (List.mem_range.2 h)

theorem isDigit_digitChar {d : Nat} (h : d < 10) : (digitChar d).isDigit = true := by
  have all : ∀ e ∈ List.range 10, (digitChar e).isDigit = true := by decide
  exact all d (List.mem_range.2 h)

theorem value_concat (ds : List Char) (c : Char) :
    value (ds ++ [c]) = 10 * value ds + (c.toNat - 48) := by
  simp [value]

@[simp] theorem value_digits (n : Nat) : value (digits n) = n := by
  -- Induction on the number: its last digit comes off, and `n / 10` is left.
  induction n using Nat.strongRecOn with
  | ind n ih =>
    unfold digits
    split
    case isTrue h => simp [value, toNat_digitChar h]
    case isFalse h =>
      rw [value_concat, ih (n / 10) (by omega), toNat_digitChar (Nat.mod_lt n (by omega))]
      omega

theorem digits_ne_nil (n : Nat) : digits n ≠ [] := by
  unfold digits
  split <;> simp

theorem isDigit_of_mem_digits {n : Nat} {c : Char} (h : c ∈ digits n) : c.isDigit = true := by
  induction n using Nat.strongRecOn with
  | ind n ih =>
    unfold digits at h
    split at h
    case isTrue hn =>
      obtain rfl := List.mem_singleton.1 h
      exact isDigit_digitChar hn
    case isFalse hn =>
      rcases List.mem_append.1 h with h | h
      · exact ih (n / 10) (by omega) h
      · obtain rfl := List.mem_singleton.1 h
        exact isDigit_digitChar (Nat.mod_lt n (by omega))

theorem text_inj {m n : Nat} (h : text m = text n) : m = n := by
  rw [← value_digits m, ← value_digits n]
  exact congrArg value (String.ofList_inj.1 h)

end InterfacePlan.Decimal
