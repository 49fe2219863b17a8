import InterfacePlan.Backend
import InterfacePlan.Text.Decimal
import InterfacePlan.Text.Split
/-!
# Journal

What a run tells about its progress, apart from its result.

## Main definitions

* `Event`: something worth telling
* `Event.level`, `Event.message`: how important it is, and its text
* `Journal.text`: the lines of a journal, one for each event that is told
-/

namespace InterfacePlan

/-- How important an event is. -/
inductive Level where
  /-- Told on demand only. -/
  | debug
  | info
  | warning
  deriving DecidableEq, Inhabited

/-- The name of a level, as wide as the widest one. -/
def Level.label : Level → String
  | .debug => "DEBUG"
  | .info => " INFO"
  | .warning => " WARN"

/-- **An event.** -/
inductive Event where
  | loaded (interfaces : Nat)
  | planning (interfaces : Nat)
  /-- A request without sources, for the version with the given versioned name. -/
  | withoutSources (name : String) (backend : Backend)
  | created (module : String)
  | declared (placeholder : String)
  /-- A request is answered; the result is a module or a placeholder. -/
  | assembled (name : String)
  /-- A library links one that is not going to exist. -/
  | linksSkipped (library skipped : String)
  | planned (modules libraries skipped : Nat)
  deriving DecidableEq, Inhabited

namespace Event

/-- The level of an event. -/
def level : Event → Level
  | loaded _ | created _ | declared _ | assembled _ => .debug
  | planning _ | planned .. => .info
  | withoutSources .. | linksSkipped .. => .warning

/-- The text of an event. -/
def message : Event → String
  | loaded n => "loaded " ++ Decimal.text n ++ " interfaces"
  | planning n => "Planning " ++ Decimal.text n ++ " interfaces"
  | withoutSources name backend =>
    "no sources for " ++ name ++ ", skipping " ++ backend.text ++ " library"
  | created module => "created module " ++ module
  | declared placeholder => "declared placeholder " ++ placeholder
  | assembled name => "assembled " ++ name
  | linksSkipped library skipped =>
    library ++ " links " ++ skipped ++ ", which was skipped because its snapshot is empty"
  | planned modules libraries skipped =>
    "Planned " ++ Decimal.text modules ++ " modules (" ++ Decimal.text libraries
      ++ " libraries finished, " ++ Decimal.text skipped ++ " requests skipped)"

/-- A character of a message. Control characters that terminals act on are shown by their codes. -/
def shown (c : Char) : String :=
  if c = '\x1b' then "\\x1b"
  else if c = '\x07' then "\\x07"
  else if c = '\x08' then "\\x08"
  else if c = '\x0c' then "\\x0c"
  else if c = '\x7f' then "\\x7f"
  else if 0x80 ≤ c.toNat ∧ c.toNat ≤ 0x9F then
    "\\u\x7b" ++ String.ofList (Nat.toDigits 16 c.toNat) ++ "\x7d"
  else c.toString

/-- The line that tells an event. -/
def line (e : Event) : String :=
  e.level.label ++ " " ++ Text.join "" (e.message.toList.map shown) ++ "\n"

end Event

/-- The events of a run, in the order in which they occurred. -/
abbrev Journal := List Event

/-- **The lines of a journal.** Details are told on demand only. -/
def Journal.text (verbose : Bool) (journal : Journal) : String :=
  Text.join "" ((journal.filter fun e => verbose || e.level ≠ .debug).map Event.line)

end InterfacePlan
