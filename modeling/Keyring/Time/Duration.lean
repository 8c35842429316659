import Keyring.Text.Blank
import Keyring.Text.Decimal

/-!
# Durations

Unsigned lengths of time, to the nanosecond, with seconds of 64 bits.

* `Duration.spelled` writes a duration as years, months, days and smaller units.
* `Duration.ofSpelled?` reads groups of a number and a unit, such as `1h 30m` or `1.5h`.
* `Duration.fractional` writes a duration as one decimal number in its largest unit.
-/

namespace Keyring

structure Duration where
  seconds : Nat
  nanos : Nat
  seconds_lt : seconds < 0x10000000000000000
  nanos_lt : nanos < 1000000000
  deriving DecidableEq

namespace Duration

/-- The duration of these seconds and nanoseconds, if they are in range. -/
def of? (seconds nanos : Nat) : Option Duration :=
  if h : seconds < 0x10000000000000000 ∧ nanos < 1000000000 then some ⟨seconds, nanos, h.1, h.2⟩ else none

def zero : Duration := ⟨0, 0, by decide, by decide⟩

/-- Whole seconds; more than 64 bits hold are cut off. -/
def ofSeconds (n : Nat) : Duration := ⟨n % 0x10000000000000000, 0, Nat.mod_lt _ (by decide), by decide⟩

/-- The length in nanoseconds. -/
def inNanos (d : Duration) : Nat := d.seconds * 1000000000 + d.nanos

/-- The duration of `n` nanoseconds; seconds beyond 64 bits are cut off. -/
def ofNanos (n : Nat) : Duration :=
  ⟨n / 1000000000 % 0x10000000000000000, n % 1000000000, Nat.mod_lt _ (by decide), Nat.mod_lt _ (by decide)⟩

def isZero (d : Duration) : Bool := d.seconds == 0 && d.nanos == 0

instance : LT Duration := ⟨fun a b => a.inNanos < b.inNanos⟩

instance : LE Duration := ⟨fun a b => a.inNanos ≤ b.inNanos⟩

instance (a b : Duration) : Decidable (a < b) := inferInstanceAs (Decidable (a.inNanos < b.inNanos))

instance (a b : Duration) : Decidable (a ≤ b) := inferInstanceAs (Decidable (a.inNanos ≤ b.inNanos))

theorem not_lt {a b : Duration} : ¬ a < b ↔ b ≤ a := Nat.not_lt

theorem not_le {a b : Duration} : ¬ a ≤ b ↔ b < a := Nat.not_le

/-! ## Units -/

/-- A number of seconds or of nanoseconds. -/
inductive Step where
  | seconds (n : Nat)
  | nanos (n : Nat)
  deriving DecidableEq

/-- A unit, by the names it may be read under. -/
structure Unit where
  names : List String
  /-- What one of it is worth. -/
  worth : Step
  /-- What its fractions are taken of; the smallest unit has none. -/
  divided : Option Step

/-- A month is a twelfth of a year, and a year has a quarter of a day more than 365 days. -/
def units : List Unit :=
  [⟨["nanos", "nsec", "ns"], .nanos 1, none⟩,
   ⟨["usec", "us", "µs"], .nanos 1000, some (.nanos 1000)⟩,
   ⟨["millis", "msec", "ms"], .nanos 1000000, some (.nanos 1000000)⟩,
   ⟨["seconds", "second", "secs", "sec", "s"], .seconds 1, some (.nanos 1000000000)⟩,
   ⟨["minutes", "minute", "min", "mins", "m"], .seconds 60, some (.nanos 60000000000)⟩,
   ⟨["hours", "hour", "hr", "hrs", "h"], .seconds 3600, some (.seconds 3600)⟩,
   ⟨["days", "day", "d"], .seconds 86400, some (.seconds 86400)⟩,
   ⟨["weeks", "week", "wk", "wks", "w"], .seconds 604800, some (.seconds 604800)⟩,
   ⟨["months", "month", "M"], .seconds 2630016, some (.seconds 2630016)⟩,
   ⟨["years", "year", "yr", "yrs", "y"], .seconds 31557600, some (.seconds 31557600)⟩]

def unit? (name : List Char) : Option Unit := units.find? fun u => u.names.any (·.toList == name)

/-! ## Writing -/

/-- A count of a unit, unless it is zero. -/
def part (n : Nat) (unit : String) : List (List Char) :=
  if n = 0 then [] else [Decimal.digits n ++ unit.toList]

/-- A count of a unit whose name takes an `s` above one. -/
def pluralPart (n : Nat) (unit : String) : List (List Char) :=
  part n (if n > 1 then unit ++ "s" else unit)

/-- The parts of a duration, from years down to nanoseconds. -/
def parts (d : Duration) : List (List Char) :=
  let inYear := d.seconds % 31557600
  let inMonth := inYear % 2630016
  let inDay := inMonth % 86400
  pluralPart (d.seconds / 31557600) "year" ++ pluralPart (inYear / 2630016) "month" ++
    pluralPart (inMonth / 86400) "day" ++ part (inDay / 3600) "h" ++ part (inDay / 60 % 60) "m" ++
    part (inDay % 60) "s" ++ part (d.nanos / 1000000) "ms" ++ part (d.nanos / 1000 % 1000) "us" ++
    part (d.nanos % 1000) "ns"

/-- The parts that are not zero, with spaces between them; `0s` for no time at all. -/
def spelled (d : Duration) : List Char :=
  if d.isZero then ['0', 's'] else [' '].intercalate d.parts

/-! ## Reading -/

/-- A number of at most 64 bits. -/
def word? (n : Nat) : Option Nat := if n < 0x10000000000000000 then some n else none

/-- A group: the digits before the point, those behind it if there is one, and the unit's name. -/
structure Group where
  whole : List Char
  fraction : Option (List Char)
  unit : List Char

def isUnitChar (c : Char) : Bool := c.isAlpha || c == 'µ'

def isNumberChar (c : Char) : Bool := Decimal.isDigit c || Blank.isBlank c

/-- The digits and blanks at the front, without the blanks, and what follows. -/
def spanNumber (cs : List Char) : List Char × List Char :=
  ((cs.takeWhile isNumberChar).filter Decimal.isDigit, cs.dropWhile isNumberChar)

/-- Takes a group from the front of a text that starts with a digit. Blanks may stand between all
characters of its number, and before its unit. -/
def group? (cs : List Char) : Option (Group × List Char) := do
  let (whole, rest) := spanNumber cs
  let (fraction, rest) ← match rest with
    | '.' :: rest =>
      let (digits, rest) := spanNumber rest
      if digits.isEmpty then none else some (some digits, rest)
    | rest => some (none, rest)
  let unit := rest.takeWhile isUnitChar
  if unit.isEmpty then none
  else some (⟨whole, fraction, unit⟩, rest.dropWhile isUnitChar)

/-- Adds `n` steps to a duration. -/
def addSteps? (d : Duration) (n : Nat) (step : Step) : Option Duration := do
  match step with
  | .seconds k =>
    let added ← word? (n * k)
    of? (d.seconds + added) d.nanos
  | .nanos k =>
    let added ← word? (n * k)
    let sum ← word? (d.nanos + added)
    of? (d.seconds + sum / 1000000000) (sum % 1000000000)

/-- Adds a fraction of a step, which has to divide exactly. -/
def addFraction? (d : Duration) (digits : List Char) (step : Step) : Option Duration := do
  let scale ← word? (Nat.pow 10 digits.length)
  let n ← word? (Decimal.value digits)
  match step with
  | .seconds k =>
    let product ← word? (n * k)
    if product % scale = 0 then addSteps? d (product / scale) (.seconds 1) else none
  | .nanos k =>
    let product ← word? (n * k)
    if product % scale = 0 then addSteps? d (product / scale) (.nanos 1) else none

/-- Adds a group to a duration. -/
def addGroup? (d : Duration) (g : Group) : Option Duration := do
  let unit ← unit? g.unit
  let n ← word? (Decimal.value g.whole)
  let d ← addSteps? d n unit.worth
  match g.fraction with
  | none => some d
  | some digits => addFraction? d digits (← unit.divided)

/-- Adds the groups of a text, between which blanks may stand. -/
def addGroups? (d : Duration) (cs : List Char) : Option Duration :=
  match Blank.trimStart cs with
  | [] => some d
  | c :: rest =>
    if Decimal.isDigit c then
      match group? (c :: rest) with
      | none => none
      | some (g, behind) =>
        if _h : behind.length < cs.length then
          match addGroup? d g with
          | none => none
          | some d => addGroups? d behind
        else none
    else none
termination_by cs.length

/-- Reads a duration: a lone `0`, or one or more groups. -/
def ofSpelled? (cs : List Char) : Option Duration :=
  if cs = ['0'] then some zero
  else if (Blank.trimStart cs).isEmpty then none
  else addGroups? zero cs

/-! ## One number -/

/-- The digits behind a point, without trailing zeros. -/
def fractionDigits (width n : Nat) : List Char :=
  let digits := ((Decimal.padded width n).reverse.dropWhile (· == '0')).reverse
  if digits.isEmpty then [] else '.' :: digits

/-- The duration in the largest unit of which it holds one, exactly. -/
def fractional (d : Duration) : List Char :=
  if d.seconds > 0 then Decimal.digits d.seconds ++ fractionDigits 9 d.nanos ++ ['s']
  else if d.nanos ≥ 1000000 then
    Decimal.digits (d.nanos / 1000000) ++ fractionDigits 6 (d.nanos % 1000000) ++ ['m', 's']
  else if d.nanos ≥ 1000 then
    Decimal.digits (d.nanos / 1000) ++ fractionDigits 3 (d.nanos % 1000) ++ ['µ', 's']
  else Decimal.digits d.nanos ++ ['n', 's']

end Duration

end Keyring
