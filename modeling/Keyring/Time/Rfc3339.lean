import Keyring.Text.Blank
import Keyring.Time.Instant

/-!
# Instants as text

Instants are written as in RFC 3339, in universal time. Reading is more liberal: numbers may be
short, years signed and longer than four digits, and the offset may stand apart.

* `Rfc3339.write` writes an instant, `Rfc3339.read?` reads one.
-/

namespace Keyring.Rfc3339

/-! ## Writing -/

/-- A year of at least four digits; it has a sign outside the years 0 to 9999. -/
def writeYear (year : Int) : List Char :=
  if 0 ≤ year ∧ year ≤ 9999 then Decimal.padded 4 year.toNat
  else if 0 ≤ year then '+' :: Decimal.padded 4 year.toNat
  else '-' :: Decimal.padded 4 (-year).toNat

/-- No digits, or three, six or nine of them behind a point, as few as are exact. -/
def writeFraction (nanos : Nat) : List Char :=
  if nanos = 0 then []
  else if nanos % 1000000 = 0 then '.' :: Decimal.padded 3 (nanos / 1000000)
  else if nanos % 1000 = 0 then '.' :: Decimal.padded 6 (nanos / 1000)
  else '.' :: Decimal.padded 9 nanos

/-- A leap second is written as the second `60` of its minute. -/
def write (t : Instant) : List Char :=
  let date := Date.ofDays (t.second / 86400)
  let ofDay := t.secondOfDay.toNat
  let isLeap := t.inLeapSecond
  let second := ofDay % 60 + (if isLeap then 1 else 0)
  let nanos := t.nanos - (if isLeap then 1000000000 else 0)
  writeYear date.year ++ '-' :: Decimal.padded 2 date.month ++ '-' :: Decimal.padded 2 date.day ++
    'T' :: Decimal.padded 2 (ofDay / 3600) ++ ':' :: Decimal.padded 2 (ofDay / 60 % 60) ++
    ':' :: Decimal.padded 2 second ++ writeFraction nanos ++ ['Z']

/-! ## Reading -/

/-- One to `width` digits. -/
def number? (width : Nat) (cs : List Char) : Option (Nat × List Char) :=
  let digits := (cs.take width).takeWhile Decimal.isDigit
  if digits.isEmpty then none else some (Decimal.value digits, cs.drop digits.length)

/-- A number behind blanks. -/
def field? (width : Nat) (cs : List Char) : Option (Nat × List Char) :=
  number? width (Blank.trimStart cs)

/-- A year behind blanks: with a sign of any length, without one of up to four digits. -/
def year? (cs : List Char) : Option (Int × List Char) :=
  match Blank.trimStart cs with
  | '-' :: rest => (number? rest.length rest).map fun (n, rest) => (-(n : Int), rest)
  | '+' :: rest => (number? rest.length rest).map fun (n, rest) => ((n : Int), rest)
  | cs => (number? 4 cs).map fun (n, rest) => ((n : Int), rest)

/-- A character behind blanks. -/
def mark? (c : Char) (cs : List Char) : Option (List Char) :=
  match Blank.trimStart cs with
  | d :: rest => if d = c then some rest else none
  | [] => none

/-- The character between date and time. -/
def separator? : List Char → Option (List Char)
  | c :: rest => if c = 'T' ∨ c = 't' ∨ c = ' ' then some rest else none
  | [] => none

/-- A point and digits, of which the first nine count, or nothing. -/
def fraction? : List Char → Option (Nat × List Char)
  | '.' :: rest => do
    let (n, behind) ← number? 9 rest
    some (n * Nat.pow 10 (9 - (rest.length - behind.length)), behind.dropWhile Decimal.isDigit)
  | cs => some (0, cs)

/-- Two digits. -/
def twoDigits? : List Char → Option (Nat × List Char)
  | a :: b :: rest =>
    if Decimal.isDigit a && Decimal.isDigit b then some (Decimal.value [a, b], rest) else none
  | _ => none

/-- Hours and minutes, between which colons and blanks may stand, as seconds. -/
def hoursMinutes? (cs : List Char) : Option (Nat × List Char) := do
  let (hours, rest) ← twoDigits? cs
  let (minutes, rest) ← twoDigits? (rest.dropWhile fun c => c == ':' || Blank.isBlank c)
  if minutes < 60 then some (hours * 3600 + minutes * 60, rest) else none

/-- The offset from universal time in seconds: a zone name for none, or a signed one. -/
def offset? (cs : List Char) : Option (Int × List Char) :=
  match Blank.trimStart cs with
  | 'Z' :: rest | 'z' :: rest => some (0, rest)
  | '+' :: rest => (hoursMinutes? rest).map fun (n, rest) => ((n : Int), rest)
  | '-' :: rest | '\u2212' :: rest => (hoursMinutes? rest).map fun (n, rest) => (-(n : Int), rest)
  | a :: b :: c :: rest =>
    if a.toUpper = 'U' ∧ b.toUpper = 'T' ∧ c.toUpper = 'C' then some (0, rest) else none
  | _ => none

/-- Reads an instant. The second `60` is a leap second; the offset is below a day. -/
def read? (cs : List Char) : Option Instant := do
  let (year, cs) ← year? cs
  let cs ← mark? '-' cs
  let (month, cs) ← field? 2 cs
  let cs ← mark? '-' cs
  let (day, cs) ← field? 2 cs
  let cs ← separator? cs
  let (hour, cs) ← field? 2 cs
  let cs ← mark? ':' cs
  let (minute, cs) ← field? 2 cs
  let cs ← mark? ':' cs
  let (second, cs) ← field? 2 cs
  let (nanos, cs) ← fraction? cs
  let (offset, cs) ← offset? cs
  if !(Blank.trimStart cs).isEmpty then none
  else
    let date : Date := ⟨year, month, day⟩
    if !date.isValid || hour > 23 || minute > 59 || second > 60 || offset.natAbs ≥ 86400 then none
    else
      let isLeap := second = 60
      let ofDay := hour * 3600 + minute * 60 + (if isLeap then 59 else second)
      let localSecond := date.toDays * 86400 + ofDay
      if localSecond < Instant.minSecond ∨ Instant.maxSecond < localSecond then none
      else Instant.of? (localSecond - offset) (nanos + (if isLeap then 1000000000 else 0))

end Keyring.Rfc3339
