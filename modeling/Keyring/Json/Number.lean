import Keyring.Bytes

/-!
# JSON numbers

A number's text is taken apart into sign, digits, fraction and exponent. Whole numbers of up to 64
bits are kept exactly; of any other number only whether it lies within the range of double-precision
floating point matters.

* `Number.Parts.scan` reads the grammar from the front of a text.
* `Number.Parts.number` classifies what was read.
-/

namespace Keyring.Json

/-- What is wrong with a text that stops being JSON: it ends, or it goes on wrongly. -/
inductive Flaw where
  | ended
  | malformed
  deriving DecidableEq, Repr

inductive Number where
  /-- A whole number below `2^64`, without sign. -/
  | natural (n : Nat)
  /-- The number `-n`, for `n` from `1` to `2^63`. -/
  | negative (n : Nat)
  /-- Any other number within the range of doubles: a fraction, a power, `-0`, more than 64 bits. -/
  | inexact
  /-- A number beyond the range of doubles. -/
  | tooLarge
  deriving DecidableEq, Repr

namespace Number

/-! ## Grammar -/

/-- A number's text: digits as their values, the fraction and the exponent if there are any. -/
structure Parts where
  isNegative : Bool
  whole : List Nat
  fraction : Option (List Nat)
  /-- Whether the exponent is negative, and its digits. -/
  exponent : Option (Bool × List Nat)

def isDigit (b : UInt8) : Bool := 48 ≤ b && b ≤ 57

/-- The values of the leading digits. -/
def leadingDigits (bytes : Bytes) : List Nat := (bytes.takeWhile isDigit).map (·.toNat - 48)

def afterDigits (bytes : Bytes) : Bytes := bytes.dropWhile isDigit

/-- The flaw of a text that goes on with `bytes` where a digit has to stand. -/
def noDigit : Bytes → Flaw
  | [] => .ended
  | _ :: _ => .malformed

/-- One or more digits. -/
def scanDigits (bytes : Bytes) : Except Flaw (List Nat × Bytes) :=
  match leadingDigits bytes with
  | [] => .error (noDigit bytes)
  | ds => .ok (ds, afterDigits bytes)

/-- The digits before the point: a single zero, or digits that do not start with one. -/
def scanWhole (bytes : Bytes) : Except Flaw (List Nat × Bytes) := do
  let (ds, rest) ← scanDigits bytes
  match ds with
  | 0 :: _ :: _ => .error .malformed
  | _ => pure (ds, rest)

/-- A point and digits, or nothing. -/
def scanFraction : Bytes → Except Flaw (Option (List Nat) × Bytes)
  | 46 :: rest => do
    let (ds, rest) ← scanDigits rest
    pure (some ds, rest)
  | bytes => .ok (none, bytes)

/-- The mark of an exponent, a sign and digits, or nothing. -/
def scanExponent : Bytes → Except Flaw (Option (Bool × List Nat) × Bytes)
  | [] => .ok (none, [])
  | b :: rest =>
    if b = 101 ∨ b = 69 then do
      let (isNegative, rest) := match rest with
        | 43 :: rest => (false, rest)
        | 45 :: rest => (true, rest)
        | rest => (false, rest)
      let (ds, rest) ← scanDigits rest
      pure (some (isNegative, ds), rest)
    else .ok (none, b :: rest)

def Parts.scan (bytes : Bytes) : Except Flaw (Parts × Bytes) := do
  let (isNegative, bytes) := match bytes with
    | 45 :: rest => (true, rest)
    | bytes => (false, bytes)
  let (whole, bytes) ← scanWhole bytes
  let (fraction, bytes) ← scanFraction bytes
  let (exponent, bytes) ← scanExponent bytes
  pure (⟨isNegative, whole, fraction, exponent⟩, bytes)

/-! ## Range -/

/-- The value of digits, most significant first. -/
def ofDigits (ds : List Nat) : Nat := ds.foldl (fun n d => 10 * n + d) 0

/-- The double nearest to `n`, ties to even; `n` is below the largest double. -/
def nearestDouble (n : Nat) : Nat :=
  if n < 0x20000000000000 then n
  else
    let unit := 1 <<< (n.log2 - 52)
    let q := n / unit
    let r := n % unit
    let up := 2 * r > unit ∨ (2 * r = unit ∧ q % 2 = 1)
    (if up then q + 1 else q) * unit

/-- Whether `significand * 10^exponent` exceeds the doubles. The product is taken of the nearest
doubles of its factors. -/
def exceedsDoubles (significand : Nat) (exponent : Int) : Bool :=
  match exponent with
  | .negSucc _ => false
  | .ofNat e =>
    if e ≤ 308 then
      decide ((1 <<< 1024) - (1 <<< 970) ≤ nearestDouble significand * nearestDouble (Nat.pow 10 e))
    else significand ≠ 0

/-- The digits of the whole part as a significand of 64 bits: digits from the first that does not
fit are counted instead. -/
def significandOfWhole : Nat → List Nat → Nat × Nat
  | n, [] => (n, 0)
  | n, d :: ds =>
    if 10 * n + d < 0x10000000000000000 then significandOfWhole (10 * n + d) ds else (n, ds.length + 1)

/-- Digits of the fraction join the significand while it fits; the count is of those that joined. -/
def significandOfFraction : Nat → Nat → List Nat → Nat × Nat
  | n, k, [] => (n, k)
  | n, k, d :: ds =>
    if 10 * n + d < 0x10000000000000000 then significandOfFraction (10 * n + d) (k + 1) ds else (n, k)

def Parts.isTooLarge (p : Parts) : Bool :=
  let (n, dropped) := significandOfWhole 0 p.whole
  let (n, joined) := significandOfFraction n 0 (p.fraction.getD [])
  let e : Int := match p.exponent with
    | none => 0
    | some (true, ds) => -(ofDigits ds : Int)
    | some (false, ds) => ofDigits ds
  exceedsDoubles n (e + dropped - joined)

/-- Classifies a number. -/
def Parts.number (p : Parts) : Number :=
  let n := ofDigits p.whole
  if p.fraction.isNone && p.exponent.isNone && n < 0x10000000000000000 then
    if !p.isNegative then .natural n
    else if 0 < n ∧ n ≤ 0x8000000000000000 then .negative n
    else .inexact
  else if p.isTooLarge then .tooLarge
  else .inexact

end Number

end Keyring.Json
