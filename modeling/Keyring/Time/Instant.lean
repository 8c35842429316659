import Keyring.Time.Date
import Keyring.Time.Duration

/-!
# Instants

Points of universal time to the nanosecond, over some half a million years. A leap second belongs to
the last second of a minute, whose nanoseconds then run on to two thousand million.

* `Instant.plus?` adds a duration, `Instant.nanosSince` is the signed distance of two instants.
* `Instant.ceilSecond` is the first whole second not before an instant.
-/

namespace Keyring

/-- A second counted from 1970-01-01T00:00:00Z and the nanoseconds passed in it. -/
structure Instant where
  second : Int
  nanos : Nat
  inRange : -8334601228800 ≤ second ∧ second ≤ 8210266876799
  nanos_lt : nanos < 2000000000
  leap : 1000000000 ≤ nanos → second % 60 = 59
  deriving DecidableEq

namespace Instant

/-- The first second that an instant can have. -/
def minSecond : Int := -8334601228800

/-- The last second that an instant can have. -/
def maxSecond : Int := 8210266876799

def of? (second : Int) (nanos : Nat) : Option Instant :=
  if h : (-8334601228800 ≤ second ∧ second ≤ 8210266876799) ∧ nanos < 2000000000 ∧
      (1000000000 ≤ nanos → second % 60 = 59) then
    some ⟨second, nanos, h.1, h.2.1, h.2.2⟩
  else none

/-- The earliest instant. -/
def earliest : Instant := ⟨minSecond, 0, by decide, by decide, by decide⟩

/-- The beginning of a second; the earliest instant if that is out of range. -/
def ofSecond (second : Int) : Instant := (of? second 0).getD earliest

instance : LT Instant :=
  ⟨fun a b => a.second < b.second ∨ (a.second = b.second ∧ a.nanos < b.nanos)⟩

instance : LE Instant := ⟨fun a b => ¬ b < a⟩

instance (a b : Instant) : Decidable (a < b) :=
  inferInstanceAs (Decidable (a.second < b.second ∨ (a.second = b.second ∧ a.nanos < b.nanos)))

instance (a b : Instant) : Decidable (a ≤ b) := inferInstanceAs (Decidable (¬ b < a))

/-- Whether the instant lies in a leap second. -/
def inLeapSecond (t : Instant) : Bool := decide (1000000000 ≤ t.nanos)

/-- The second of the day. -/
def secondOfDay (t : Instant) : Int := t.second % 86400

/-! ## Sums and distances -/

/-- The longest duration that can be added: `2^63 - 1` milliseconds. -/
def longestSpan : Duration := ⟨9223372036854775, 807000000, by decide, by decide⟩

/-- The instant a duration later, if both are in range. A leap second that is left behind counts
for nothing; one that is not left just runs on. -/
def plus? (t : Instant) (d : Duration) : Option Instant :=
  if longestSpan < d then none
  else if t.inLeapSecond then
    if d.seconds = 0 ∧ t.nanos + d.nanos < 2000000000 then of? t.second (t.nanos + d.nanos)
    else
      let nanos := t.nanos - 1000000000 + d.nanos
      of? (t.second + d.seconds + (nanos / 1000000000 : Nat)) (nanos % 1000000000)
  else
    let nanos := t.nanos + d.nanos
    of? (t.second + d.seconds + (nanos / 1000000000 : Nat)) (nanos % 1000000000)

/-- The nanoseconds from `b` to `a`. Of two instants the one with the later time of day counts the
leap second in which the other one lies. -/
def nanosSince (a b : Instant) : Int :=
  let leap : Int :=
    if b.secondOfDay < a.secondOfDay ∧ b.inLeapSecond then 1
    else if a.secondOfDay < b.secondOfDay ∧ a.inLeapSecond then -1
    else 0
  (a.second - b.second + leap) * 1000000000 + (a.nanos - b.nanos)

/-- The time from `b` to `a`, or no time at all if `a` is earlier. -/
def since (a b : Instant) : Duration := Duration.ofNanos (a.nanosSince b).toNat

/-- The first whole second that is not earlier; for a leap second the one after it. -/
def ceilSecond (t : Instant) : Int := if t.nanos > 0 then t.second + 1 else t.second

end Instant

end Keyring
