import Keyring.Config

/-!
# The refresh window

The keys are refreshed at most once in an interval, however many requests ask for it. A request
claims the window before it refreshes; if the refresh fails, the claim is given back.

* `Coordinator.claim?` claims the window at an instant, unless it is still fresh.
* `Coordinator.succeed`, `Coordinator.giveBack` and `Coordinator.force` settle a refresh.

Instants are counted in nanoseconds on a clock that never goes back.
-/

namespace Keyring

structure Coordinator where
  /-- When the current window began. -/
  lastRefreshed : Option Nat
  refreshes : Nat
  refreshErrors : Nat
  rotations : Nat
  deriving DecidableEq, Repr

namespace Coordinator

def initial : Coordinator := ⟨none, 0, 0, 0⟩

/-- Whether the window is open at an instant: an interval has not passed since it began. -/
def isFresh (interval : Duration) (now : Nat) (c : Coordinator) : Bool :=
  match c.lastRefreshed with
  | none => false
  | some last => decide (now - last < interval.inNanos)

/-- A claimed window, and the one that it took the place of. -/
structure Claim where
  start : Nat
  previous : Option Nat
  deriving DecidableEq, Repr

/-- Claims the window from now on, unless there is no need to refresh. -/
def claim? (interval : Duration) (now : Nat) (c : Coordinator) : Option (Claim × Coordinator) :=
  if c.isFresh interval now then none
  else some (⟨now, c.lastRefreshed⟩, { c with lastRefreshed := some now })

/-- Counts a refresh that succeeded. -/
def succeed (c : Coordinator) : Coordinator := { c with refreshes := c.refreshes + 1 }

/-- Counts a refresh that failed. -/
def fail (c : Coordinator) : Coordinator := { c with refreshErrors := c.refreshErrors + 1 }

/-- Gives back a claim whose refresh failed, unless the window has moved on since. -/
def giveBack (claim : Claim) (c : Coordinator) : Coordinator :=
  { c.fail with
    lastRefreshed :=
      if c.lastRefreshed = some claim.start then claim.previous else c.lastRefreshed }

/-- Begins a window with a refresh that succeeded without a claim. -/
def force (now : Nat) (c : Coordinator) : Coordinator :=
  { c.succeed with lastRefreshed := some now }

/-- Counts a rotation that succeeded. -/
def rotate (c : Coordinator) : Coordinator := { c with rotations := c.rotations + 1 }

@[simp] theorem rotate_eq (c : Coordinator) :
    c.rotate = { c with rotations := c.rotations + 1 } := rfl

end Coordinator

end Keyring
