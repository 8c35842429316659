/-!
# Fail points

Places at which a failure can be provoked, always or for a number of times.
-/

namespace Keyring

inductive Failpoint where
  | off
  | always
  /-- The next `count` passes fail. -/
  | next (count : Nat)
  deriving DecidableEq, Repr

/-- Whether this pass fails, and the fail point behind it. -/
def Failpoint.pass : Failpoint → Bool × Failpoint
  | off => (false, off)
  | always => (true, always)
  | next 0 => (false, off)
  | next (count + 1) => (true, next count)

end Keyring
