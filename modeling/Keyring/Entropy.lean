import Keyring.Signature.Sha512

/-!
# Entropy

Octets that nobody can foretell who does not know where they were drawn from. A pool gives its
blocks by number, so that what is drawn depends on the number of draws alone.
-/

namespace Keyring

/-- A pool of entropy, known by its secret. -/
structure Entropy where
  secret : Bytes
  deriving DecidableEq, Repr

namespace Entropy

/-- The `n`-th block of 64 octets. -/
def block (pool : Entropy) (n : Nat) : Bytes :=
  Sha512.digest (pool.secret ++ Bytes.bigEndian 8 n)

/-- The `n`-th seed of a signing key. -/
def seed (pool : Entropy) (n : Nat) : Bytes := (pool.block n).take 32

end Entropy

end Keyring
