import Keyring.Bytes

/-!
# Signature schemes

A scheme derives the public half of a secret seed, signs messages and checks signatures. Tokens are
built over any scheme, so that what is said of them rests on `Scheme.Sound` alone.
-/

namespace Keyring

structure Scheme where
  publicKey (seed : Bytes) : Bytes
  sign (seed message : Bytes) : Bytes
  verify (publicKey message signature : Bytes) : Bool

/-- A signature made with a seed verifies under the seed's public key. -/
def Scheme.Sound (scheme : Scheme) : Prop :=
  ∀ seed message : Bytes, seed.length = 32 →
    scheme.verify (scheme.publicKey seed) message (scheme.sign seed message) = true

end Keyring
