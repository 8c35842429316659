import Keyring.Signature.Edwards
import Keyring.Signature.Scheme
import Keyring.Signature.Sha512

/-!
# Ed25519

Deterministic signatures with 32-octet seeds and public keys and 64-octet signatures. A signature is
checked without the cofactor: the point computed from the equation is written out and compared with
the signature's first half, octet by octet. Keys of small order are not refused.
-/

namespace Keyring

namespace Ed25519

open Edwards

/-- The digest of the seed as a scalar, with the lowest three bits and the highest bit cleared and
the one below it set, and the half that makes signatures deterministic. -/
def expand (seed : Bytes) : Nat × Bytes :=
  let h := Sha512.digest seed
  let n := Bytes.ofLittleEndian (h.take 32) % (1 <<< 254)
  (n - n % 8 + (1 <<< 254), h.drop 32)

/-- The digest of a text as a scalar. -/
def challenge (bytes : Bytes) : Nat := Bytes.ofLittleEndian (Sha512.digest bytes) % groupOrder

def publicKey (seed : Bytes) : Bytes := (Point.generator.scale (expand seed).1).encode

def sign (seed message : Bytes) : Bytes :=
  let (a, half) := expand seed
  let own := (Point.generator.scale a).encode
  let r := challenge (half ++ message)
  let commitment := (Point.generator.scale r).encode
  let k := challenge (commitment ++ own ++ message)
  commitment ++ Bytes.littleEndian 32 ((r + k * a) % groupOrder)

def verify (publicKey message signature : Bytes) : Bool :=
  if signature.length ≠ 64 then false
  else
    let commitment := signature.take 32
    let s := Bytes.ofLittleEndian (signature.drop 32)
    match Point.decode? publicKey with
    | none => false
    | some a =>
      if groupOrder ≤ s then false
      else
        let k := challenge (commitment ++ publicKey ++ message)
        ((Point.generator.scale s).add (a.neg.scale k)).encode == commitment

/-- Whether 32 octets are the encoding of a point, and so can be checked against. -/
def isPublicKey (bytes : Bytes) : Bool := (Point.decode? bytes).isSome

end Ed25519

/-- Ed25519 as a signature scheme. -/
def ed25519 : Scheme := ⟨Ed25519.publicKey, Ed25519.sign, Ed25519.verify⟩

end Keyring
