import Keyring.Error
import Keyring.Record
import Keyring.Signature.Scheme
import Keyring.Text.Base64Url

/-!
# Signing keys in use

A record whose key material is a seed of 32 octets can sign. What is shown of a key never holds its
seed.

* `Key.ofRecord` takes a record into use, or says that its material has the wrong length.
* `Key.publicKey` is the half that tokens are checked with.
-/

namespace Keyring

/-- A key that tokens are checked with. -/
structure PublicKey where
  name : String
  bytes : Bytes
  deriving DecidableEq, Repr

/-- A key that tokens are signed with. -/
structure Key where
  name : String
  seed : Bytes
  createdAt : Instant
  seed_length : seed.length = 32
  deriving DecidableEq

namespace Key

def ofRecord (r : Record) : Except Error Key :=
  if h : r.key.length = 32 then .ok ⟨r.name, r.key, r.createdAt, h⟩
  else .error (.invalid (.keyLength r.name r.key.length))

def publicKey (scheme : Scheme) (k : Key) : PublicKey := ⟨k.name, scheme.publicKey k.seed⟩

def diagnostic (k : Key) : String :=
  Diagnostic.record "CachedSigningKey"
    [("name", Diagnostic.quoted k.name), ("created_at", Rfc3339.write k.createdAt),
     ("signing_key", Diagnostic.quoted "[REDACTED]")] true

end Key

namespace PublicKey

/-- The key as base64url. -/
def encoded (k : PublicKey) : String := String.ofList (Base64Url.encodeText k.bytes)

def diagnostic (k : PublicKey) : String :=
  Diagnostic.record "PublicKey"
    [("name", Diagnostic.quoted k.name), ("key", Diagnostic.quoted k.encoded)] false

end PublicKey

end Keyring
