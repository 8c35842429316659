import Keyring.Bytes
import Keyring.Text.Diagnostic
import Keyring.Time.Rfc3339

/-!
# Key records

The form in which a signing key is stored: a name, the key material, and the time of its creation.
-/

namespace Keyring

structure Record where
  name : String
  key : Bytes
  createdAt : Instant
  deriving DecidableEq

namespace Record

/-- The record as shown in diagnostics, without its key material. -/
def diagnostic (r : Record) : String :=
  Diagnostic.record "SigningKeyRecord"
    [("name", Diagnostic.quoted r.name), ("key", Diagnostic.quoted "<redacted>"),
     ("created_at", Rfc3339.write r.createdAt)] false

end Record

end Keyring
