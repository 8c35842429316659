import Keyring.Error
import Keyring.Text.Diagnostic

/-!
# Credentials

What a user presents at login. Passwords are never shown.
-/

namespace Keyring

structure Credentials where
  username : String
  password : String

def Credentials.diagnostic (c : Credentials) : String :=
  Diagnostic.record "Credentials"
    [("username", Diagnostic.quoted c.username), ("password", Diagnostic.quoted "[REDACTED]")] false

/-- The user whose credentials these are, if any; an error if this cannot be found out. -/
abbrev CredentialVerifier := Credentials → Except Error (Option String)

/-- A user of the service. -/
structure User where
  username : String
  password : String
  id : String

/-- The verifier that knows exactly these users; of two with the same name the later one counts. -/
def usersVerifier (users : List User) : CredentialVerifier := fun c =>
  .ok <|
    match users.reverse.find? fun u => u.username == c.username with
    | some u => if u.password = c.password then some u.id else none
    | none => none

end Keyring
