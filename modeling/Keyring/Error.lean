import Keyring.Time.Duration

/-!
# Errors

Causes of failure, and their wording.

* `StoreError` is a failure of the key store, `Error` any failure of the service.
* `StoreError.message` and `Error.message` word them; `Error.sources` gives the chain of causes.

No error holds key material: of an unusable key only the name and the length are reported.
-/

namespace Keyring

/-! ## The key store -/

/-- The calls that a key store answers. -/
inductive StoreCall where
  | write
  | list
  | delete
  deriving DecidableEq, Repr

def StoreCall.name : StoreCall → String
  | .write => "write"
  | .list => "list"
  | .delete => "delete"

inductive StoreError where
  | notFound (name : String)
  | conflict (name : String)
  | connection (message : String) (cause : Option String)
  | serialization (message : String) (cause : Option String)
  | internal (message : String) (cause : Option String)
  | timeout
  | cancelled (call : StoreCall)
  deriving DecidableEq, Repr

namespace StoreError

def message : StoreError → String
  | notFound name => "Key not found: " ++ name
  | conflict name => "Key already exists: " ++ name
  | connection message _ => "Connection error: " ++ message
  | serialization message _ => "Serialization error: " ++ message
  | internal message _ => "Internal error: " ++ message
  | timeout => "Operation timeout"
  | cancelled call => "Operation cancelled during " ++ call.name

/-- Whether the same call may succeed later. -/
def isTransient : StoreError → Bool
  | connection _ _ | timeout => true
  | _ => false

/-- The text of the cause, if one was recorded. -/
def cause? : StoreError → Option String
  | connection _ cause | serialization _ cause | internal _ cause => cause
  | _ => none

end StoreError

/-! ## The service -/

/-- Input that is refused for what it is. -/
inductive Invalid where
  | retention (bound : Nat)
  | emptyKey
  | emptyKeyName
  | zeroRefreshInterval
  | shortTokenLifetime
  | lateRenewal (renewal lifetime : Duration)
  | emptyUserAgent
  | keyLength (name : String) (length : Nat)
  | noSigningKey
  | shortLifetime
  | emptyUserId
  | emptyTokenId
  | lifetimeOutOfRange
  | other (text : String)
  deriving DecidableEq

def Invalid.message : Invalid → String
  | retention bound => s!"max_backups must be within 1..=32, got {bound}"
  | emptyKey => "signing key cannot be empty"
  | emptyKeyName => "signing key name cannot be empty"
  | zeroRefreshInterval => "refresh_interval must be greater than zero"
  | shortTokenLifetime => "token_ttl must be at least one second"
  | lateRenewal renewal lifetime =>
    "renewal_delta (" ++ String.ofList renewal.fractional ++ ") must be shorter than token_ttl (" ++
      String.ofList lifetime.fractional ++ ")"
  | emptyUserAgent => "automation_user_agent cannot be empty"
  | keyLength name length => "signing key '" ++ name ++ s!"' must be 32 bytes, got {length}"
  | noSigningKey => "no signing key available"
  | shortLifetime => "token ttl must be at least one second"
  | emptyUserId => "user id cannot be empty"
  | emptyTokenId => "token id cannot be empty"
  | lifetimeOutOfRange => "token ttl out of range"
  | other text => text

/-- Why a caller may not rotate keys. -/
inductive Refusal where
  | userAgent
  | noBearerToken
  | identityRejected
  | principal (subject : String)
  | other (text : String)
  deriving DecidableEq, Repr

def Refusal.message : Refusal → String
  | userAgent => "unexpected user agent"
  | noBearerToken => "missing bearer token"
  | identityRejected => "identity token rejected"
  | principal subject => "principal '" ++ subject ++ "' is not allowed to rotate keys"
  | other text => text

/-- Why no token could be signed. -/
inductive SigningFault where
  /-- A token just issued was not accepted under its own key. -/
  | selfCheck
  | other (text : String)
  deriving DecidableEq, Repr

def SigningFault.message : SigningFault → String
  | selfCheck => "issued token does not verify with its signing key"
  | other text => text

/-- Why a presented token is not accepted. Callers do not learn it, the log does. -/
inductive Rejection where
  | emptyToken
  | malformedHeader
  | unsupportedAlgorithm
  | noKeyVerifies
  | expiryNotAfterIssue
  | expired
  deriving DecidableEq, Repr

def Rejection.message : Rejection → String
  | emptyToken => "empty token"
  | malformedHeader => "malformed header"
  | unsupportedAlgorithm => "unsupported algorithm"
  | noKeyVerifies => "no candidate key verified the signature"
  | expiryNotAfterIssue => "expiry not after issue time"
  | expired => "token expired"

inductive Error where
  | invalid (cause : Invalid)
  | invalidCredentials
  | unauthorized (cause : Refusal)
  | keyStorage (call : StoreCall) (cause : StoreError)
  | keyGeneration (message : String)
  | signing (cause : SigningFault)
  deriving DecidableEq

namespace Error

def message : Error → String
  | invalid cause => "Validation error: " ++ cause.message
  | invalidCredentials => "Invalid credentials"
  | unauthorized cause => "Unauthorized: " ++ cause.message
  | keyStorage call cause => "Key storage error during " ++ call.name ++ ": " ++ cause.message
  | keyGeneration message => "Key generation failed: " ++ message
  | signing cause => "Token signing failed: " ++ cause.message

/-- The texts of the causes behind an error, outermost first. -/
def sources : Error → List String
  | keyStorage _ cause => cause.message :: cause.cause?.toList
  | _ => []

end Error

end Keyring
