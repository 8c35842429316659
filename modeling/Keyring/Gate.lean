import Keyring.Codec
import Keyring.Config
import Keyring.Credentials
import Keyring.Snapshot

/-!
# The authentication gate

Requests are let in with a token, and users get their first one for credentials. A token that is
about to expire is renewed on request; if that fails, the token at hand stays in use.

* `Gate.check` checks a token with all keys in use.
* `Gate.authenticate` checks a token and renews it if that is due.
* `Gate.login` checks credentials and issues a token with the newest key.

Each gives its answer and the events that report on it.
-/

namespace Keyring

/-- What the gate works with: the codec, the keys in use, and the two settings about tokens. -/
structure Gate where
  scheme : Scheme
  codec : Codec
  keys : Snapshot
  tokenLifetime : Duration
  renewalDelta : Duration

structure IssuedToken where
  claims : Claims
  token : String
  deriving DecidableEq, Repr

/-- What became of the renewal of a token. -/
inductive Renewal where
  | notDue
  | renewed
  | failed (cause : Error)
  deriving DecidableEq

/-- A request that was let in: the token to use from now on, with its claims. -/
structure Authenticated where
  claims : Claims
  token : String
  renewal : Renewal
  deriving DecidableEq

namespace Gate

/-- Checks a token; whatever is wrong with it, the credentials are invalid. -/
def check (g : Gate) (token : String) (now : Instant) : Except Error Claims × List Event :=
  if token.isEmpty then (.error .invalidCredentials, [])
  else
    match g.codec.decode token (g.keys.publicKeys g.scheme) now with
    | (.ok claims, events) => (.ok claims, events)
    | (.error .invalidCredentials, events) => (.error .invalidCredentials, events)
    | (.error e, events) => (.error .invalidCredentials, events ++ [.decodeFailed e])

/-- Issues a token with the newest key, and checks that it is accepted under this key. -/
def issue (g : Gate) (user tokenId : String) (now : Instant) :
    Except Error IssuedToken × List Event :=
  match g.codec.encode user g.tokenLifetime g.keys.current tokenId now with
  | .error e => (.error e, [])
  | .ok token =>
    match g.codec.decode token (g.keys.current.toList.map (·.publicKey g.scheme)) now with
    | (.ok claims, events) => (.ok ⟨claims, token⟩, events)
    | (.error _, events) => (.error (.signing .selfCheck), events)

/-- Whether a token with these claims is to be renewed: less than the margin remains of its life. -/
def isRenewalDue (g : Gate) (claims : Claims) (now : Instant) : Bool :=
  decide (claims.remainingAt now < g.renewalDelta)

/-- Renews a token for the same user. -/
def renew (g : Gate) (claims : Claims) (token tokenId : String) (now : Instant) :
    Authenticated × List Event :=
  match g.issue claims.subject tokenId now with
  | (.ok issued, events) =>
    (⟨issued.claims, issued.token, .renewed⟩, events ++ [.tokenRenewed claims.subject])
  | (.error e, events) =>
    (⟨claims, token, .failed e⟩, events ++ [.renewalFailed claims.subject e])

/-- Checks a token and, if the caller wants it and it is due, renews it. -/
def authenticate (g : Gate) (token : String) (autoRenew : Bool) (tokenId : String)
    (now : Instant) : Except Error Authenticated × List Event :=
  match g.check token now with
  | (.error e, events) => (.error e, events)
  | (.ok claims, events) =>
    if autoRenew && g.isRenewalDue claims now then
      let (authenticated, more) := g.renew claims token tokenId now
      (.ok authenticated, events ++ more)
    else (.ok ⟨claims, token, .notDue⟩, events)

/-- Issues a token to the user whose credentials these are. -/
def login (g : Gate) (verify : CredentialVerifier) (credentials : Credentials) (tokenId : String)
    (now : Instant) : Except Error IssuedToken × List Event :=
  match verify credentials with
  | .error e => (.error e, [])
  | .ok none => (.error .invalidCredentials, [.loginFailed credentials.username])
  | .ok (some user) =>
    match g.issue user tokenId now with
    | (.error e, events) => (.error e, events)
    | (.ok issued, events) => (.ok issued, events ++ [.loginSucceeded credentials.username])

def diagnostic (g : Gate) : String :=
  Diagnostic.record "AuthenticationGate"
    [("token_ttl", g.tokenLifetime.fractional), ("renewal_delta", g.renewalDelta.fractional)] true

end Gate

end Keyring
