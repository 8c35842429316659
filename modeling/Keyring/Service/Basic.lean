import Keyring.Access
import Keyring.Coordinator
import Keyring.Failpoint
import Keyring.Gate
import Keyring.Repository

/-!
# The service

The state of a service that keeps signing keys, and what it works with. Everything that it does to
its state happens in steps, and the log holds all events since the service began.

* `Environment` holds what does not change: the configuration and the sources of keys and names.
* `Service` is the state; `Moment` is the reading of the clocks for one step.
* `Service.login`, `Service.authenticate` and `Service.check` answer requests with tokens.
-/

namespace Keyring

/-- What a service works with. Keys, names and token identifiers are counted from zero. -/
structure Environment where
  scheme : Scheme
  config : Config
  identities : IdentityVerifier
  keys : Nat → Bytes
  names : Nat → String
  tokenIds : Nat → String

/-- How much was drawn from the sources of keys, names and token identifiers. -/
structure Draws where
  /-- The calls for a key, those that failed included. -/
  keyCalls : Nat
  keys : Nat
  names : Nat
  tokenIds : Nat
  deriving DecidableEq, Repr

/-- What runs after each response. -/
inductive Hook where
  /-- Refreshes the keys, unless they are fresh. -/
  | cacheRefresh
  /-- Records that it ran. -/
  | named (name : String)
  deriving DecidableEq, Repr

def Hook.name : Hook → String
  | cacheRefresh => "cache_refresh"
  | named name => name

structure Service where
  repository : Repository
  /-- The keys in use. -/
  snapshot : Snapshot
  coordinator : Coordinator
  draws : Draws
  /-- Whether the generation of keys fails. -/
  keysFail : Bool
  failBeforeList : Failpoint
  failAfterWrite : Failpoint
  hooks : List Hook
  /-- The names that hooks recorded, as far as no response has taken them. -/
  recorded : List String
  log : List Event

/-- The clocks in one step: one that never goes back, in nanoseconds, and the time of day. -/
structure Moment where
  elapsed : Nat
  time : Instant

namespace Service

/-- A service that has not done anything, with an empty repository. -/
def initial : Service where
  repository := .empty
  snapshot := []
  coordinator := .initial
  draws := ⟨0, 0, 0, 0⟩
  keysFail := false
  failBeforeList := .off
  failAfterWrite := .off
  hooks := []
  recorded := []
  log := []

def report (s : Service) (events : List Event) : Service := { s with log := s.log ++ events }

/-! ## Keys and names -/

/-- Generates a key. -/
def drawKey (env : Environment) (s : Service) : Except Error Bytes × Service :=
  let s := { s with draws.keyCalls := s.draws.keyCalls + 1 }
  if s.keysFail then (.error (.keyGeneration "injected generator failure"), s)
  else (.ok (env.keys s.draws.keys), { s with draws.keys := s.draws.keys + 1 })

/-- Takes the next name. -/
def drawName (env : Environment) (s : Service) : String × Service :=
  (env.names s.draws.names, { s with draws.names := s.draws.names + 1 })

/-! ## Tokens -/

/-- The gate with the keys that are in use now. -/
def gate (env : Environment) (codec : Codec) (s : Service) : Gate where
  scheme := env.scheme
  codec := codec
  keys := s.snapshot
  tokenLifetime := env.config.tokenLifetime
  renewalDelta := env.config.renewalDelta

/-- The identifier of the next token that is issued. -/
def nextTokenId (env : Environment) (s : Service) : String := env.tokenIds s.draws.tokenIds

/-- Counts the identifier of a token as taken. -/
def takeTokenId (s : Service) : Service := { s with draws.tokenIds := s.draws.tokenIds + 1 }

def check (env : Environment) (codec : Codec) (token : String) (now : Instant) (s : Service) :
    Except Error Claims × Service :=
  let (answer, events) := (s.gate env codec).check token now
  (answer, s.report events)

/-- Lets a request in. A renewal takes a token identifier, whether it succeeds or not. -/
def authenticate (env : Environment) (codec : Codec) (token : String) (autoRenew : Bool)
    (now : Instant) (s : Service) : Except Error Authenticated × Service :=
  match (s.gate env codec).authenticate token autoRenew (s.nextTokenId env) now with
  | (.error e, events) => (.error e, s.report events)
  | (.ok a, events) =>
    if a.renewal = .notDue then (.ok a, s.report events)
    else (.ok a, s.takeTokenId.report events)

/-- Logs a user in. A token identifier is taken once the user is known. -/
def login (env : Environment) (codec : Codec) (verify : CredentialVerifier)
    (credentials : Credentials) (now : Instant) (s : Service) :
    Except Error IssuedToken × Service :=
  let (answer, events) := (s.gate env codec).login verify credentials (s.nextTokenId env) now
  match verify credentials with
  | .ok (some _) => (answer, s.takeTokenId.report events)
  | _ => (answer, s.report events)

/-- The hooks as shown in diagnostics. -/
def hooksDiagnostic (s : Service) : String :=
  Diagnostic.record "InterceptorChain"
    [("interceptors", Diagnostic.list (s.hooks.map fun h => Diagnostic.quoted h.name))] false

/-- The refresh window as shown in diagnostics, as long as it was never claimed. -/
def windowDiagnostic? (env : Environment) (s : Service) : Option String :=
  match s.coordinator.lastRefreshed with
  | some _ => none
  | none => some <|
    Diagnostic.record "CacheRefreshCoordinator"
      [("refresh_interval", env.config.refreshInterval.fractional),
       ("max_backups", Decimal.digits env.config.maxBackups), ("last_updated", "None".toList)] true

end Service

end Keyring
