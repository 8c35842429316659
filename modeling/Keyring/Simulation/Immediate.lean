import Keyring.Simulation.State

/-!
# Steps that end at once

Steps that neither call the repository nor wait: the tokens that a service issues and accepts, and
what is set between requests.
-/

namespace Keyring.Simulation

/-! ## Tokens -/

/-- Keeps a token under a name; a later one of the same name takes its place. -/
def save (sim : Simulation) (name : Option String) (token : String) : Simulation :=
  match name with
  | none => sim
  | some name => { sim with tokens := (name, token) :: sim.tokens }

/-- The text of a token that is presented, if it is known. -/
def tokenText? (sim : Simulation) : Presented → Option String
  | .text token => some token
  | .saved name before behind =>
    (sim.tokens.find? fun t => t.1 == name).map fun t => before ++ t.2 ++ behind

def verify (sim : Simulation) : CredentialVerifier :=
  if sim.usersFail then
    fun _ => .error (.keyStorage .list (.connection "user store down" none))
  else sim.users

def activeCodec (sim : Simulation) : Codec := sim.codec.codec sim.env.scheme

def login (sim : Simulation) (credentials : Credentials) (now : Instant) (name : Option String) :
    Result × Simulation :=
  match sim.service.login sim.env sim.activeCodec sim.verify credentials now with
  | (.error e, service) => (.failed e, { sim with service })
  | (.ok issued, service) => (.issued issued, save { sim with service } name issued.token)

def authenticate (sim : Simulation) (token : Presented) (autoRenew : Bool) (now : Instant)
    (name : Option String) : Result × Simulation :=
  match sim.tokenText? token with
  | none => (.unknownToken, sim)
  | some text =>
    match sim.service.authenticate sim.env sim.activeCodec text autoRenew now with
    | (.error e, service) => (.failed e, { sim with service })
    | (.ok a, service) => (.authenticated a text, save { sim with service } name a.token)

def check (sim : Simulation) (token : Presented) (now : Instant) : Result × Simulation :=
  match sim.tokenText? token with
  | none => (.unknownToken, sim)
  | some text =>
    match sim.service.check sim.env sim.activeCodec text now with
    | (.error e, service) => (.failed e, { sim with service })
    | (.ok claims, service) => (.claims claims, { sim with service })

/-! ## Settings -/

def withRepository (sim : Simulation) (f : Repository → Repository) : Simulation :=
  { sim with service.repository := f sim.service.repository }

/-- Sets or clears the failure of all calls of a kind. -/
def setFault (call : StoreCall) (error : Option StoreError) (r : Repository) : Repository :=
  match call with
  | .write => { r with faults.write := error }
  | .list => { r with faults.list := error }
  | .delete => { r with faults.delete := error.map fun e => (none, e) }

def insert (sim : Simulation) (record : Record) : Result × Simulation :=
  match sim.service.repository.store.insert record with
  | .error e => (.inserted (.error e), sim)
  | .ok store => (.inserted (.ok ()), sim.withRepository fun r => { r with store })

def register (sim : Simulation) (hook : Hook) : Result × Simulation :=
  let sim := { sim with service.hooks := sim.service.hooks ++ [hook] }
  (.hooks sim.service.hooks.length sim.service.hooksDiagnostic, sim)

def overview (sim : Simulation) : Overview where
  maxBackups := sim.env.config.maxBackups
  cached := sim.service.snapshot.length
  gate := (sim.service.gate sim.env sim.activeCodec).diagnostic
  rotation := Rotation.diagnostic
  window := sim.service.windowDiagnostic? sim.env

end Keyring.Simulation
