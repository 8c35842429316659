import Keyring.Service.Operation

/-!
# Steps of a simulation

What a simulated service is put through, and what comes of it. Requests may be given up by their
callers, failures and delays of the repository are set between them, and steps may overlap.
-/

namespace Keyring.Simulation

/-- When the caller of a request gives up. -/
inductive Cancel where
  | never
  | before
  /-- So many milliseconds after its start. -/
  | after (ms : Nat)
  deriving DecidableEq, Repr

/-- A token that is presented: a text, or a token that was saved with something put around it. -/
inductive Presented where
  | text (token : String)
  | saved (name before behind : String)
  deriving DecidableEq, Repr

/-- How tokens are encoded and decoded. -/
inductive CodecMode where
  | signed
  | failingEncode
  | failingDecode
  /-- Puts something behind each token that is issued. -/
  | corrupting
  /-- Checks tokens with these keys, whatever keys are in use. -/
  | fixedKeys (keys : List PublicKey)
  deriving DecidableEq, Repr

def CodecMode.codec (scheme : Scheme) : CodecMode → Codec
  | signed => .signed scheme
  | failingEncode =>
    { Codec.signed scheme with
      encode := fun _ _ _ _ _ => .error (.signing (.other "injected encode failure")) }
  | failingDecode =>
    { Codec.signed scheme with
      decode := fun _ _ _ => (.error (.signing (.other "injected decode failure")), []) }
  | corrupting =>
    { Codec.signed scheme with
      encode := fun user lifetime key tokenId now =>
        (Token.encode scheme user lifetime key tokenId now).map (· ++ "AAAA") }
  | fixedKeys keys =>
    { Codec.signed scheme with
      decode := fun token _ now => (Codec.signed scheme).decode token keys now }

inductive Step where
  | request (request : Request) (cancel : Cancel)
  /-- Puts a record into the store, past the repository. -/
  | insert (record : Record)
  | size
  | fail (call : StoreCall) (error : Option StoreError)
  | failDeleteOf (name : String) (error : StoreError)
  | delay (call : StoreCall) (ms : Nat)
  | listOldestFirst (on : Bool)
  | failBeforeList (failpoint : Failpoint)
  | failAfterWrite (failpoint : Failpoint)
  | failKeys (on : Bool)
  | failUsers (on : Bool)
  | codec (mode : CodecMode)
  | register (hook : Hook)
  | snapshot
  | overview
  | login (credentials : Credentials) (now : Instant) (save : Option String)
  | authenticate (token : Presented) (autoRenew : Bool) (now : Instant) (save : Option String)
  | check (token : Presented) (now : Instant)
  /-- Moves the clock on, and lets all others go on first. -/
  | advance (ms : Nat)
  /-- Starts all steps, and waits for all. -/
  | many (steps : List Step)
  /-- Starts a step under a name and does not wait for it. -/
  | spawn (id : String) (step : Step)
  /-- Waits for the step of a name. -/
  | join (id : String)
  /-- Holds the first listing from the start of a step open while others are performed; after each of
  them all tasks settle. -/
  | gated (step : Step) (others : List Step)

mutual

/-- The number of steps in a step, itself included. -/
def Step.count : Step → Nat
  | .many steps => Step.counts steps + 1
  | .spawn _ step => step.count + 1
  | .gated step others => step.count + Step.counts others + 1
  | _ => 1

def Step.counts : List Step → Nat
  | [] => 0
  | step :: steps => step.count + Step.counts steps

end

/-- What is shown of the parts of a service. -/
structure Overview where
  maxBackups : Nat
  cached : Nat
  gate : String
  rotation : String
  window : Option String

/-- What comes of a step. -/
inductive Result where
  | done
  | answer (answer : Answer)
  /-- A rotation that succeeded; `isStored` tells whether its key is in the store, as written. -/
  | rotated (outcome : Rotation.Outcome) (isStored : Bool)
  /-- The names that hooks recorded, as far as no other response took them, and whether there are no
  hooks. -/
  | responded (ran : List String) (noHooks : Bool)
  | inserted (answer : Except StoreError Unit)
  | size (count : Nat)
  | snapshot (keys : Snapshot)
  | hooks (count : Nat) (diagnostic : String)
  | overview (parts : Overview)
  | failed (cause : Error)
  | issued (issued : IssuedToken)
  | authenticated (answer : Authenticated) (presented : String)
  | claims (claims : Claims)
  | unknownToken
  | all (results : List Result)
  | gated (others : List Result) (result : Result)
  /-- The step waits for something that no time brings about. -/
  | stuck

end Keyring.Simulation
