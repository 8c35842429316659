import Mathlib.Data.List.Permutation
import Keyring.Service.Operation

/-!
# Worlds

A service together with all that goes on around it: requests of several callers that are in progress
at once, and what is set from outside. A world moves on in single steps, which may come in any
order, and keeps the history of the records that were put into its store.

A step goes from one call to the repository to the next and is whole, as on a single thread: what a
call answers is made use of at once. Threads (`Keyring.Proofs.Threads`) take apart the listing of a
refresh and the keys that it puts into use.

* `World.step` is the world after a move: a request begins or goes on with one call to the
  repository, a token is issued or checked, or something is set from outside.
* `Run` relates the worlds that follow one another by moves of a kind, and `Steps.induct` carries what
  one move preserves over a whole run. `World.after` computes the world at the end of given moves.
* `World.history` holds the records from the newest on, also those that were deleted since.
-/

namespace Keyring

/-- What is set from outside, past the requests to a service. -/
inductive Change where
  | faults (faults : Repository.Faults)
  | failBeforeList (failpoint : Failpoint)
  | failAfterWrite (failpoint : Failpoint)
  | failKeys (on : Bool)
  | register (hook : Hook)
  /-- Puts a record into the store, unless its name is taken. -/
  | insert (record : Record)

/-- The service behind a change. -/
def Change.apply (s : Service) : Change → Service
  | .faults f => { s with repository.faults := f }
  | .failBeforeList f => { s with failBeforeList := f }
  | .failAfterWrite f => { s with failAfterWrite := f }
  | .failKeys on => { s with keysFail := on }
  | .register hook => { s with hooks := s.hooks ++ [hook] }
  | .insert record =>
    match s.repository.store.insert record with
    | .ok store => { s with repository.store := store }
    | .error _ => s

/-- What happens next in a world. -/
inductive Move where
  /-- A request begins, up to the first call that it awaits. -/
  | begin (request : Request) (cancelled : Bool) (now : Moment)
  /-- The call happens that a request awaits, unless its caller has given up. -/
  | resume (number : Nat) (cancelled : Bool) (now : Moment)
  | login (verify : CredentialVerifier) (credentials : Credentials) (now : Instant)
  | authenticate (token : String) (autoRenew : Bool) (now : Instant)
  | check (token : String) (now : Instant)
  | change (change : Change)

/-- A record that was put into the store, and the number of the request that wrote it. -/
structure Written where
  record : Record
  writer : Option Nat
  deriving DecidableEq

structure World where
  service : Service
  /-- The requests in progress. -/
  pending : List (Nat × Operation)
  /-- The answers of the requests that have ended. -/
  answers : List (Nat × Answer)
  /-- How many requests have begun; they are numbered from zero. -/
  begun : Nat
  /-- What was put into the store, from the newest on, whether or not it is still there. -/
  history : List Written

namespace World

/-- The world of a service that nothing has been asked of. -/
def start (service : Service) : World where
  service
  pending := []
  answers := []
  begun := 0
  history := service.repository.store.list.map fun r => ⟨r, none⟩

def store (w : World) : Store := w.service.repository.store

/-- The records of the history. -/
def records (w : World) : List Record := w.history.map (·.record)

/-- Enters the record that was put into the store since, if one was. -/
def enter (before : Store) (writer : Option Nat) (w : World) : World :=
  if before.next < w.store.next then
    { w with history := (w.store.list.take 1).map (⟨·, writer⟩) ++ w.history }
  else w

/-- Takes over what a request has come to. -/
def settle (number : Nat) (w : World) : Progress × Service → World
  | (.ended answer, service) => { w with service, answers := (number, answer) :: w.answers }
  | (.awaiting operation, service) =>
    { w with service, pending := (number, operation) :: w.pending }

/-- The request of a number, if it is in progress. -/
def operation? (w : World) (number : Nat) : Option Operation :=
  (w.pending.find? fun p => p.1 == number).map (·.2)

/-- Takes a request out of those in progress. -/
def remove (w : World) (number : Nat) : World :=
  { w with pending := w.pending.filter fun p => p.1 != number }

def begin (env : Environment) (request : Request) (cancelled : Bool) (now : Moment) (w : World) :
    World :=
  settle w.begun { w with begun := w.begun + 1 } (w.service.begin env now cancelled request)

def resume (env : Environment) (number : Nat) (cancelled : Bool) (now : Moment) (w : World) :
    World :=
  match w.operation? number with
  | none => w
  | some operation =>
    (settle number (w.remove number) (w.service.resume env now cancelled operation)).enter w.store
      (some number)

/-- The world after a move. -/
def step (env : Environment) (w : World) : Move → World
  | .begin request cancelled now => w.begin env request cancelled now
  | .resume number cancelled now => w.resume env number cancelled now
  | .login verify credentials now =>
    { w with service := (w.service.login env (.signed env.scheme) verify credentials now).2 }
  | .authenticate token autoRenew now =>
    { w with service := (w.service.authenticate env (.signed env.scheme) token autoRenew now).2 }
  | .check token now =>
    { w with service := (w.service.check env (.signed env.scheme) token now).2 }
  | .change change => { w with service := change.apply w.service }.enter w.store none

/-- The world after moves, one after the other. -/
def after (env : Environment) (w : World) (moves : List Move) : World := moves.foldl (step env) w

end World

/-! ## Runs -/

/-- The states that come of a state by steps that are allowed where they are made. -/
inductive Steps {σ α : Type} (step : σ → α → σ) (Allowed : σ → α → Prop) : σ → σ → Prop where
  | refl (s : σ) : Steps step Allowed s s
  | next {s t : σ} {a : α} :
    Steps step Allowed s t → Allowed t a → Steps step Allowed s (step t a)

namespace Steps

variable {σ α : Type} {step : σ → α → σ} {Allowed : σ → α → Prop} {s t u : σ}

/-- What holds at first and is preserved by each step holds at last. -/
theorem induct {P : σ → Prop} (run : Steps step Allowed s t) (first : P s)
    (next : ∀ t a, P t → Allowed t a → P (step t a)) : P t := by
  induction run with
  | refl => exact first
  | next _ allowed ih => exact next _ _ ih allowed

theorem trans (first : Steps step Allowed s t) (second : Steps step Allowed t u) :
    Steps step Allowed s u := by
  induction second with
  | refl => exact first
  | next _ allowed ih => exact ih.next allowed

variable (step Allowed) in
/-- Each of the steps is allowed where it is made. -/
def Admits : σ → List α → Prop
  | _, [] => True
  | s, a :: rest => Allowed s a ∧ Admits (step s a) rest

instance decidableAdmits [∀ s a, Decidable (Allowed s a)] :
    ∀ (s : σ) (steps : List α), Decidable (Admits step Allowed s steps)
  | _, [] => .isTrue trivial
  | s, a :: rest =>
    have := decidableAdmits (step s a) rest
    inferInstanceAs (Decidable (Allowed s a ∧ Admits step Allowed (step s a) rest))

/-- Steps that are allowed make a run. -/
theorem of_admits (steps : List α) (h : Admits step Allowed s steps) :
    Steps step Allowed s (steps.foldl step s) := by
  induction steps generalizing s with
  | nil => exact .refl s
  | cons a rest ih =>
    have first : Steps step Allowed s (step s a) := (refl s).next h.1
    exact first.trans (ih h.2)

end Steps

/-- The worlds that come of a world by moves that are allowed where they are made. -/
abbrev Run (env : Environment) (Allowed : World → Move → Prop) : World → World → Prop :=
  Steps (World.step env) Allowed

/-- Moves that are allowed make a run. -/
theorem Run.of_admits {env : Environment} {Allowed : World → Move → Prop} {u : World}
    (moves : List Move) (h : Steps.Admits (World.step env) Allowed u moves) :
    Run env Allowed u (u.after env moves) := Steps.of_admits moves h

/-! ## Plain worlds -/

/-- A scheme without secrets, for examples: a signature is the key itself with the message. -/
def Scheme.plain : Scheme where
  publicKey seed := seed
  sign seed message := seed ++ message
  verify publicKey message signature := signature == publicKey ++ message

theorem Scheme.sound_plain : Scheme.plain.Sound := by
  intro seed message _
  exact beq_self_eq_true _

/-- The default settings with another number of keys. -/
def Config.keeping (bound : Nat) (h : 1 ≤ bound ∧ bound ≤ 32) : Config where
  toSettings := { defaults with maxBackups := bound }
  valid := Settings.check_eq_ok_iff.mpr ⟨h, valid_defaults.interval, valid_defaults.lifetime,
    valid_defaults.renewal, valid_defaults.agent⟩

def Config.keepsThree : Config := .keeping 3 (by decide)

/-- An environment of plain signatures that knows nobody; each key is one octet, repeated. -/
def Environment.plain (config : Config) (names : Nat → String) : Environment where
  scheme := .plain
  config
  identities := fun _ => .error .invalidCredentials
  keys n := List.replicate 32 (UInt8.ofNat n)
  names
  tokenIds n := String.ofList (Decimal.digits n)

/-- The beginning of time. -/
def Moment.epoch : Moment := ⟨0, .ofSecond 0⟩

/-- A request goes on. -/
def Move.goOn (number : Nat) : Move := .resume number false .epoch

end Keyring
