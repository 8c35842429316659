import Keyring.Service.Refresh
import Keyring.Service.Rotation

/-!
# Operations

The requests to a service that take calls to the repository. A request becomes an operation while it
awaits a call; operations of several callers may be in progress at once, and go on in any order.

* `Request` and `Answer` are what a caller asks and gets.
* `Service.begin` starts a request, `Service.resume` goes on with an operation: each is one step.
* `Operation.rank` falls with each step (`rank_lt_of_resume`), so every operation comes to an end.
-/

namespace Keyring

/-! ## Requests and answers -/

/-- What a caller may ask for. -/
inductive Request where
  | refresh
  | forceRefresh
  | update
  /-- Rotates to a generated key, for an authorized caller or for a trusted one. -/
  | rotate (access : Option Access)
  /-- Rotates to a given key. -/
  | rotateTo (plan : Rotation.Plan)
  /-- Rotates on a request from outside, of which only the status is answered. -/
  | trigger (userAgent authorization : Option String)
  | afterResponse
  | write (name : String) (key : Bytes)
  | list
  | delete (name : String)

/-- The status of a request from outside. -/
inductive Status where
  | noContent
  | internalError
  deriving DecidableEq, Repr

def Status.code : Status → Nat
  | noContent => 204
  | internalError => 500

inductive Answer where
  | refresh (answer : Except Error Nat)
  | update (answer : Except Error Bool)
  | rotation (answer : Except Error Rotation.Outcome)
  | trigger (status : Status)
  /-- The names that hooks recorded and that no other response has taken. -/
  | response (ran : List String)
  | write (answer : Except StoreError Record)
  | list (answer : Except StoreError (List Record))
  | delete (answer : Except StoreError Unit)

/-! ## Operations -/

/-- On whose behalf the keys are refreshed. -/
inductive Purpose where
  | plain
  | forced
  | update (claim : Coordinator.Claim)
  /-- For a hook, with other hooks behind it. -/
  | hook (claim : Coordinator.Claim) (rest : List Hook)
  deriving DecidableEq, Repr

/-- On whose behalf keys are rotated. -/
inductive Caller where
  | direct
  | coordinator
  | trigger
  deriving DecidableEq, Repr

/-- A request in progress, which awaits a call to the repository. -/
inductive Operation where
  | refresh (purpose : Purpose)
  | rotation (caller : Caller) (rotation : Rotation)
  | write (name : String) (key : Bytes)
  | list
  | delete (name : String)
  deriving DecidableEq

namespace Operation

/-- The call that an operation awaits. -/
def awaits : Operation → StoreCall
  | refresh _ | list => .list
  | rotation _ r => r.awaits
  | write _ _ => .write
  | delete _ => .delete

/-- Whether the caller can give up now: a write that is under way is not given up, and a caller of
the repository itself does not. -/
def canCancel : Operation → Bool
  | refresh _ => true
  | rotation _ r => r.awaits != .write
  | write _ _ | list | delete _ => false

/-- Bounds the steps that an operation takes: a listing counts for more than all behind it. -/
def rank : Operation → Nat × Nat
  | rotation _ (.writing _) => (2, 0)
  | rotation _ (.listing _ _ _) => (1, 0)
  | rotation _ (.deleting _ _ _ rest) => (0, rest.length + 1)
  | refresh (.hook _ rest) => (0, rest.length + 1)
  | refresh _ | write _ _ | list | delete _ => (0, 0)

end Operation

/-- Either the end of a request or what is left of it. -/
inductive Progress where
  | ended (answer : Answer)
  | awaiting (operation : Operation)

namespace Service

/-! ## Ends -/

/-- Answers the caller of a rotation that has ended. -/
def endRotation (caller : Caller) (answer : Except Error Rotation.Outcome) (s : Service) :
    Answer × Service :=
  match caller, answer with
  | .direct, _ => (.rotation answer, s)
  | .coordinator, .ok _ => (.rotation answer, { s with coordinator := s.coordinator.rotate })
  | .coordinator, .error _ => (.rotation answer, s)
  | .trigger, .ok outcome =>
    (.trigger .noContent,
      report { s with coordinator := s.coordinator.rotate }
        [.triggerSucceeded outcome.name outcome.pruned.length])
  | .trigger, .error e => (.trigger .internalError, s.report [.triggerFailed e])

/-- Passes on what a step of a rotation came to. -/
def settleRotation (caller : Caller) : Rotation.Progress × Service → Progress × Service
  | (.awaiting rotation, s) => (.awaiting (.rotation caller rotation), s)
  | (.ended answer, s) =>
    let (answer, s) := s.endRotation caller answer
    (.ended answer, s)

/-- Runs the hooks that are left after a response. -/
def settleHooks (env : Environment) (now : Moment) (cancelled : Bool) (hooks : List Hook)
    (s : Service) : Progress × Service :=
  match runHooks env now cancelled hooks s with
  | (none, s) =>
    let (ran, s) := s.takeRecorded
    (.ended (.response ran), s)
  | (some (claim, rest), s) => (.awaiting (.refresh (.hook claim rest)), s)

/-- Ends a refresh with the answer to its listing, and goes on with what is behind it. -/
def settleRefresh (env : Environment) (now : Moment) (cancelled : Bool) (purpose : Purpose)
    (answer : Except Error Nat) (s : Service) : Progress × Service :=
  match purpose with
  | .plain => (.ended (.refresh answer), s)
  | .forced =>
    let (answer, s) := s.endForced now answer
    (.ended (.refresh answer), s)
  | .update claim =>
    let (answer, s) := s.endUpdate claim answer
    (.ended (.update answer), s)
  | .hook claim rest =>
    let (answer, s) := s.endUpdate claim answer
    settleHooks env now cancelled rest (s.endHook answer)

/-- Goes on with a refresh whose listing was answered. -/
def finishRefresh (env : Environment) (now : Moment) (cancelled : Bool) (purpose : Purpose)
    (answer : Except StoreError (List Record)) (s : Service) : Progress × Service :=
  let (count, s) := s.install answer
  s.settleRefresh env now cancelled purpose count

/-! ## Beginnings -/

/-- Begins a refresh outside the refresh window. -/
def beginRefresh (env : Environment) (now : Moment) (cancelled : Bool) (purpose : Purpose)
    (s : Service) : Progress × Service :=
  match s.startListing cancelled with
  | (none, s) => (.awaiting (.refresh purpose), s)
  | (some answer, s) => s.settleRefresh env now cancelled purpose answer

/-- Begins a rotation to a key and a name that are generated for it. -/
def beginGenerated (env : Environment) (cancelled : Bool) (s : Service) :
    Rotation.Progress × Service :=
  match s.drawKey env with
  | (.error e, s) => (.ended (.error e), s)
  | (.ok key, s) =>
    let (name, s) := s.drawName env
    s.beginRotation ⟨name, key, env.config.maxBackups⟩ cancelled

/-- Begins a rotation on behalf of a caller who has to be authorized first. -/
def beginAuthorized (env : Environment) (cancelled : Bool) (access : Access) (s : Service) :
    Rotation.Progress × Service :=
  match access.authorize env.config.userAgent env.identities with
  | (.error e, events) => (.ended (.error e), s.report (events ++ [.rotationDenied e]))
  | (.ok subject, events) =>
    (s.report (events ++ [.callerAuthorized subject])).beginGenerated env cancelled

/-- The access that a request from outside claims; headers that are missing count as empty. -/
def requestAccess (env : Environment) (userAgent authorization : Option String) : Access :=
  ⟨userAgent.getD "", authorization.getD "", env.config.allowedPrincipals⟩

/-- Starts a request, up to the first call to the repository that it awaits. -/
def begin (env : Environment) (now : Moment) (cancelled : Bool) (request : Request)
    (s : Service) : Progress × Service :=
  match request with
  | .refresh => s.beginRefresh env now cancelled .plain
  | .forceRefresh => s.beginRefresh env now cancelled .forced
  | .update =>
    match s.beginUpdate env now cancelled with
    | (.inl answer, s) => (.ended (.update answer), s)
    | (.inr claim, s) => (.awaiting (.refresh (.update claim)), s)
  | .rotate none => settleRotation .coordinator (s.beginGenerated env cancelled)
  | .rotate (some access) => settleRotation .coordinator (s.beginAuthorized env cancelled access)
  | .rotateTo plan => settleRotation .direct (s.beginRotation plan cancelled)
  | .trigger userAgent authorization =>
    settleRotation .trigger
      (s.beginAuthorized env cancelled (requestAccess env userAgent authorization))
  | .afterResponse => s.settleHooks env now cancelled s.hooks
  | .write name key => (.awaiting (.write name key), s)
  | .list => (.awaiting .list, { s with repository := s.repository.countList })
  | .delete name => (.awaiting (.delete name), s)

/-- Goes on with an operation: the call that it awaits happens, unless its caller has given up. -/
def resume (env : Environment) (now : Moment) (cancelled : Bool) (operation : Operation)
    (s : Service) : Progress × Service :=
  match operation with
  | .refresh purpose =>
    s.finishRefresh env now cancelled purpose (s.takeListing cancelled)
  | .rotation caller rotation => settleRotation caller (s.resumeRotation now cancelled rotation)
  | .write name key =>
    let (answer, repository) := s.repository.write name key now.time
    (.ended (.write answer), { s with repository })
  | .list => (.ended (.list s.repository.listing), s)
  | .delete name =>
    let (answer, repository) := s.repository.delete name
    (.ended (.delete answer), { s with repository })

/-! ## Every operation ends -/

theorem rest_lt_of_nextDeletion {outcome : Rotation.Outcome} {listed : Nat} {names : List String}
    {s : Service} {rotation : Rotation}
    (h : (s.nextDeletion outcome listed names).1 = .awaiting rotation) :
    ∃ stale rest, rotation = .deleting outcome listed stale rest ∧ rest.length < names.length := by
  induction names generalizing s with
  | nil => simp [nextDeletion] at h
  | cons name names ih =>
    rw [nextDeletion] at h
    split at h
    · obtain ⟨stale, rest, hr, hlt⟩ := ih h
      exact ⟨stale, rest, hr, Nat.lt_succ_of_lt hlt⟩
    · cases h
      exact ⟨name, names, rfl, Nat.lt_succ_self _⟩

theorem rest_lt_of_runHooks {env : Environment} {now : Moment} {cancelled : Bool}
    {hooks rest : List Hook} {s : Service} {claim : Coordinator.Claim}
    (h : (runHooks env now cancelled hooks s).1 = some (claim, rest)) :
    rest.length < hooks.length := by
  induction hooks generalizing s with
  | nil => simp [runHooks] at h
  | cons hook hooks ih =>
    cases hook with
    | named name => exact Nat.lt_succ_of_lt (ih h)
    | cacheRefresh =>
      simp only [runHooks] at h
      split at h
      · cases h
        exact Nat.lt_succ_self _
      · exact Nat.lt_succ_of_lt (ih h)

theorem awaiting_of_settleHooks {env : Environment} {now : Moment} {cancelled : Bool}
    {hooks : List Hook} {s : Service} {operation : Operation}
    (h : (settleHooks env now cancelled hooks s).1 = .awaiting operation) :
    ∃ claim rest, operation = .refresh (.hook claim rest) ∧ rest.length < hooks.length := by
  unfold settleHooks at h
  split at h
  · cases h
  · rename_i claim rest s' hrun
    cases h
    exact ⟨claim, rest, rfl, rest_lt_of_runHooks (congrArg Prod.fst hrun)⟩

theorem awaiting_of_settleRotation {caller : Caller} {step : Rotation.Progress × Service}
    {operation : Operation} (h : (settleRotation caller step).1 = .awaiting operation) :
    ∃ rotation, operation = .rotation caller rotation ∧ step.1 = .awaiting rotation := by
  obtain ⟨progress, s⟩ := step
  cases progress with
  | ended answer => cases h
  | awaiting rotation =>
    cases h
    exact ⟨rotation, rfl, rfl⟩

/-- A step of an operation that does not end leaves one of lower rank. -/
theorem rank_lt_of_resume {env : Environment} {now : Moment} {cancelled : Bool}
    {operation next : Operation} {s : Service}
    (h : (s.resume env now cancelled operation).1 = .awaiting next) :
    Prod.Lex (· < ·) (· < ·) next.rank operation.rank := by
  cases operation with
  | refresh purpose =>
    cases purpose with
    | plain | forced | update => simp [resume, finishRefresh, settleRefresh] at h
    | hook claim hooks =>
      obtain ⟨claim', rest, rfl, hlt⟩ := awaiting_of_settleHooks h
      exact .right _ (Nat.succ_lt_succ hlt)
  | rotation caller rotation =>
    obtain ⟨r, rfl, hr⟩ := awaiting_of_settleRotation h
    cases rotation with
    | writing plan =>
      rw [resumeRotation] at hr
      split at hr
      · cases hr
      · unfold listWritten at hr
        dsimp only at hr
        split at hr
        · cases hr
        · split at hr
          · cases hr
          · cases hr
            exact .left _ _ (by decide)
    | listing name bound createdAt =>
      rw [resumeRotation] at hr
      split at hr
      · cases hr
      · obtain ⟨stale, rest, rfl, _⟩ := rest_lt_of_nextDeletion hr
        exact .left _ _ (by decide)
    | deleting outcome listed stale rest =>
      rw [resumeRotation] at hr
      split at hr
      · cases hr
      · split at hr
        · cases hr
        · obtain ⟨stale', rest', rfl, hlt⟩ := rest_lt_of_nextDeletion hr
          exact .right _ (Nat.succ_lt_succ hlt)
  | write name key => simp [resume] at h
  | list => simp [resume] at h
  | delete name => simp [resume] at h

end Service

end Keyring
