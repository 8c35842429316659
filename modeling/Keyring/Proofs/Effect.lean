import Keyring.Service.Operation

/-!
# What steps do to the store and to the keys in use

A step of a service writes at most one record, deletes at most one, or replaces the keys in use by
those of a listing, and its log says so. All else that it does leaves both alone. The lemmas here
say so once for each step, so that invariants of runs need not look into the steps again.

* `Service.Logs` says which changes a log reports on behind another one.
* `Alike` relates services with the same store and the same keys in use; `alike_begin` says that the
  beginning of a request changes neither.
* `Starts` says what a request may become when it begins (`starts_of_begin`).
* `Resumes` lists what a step of an operation may do (`resumes_resume`).
-/

namespace Keyring

/-- Whether an event reports a change of the store or of the keys in use. -/
def Event.reportsChange : Event → Bool
  | .cacheRefreshed _ _ | .keyRotated _ | .keyPruned _ => true
  | _ => false

/-- The events report no change. -/
def Event.Quiet (events : List Event) : Prop := events.filter reportsChange = []

theorem Event.Quiet.append {first second : List Event} (h : Quiet first) (h' : Quiet second) :
    Quiet (first ++ second) := by
  rw [Quiet, List.filter_append, h, h']
  rfl

/-- The second service has logged these changes since the first one, apart from quiet events. -/
def Service.Logs (s t : Service) (changes : List Event) : Prop :=
  ∃ events, t.log = s.log ++ events ∧ events.filter Event.reportsChange = changes

/-- Services with the same store, listed in the same order, and the same keys in use. The second one
has logged no change since the first one. -/
structure Service.Alike (s t : Service) : Prop where
  store : t.repository.store = s.repository.store
  order : t.repository.oldestFirst = s.repository.oldestFirst
  snapshot : t.snapshot = s.snapshot
  log : s.Logs t []

/-- Whether an answer says that a rotation has succeeded. -/
def Answer.Rotated : Answer → Prop
  | .rotation (.ok _) | .trigger .noContent => True
  | _ => False

/-! ## Calls to the repository -/

theorem Repository.write_eq_error {r r' : Repository} {name : String} {key : Bytes}
    {time : Instant} {e : StoreError} (h : r.write name key time = (.error e, r')) :
    r'.store = r.store ∧ r'.oldestFirst = r.oldestFirst := by
  unfold write at h
  dsimp only at h
  split at h
  · cases h
    exact ⟨rfl, rfl⟩
  · split at h
    · cases h
      exact ⟨rfl, rfl⟩
    · cases h

theorem Repository.write_eq_ok {r r' : Repository} {name : String} {key : Bytes}
    {time : Instant} {record : Record} (h : r.write name key time = (.ok record, r')) :
    record = ⟨name, key, time⟩ ∧ r.store.insert ⟨name, key, time⟩ = .ok r'.store ∧
      r'.oldestFirst = r.oldestFirst := by
  unfold write at h
  dsimp only at h
  split at h
  · cases h
  · split at h
    · cases h
    · rename_i inserted
      cases h
      exact ⟨rfl, inserted, rfl⟩

/-- A write is answered with the failure that is set, a conflict, or the record. -/
theorem Repository.answer_write (r : Repository) (name : String) (key : Bytes) (time : Instant) :
    (r.write name key time).1 =
      match r.faults.write with
      | some e => .error e
      | none => if r.store.contains name then .error (.conflict name) else .ok ⟨name, key, time⟩ := by
  unfold write
  dsimp only
  cases r.faults.write with
  | some e => rfl
  | none =>
    cases inserted : r.store.insert ⟨name, key, time⟩ with
    | error e =>
      obtain ⟨taken, rfl⟩ := Store.insert_eq_error_iff.mp inserted
      exact (if_pos taken).symm
    | ok store =>
      have free : ¬ r.store.contains name = true := by
        intro taken
        rw [Store.insert_eq_error_iff.mpr ⟨taken, rfl⟩] at inserted
        cases inserted
      exact (if_neg free).symm

theorem Repository.delete_eq_error {r r' : Repository} {name : String} {e : StoreError}
    (h : r.delete name = (.error e, r')) :
    r'.store = r.store ∧ r'.oldestFirst = r.oldestFirst := by
  unfold delete at h
  dsimp only at h
  split at h
  · cases h
    exact ⟨rfl, rfl⟩
  · split at h
    · cases h
      exact ⟨rfl, rfl⟩
    · cases h

theorem Repository.delete_eq_ok {r r' : Repository} {name : String}
    (h : r.delete name = (.ok (), r')) :
    r.store.delete name = .ok r'.store ∧ r'.oldestFirst = r.oldestFirst := by
  unfold delete at h
  dsimp only at h
  split at h
  · cases h
  · split at h
    · cases h
    · rename_i deleted
      cases h
      exact ⟨deleted, rfl⟩

/-- A deletion is answered with the failure that is set, or by whether the name is stored. -/
theorem Repository.answer_delete (r : Repository) (name : String) :
    (r.delete name).1 =
      match r.deleteFault? name with
      | some e => .error e
      | none => if r.store.contains name then .ok () else .error (.notFound name) := by
  have same : deleteFault? { r with deletes := r.deletes ++ [name] } name = r.deleteFault? name :=
    rfl
  simp only [delete, same]
  cases r.deleteFault? name with
  | some e => rfl
  | none =>
    cases deleted : r.store.delete name with
    | error e =>
      obtain ⟨absent, rfl⟩ := Store.delete_eq_error_iff.mp deleted
      simp [absent]
    | ok store =>
      have stored : r.store.contains name = true := by
        refine Bool.of_not_eq_false fun absent => ?_
        rw [Store.delete_eq_error_iff.mpr ⟨absent, rfl⟩] at deleted
        cases deleted
      simp [stored]

namespace Service

variable {env : Environment} {now : Moment} {cancelled : Bool} {s t u : Service}

namespace Logs

theorem of_log_eq (h : t.log = s.log) : Logs s t [] := ⟨[], by rw [h, List.append_nil], rfl⟩

theorem report (s : Service) (events : List Event) :
    Logs s (s.report events) (events.filter Event.reportsChange) := ⟨events, rfl, rfl⟩

theorem trans {first second : List Event} (h : Logs s t first) (h' : Logs t u second) :
    Logs s u (first ++ second) := by
  obtain ⟨events, hlog, rfl⟩ := h
  obtain ⟨more, hlog', rfl⟩ := h'
  refine ⟨events ++ more, ?_, List.filter_append ..⟩
  rw [hlog', hlog, List.append_assoc]

end Logs

namespace Alike

theorem of_eq (store : t.repository.store = s.repository.store)
    (order : t.repository.oldestFirst = s.repository.oldestFirst)
    (snapshot : t.snapshot = s.snapshot) (log : t.log = s.log) : Alike s t :=
  ⟨store, order, snapshot, .of_log_eq log⟩

theorem refl (s : Service) : Alike s s := .of_eq rfl rfl rfl rfl

theorem trans (first : Alike s t) (second : Alike t u) : Alike s u :=
  ⟨second.store.trans first.store, second.order.trans first.order,
    second.snapshot.trans first.snapshot, first.log.trans second.log⟩

theorem report {events : List Event} (h : Alike s t) (quiet : Event.Quiet events) :
    Alike s (t.report events) :=
  h.trans ⟨rfl, rfl, rfl, quiet ▸ Logs.report t events⟩

end Alike

/-- What is logged before and behind a change does not matter if it is quiet. -/
theorem Logs.alike {changes : List Event} (h : Logs s t changes) (behind : Alike t u) :
    Logs s u changes := List.append_nil changes ▸ h.trans behind.log

/-! ## Refreshes -/

/-- A listing that failed leaves the keys in use as they are. -/
theorem alike_install_error (e : StoreError) (s : Service) : Alike s (s.install (.error e)).2 :=
  (Alike.refl s).report rfl

theorem alike_startListing (cancelled : Bool) (s : Service) :
    Alike s (s.startListing cancelled).2 := by
  have passed (failpoint : Failpoint) : Alike s { s with failBeforeList := failpoint } :=
    .of_eq rfl rfl rfl rfl
  unfold startListing
  dsimp only
  split
  · exact passed _
  · split
    · exact (passed _).trans (alike_install_error _ _)
    · exact .of_eq rfl rfl rfl rfl

theorem alike_endUpdate (claim : Coordinator.Claim) (answer : Except Error Nat) (s : Service) :
    Alike s (s.endUpdate claim answer).2 := by
  cases answer with
  | ok _ => exact .of_eq rfl rfl rfl rfl
  | error _ =>
    have given : Alike s { s with coordinator := s.coordinator.giveBack claim } :=
      .of_eq rfl rfl rfl rfl
    exact given.report rfl

theorem alike_beginUpdate (env : Environment) (now : Moment) (cancelled : Bool) (s : Service) :
    Alike s (s.beginUpdate env now cancelled).2 := by
  rw [beginUpdate_eq]
  split
  · exact (Alike.refl s).report rfl
  · rename_i claim coordinator _
    have claimed : Alike s { s with coordinator } := .of_eq rfl rfl rfl rfl
    have listing := claimed.trans (alike_startListing cancelled { s with coordinator })
    split
    · rename_i heq
      rw [heq] at listing
      exact listing
    · rename_i answer t heq
      rw [heq] at listing
      exact listing.trans (alike_endUpdate claim answer t)

theorem alike_endForced (now : Moment) (answer : Except Error Nat) (s : Service) :
    Alike s (s.endForced now answer).2 := by
  cases answer with
  | ok _ => exact .of_eq rfl rfl rfl rfl
  | error _ => exact .of_eq rfl rfl rfl rfl

theorem alike_endHook (answer : Except Error Bool) (s : Service) : Alike s (s.endHook answer) := by
  cases answer with
  | ok _ => exact Alike.refl s
  | error _ => exact (Alike.refl s).report rfl

theorem alike_runHooks (env : Environment) (now : Moment) (cancelled : Bool) (hooks : List Hook)
    (s : Service) : Alike s (runHooks env now cancelled hooks s).2 := by
  induction hooks generalizing s with
  | nil => exact Alike.refl s
  | cons hook hooks ih =>
    have logged : Alike s (s.report [.hookRun hook.name]) := (Alike.refl s).report rfl
    cases hook with
    | named name =>
      have recorded : Alike (s.report [.hookRun name])
          { s.report [.hookRun name] with recorded := s.recorded ++ [name] } :=
        .of_eq rfl rfl rfl rfl
      simp only [runHooks]
      exact (logged.trans recorded).trans (ih _)
    | cacheRefresh =>
      have updated := logged.trans (alike_beginUpdate env now cancelled _)
      simp only [runHooks]
      split
      · rename_i heq
        rw [heq] at updated
        exact updated
      · rename_i answer t heq
        rw [heq] at updated
        exact updated.trans ((alike_endHook answer t).trans (ih _))

theorem alike_settleHooks (env : Environment) (now : Moment) (cancelled : Bool)
    (hooks : List Hook) (s : Service) : Alike s (settleHooks env now cancelled hooks s).2 := by
  have ran := alike_runHooks env now cancelled hooks s
  unfold settleHooks
  split
  · rename_i heq
    rw [heq] at ran
    exact ran.trans (.of_eq rfl rfl rfl rfl)
  · rename_i heq
    rw [heq] at ran
    exact ran

theorem alike_settleRefresh (env : Environment) (now : Moment) (cancelled : Bool)
    (purpose : Purpose) (answer : Except Error Nat) (s : Service) :
    Alike s (s.settleRefresh env now cancelled purpose answer).2 := by
  cases purpose with
  | plain => exact Alike.refl s
  | forced => exact alike_endForced now answer s
  | update claim => exact alike_endUpdate claim answer s
  | hook claim rest =>
    exact (alike_endUpdate claim answer s).trans
      ((alike_endHook _ _).trans (alike_settleHooks env now cancelled rest _))

theorem alike_beginRefresh (env : Environment) (now : Moment) (cancelled : Bool)
    (purpose : Purpose) (s : Service) :
    Alike s (s.beginRefresh env now cancelled purpose).2 := by
  have listing := alike_startListing cancelled s
  unfold beginRefresh
  split
  · rename_i heq
    rw [heq] at listing
    exact listing
  · rename_i answer t heq
    rw [heq] at listing
    exact listing.trans (alike_settleRefresh env now cancelled purpose answer t)

/-! ## Rotations -/

theorem alike_endRotation (caller : Caller) (answer : Except Error Rotation.Outcome)
    (s : Service) : Alike s (s.endRotation caller answer).2 := by
  have counted : Alike s { s with coordinator := s.coordinator.rotate } := .of_eq rfl rfl rfl rfl
  cases caller with
  | direct => exact .refl s
  | coordinator =>
    cases answer with
    | ok _ => exact counted
    | error _ => exact .refl s
  | trigger =>
    cases answer with
    | ok _ => exact counted.report rfl
    | error _ => exact (Alike.refl s).report rfl

theorem alike_settleRotation (caller : Caller) (step : Rotation.Progress × Service) :
    Alike step.2 (settleRotation caller step).2 := by
  obtain ⟨progress, s⟩ := step
  cases progress with
  | ended answer => exact alike_endRotation caller answer s
  | awaiting rotation => exact Alike.refl s

theorem alike_drawKey (env : Environment) (s : Service) : Alike s (s.drawKey env).2 := by
  unfold drawKey
  dsimp only
  split
  · exact .of_eq rfl rfl rfl rfl
  · exact .of_eq rfl rfl rfl rfl

theorem alike_beginRotation (plan : Rotation.Plan) (cancelled : Bool) (s : Service) :
    Alike s (s.beginRotation plan cancelled).2 := by
  unfold beginRotation
  repeat' split
  all_goals exact Alike.refl s

theorem alike_beginGenerated (env : Environment) (cancelled : Bool) (s : Service) :
    Alike s (s.beginGenerated env cancelled).2 := by
  have drawn := alike_drawKey env s
  unfold beginGenerated
  split
  · rename_i heq
    rw [heq] at drawn
    exact drawn
  · rename_i key t heq
    rw [heq] at drawn
    have named : Alike t (t.drawName env).2 := .of_eq rfl rfl rfl rfl
    exact drawn.trans (named.trans (alike_beginRotation _ _ _))

theorem quiet_authorize (access : Access) (agent : String) (verify : IdentityVerifier) :
    Event.Quiet (access.authorize agent verify).2 := by
  unfold Access.authorize
  split
  · rfl
  · split
    · rfl
    · split
      · rfl
      · split <;> rfl

theorem alike_beginAuthorized (env : Environment) (cancelled : Bool) (access : Access)
    (s : Service) : Alike s (s.beginAuthorized env cancelled access).2 := by
  have quiet := quiet_authorize access env.config.userAgent env.identities
  unfold beginAuthorized
  split
  · rename_i heq
    rw [heq] at quiet
    exact (Alike.refl s).report (quiet.append rfl)
  · rename_i subject events heq
    rw [heq] at quiet
    have passed : Event.Quiet (events ++ [.callerAuthorized subject]) := quiet.append rfl
    exact ((Alike.refl s).report passed).trans (alike_beginGenerated env cancelled _)

theorem ok_of_nextDeletion {outcome : Rotation.Outcome} {listed : Nat} {names : List String}
    {result : Except Error Rotation.Outcome}
    (h : (s.nextDeletion outcome listed names).1 = .ended result) : result = .ok outcome := by
  induction names generalizing s with
  | nil =>
    cases h
    rfl
  | cons name names ih =>
    rw [nextDeletion] at h
    split at h
    · exact ih h
    · cases h

theorem alike_nextDeletion (outcome : Rotation.Outcome) (listed : Nat) (names : List String)
    (s : Service) : Alike s (s.nextDeletion outcome listed names).2 := by
  induction names generalizing s with
  | nil => exact (Alike.refl s).report rfl
  | cons name names ih =>
    rw [nextDeletion]
    have spared : Alike s (s.report [.newKeySpared name]) := (Alike.refl s).report rfl
    split
    · exact spared.trans (ih _)
    · exact Alike.refl s

theorem alike_listWritten (cancelled : Bool) (plan : Rotation.Plan) (createdAt : Instant)
    (s : Service) :
    Alike (s.report [.keyRotated plan.name]) (s.listWritten cancelled plan createdAt).2 := by
  unfold listWritten
  dsimp only
  repeat' split
  all_goals exact .of_eq rfl rfl rfl rfl

/-! ## Beginnings -/

/-- The beginning of a request changes neither the store nor the keys in use. -/
theorem alike_begin (env : Environment) (now : Moment) (cancelled : Bool) (request : Request)
    (s : Service) : Alike s (s.begin env now cancelled request).2 := by
  cases request with
  | refresh => exact alike_beginRefresh env now cancelled .plain s
  | forceRefresh => exact alike_beginRefresh env now cancelled .forced s
  | update =>
    have updated := alike_beginUpdate env now cancelled s
    simp only [begin]
    split
    · rename_i heq
      rw [heq] at updated
      exact updated
    · rename_i heq
      rw [heq] at updated
      exact updated
  | rotate access =>
    cases access with
    | none => exact (alike_beginGenerated env cancelled s).trans (alike_settleRotation _ _)
    | some access =>
      exact (alike_beginAuthorized env cancelled access s).trans (alike_settleRotation _ _)
  | rotateTo plan => exact (alike_beginRotation plan cancelled s).trans (alike_settleRotation _ _)
  | trigger userAgent authorization =>
    exact (alike_beginAuthorized env cancelled _ s).trans (alike_settleRotation _ _)
  | afterResponse => exact alike_settleHooks env now cancelled s.hooks s
  | write name key => exact Alike.refl s
  | list => exact .of_eq rfl rfl rfl rfl
  | delete name => exact Alike.refl s

/-- What a request may be in progress as when it has begun. -/
inductive Starts (config : Config) : Request → Operation → Prop where
  | refresh (request : Request) (purpose : Purpose) : Starts config request (.refresh purpose)
  | rotateTo (plan : Rotation.Plan) (bound : 1 ≤ plan.bound) :
    Starts config (.rotateTo plan) (.rotation .direct (.writing plan))
  | rotate (access : Option Access) (plan : Rotation.Plan) (bound : plan.bound = config.maxBackups)
    (positive : 1 ≤ plan.bound) :
    Starts config (.rotate access) (.rotation .coordinator (.writing plan))
  | trigger (userAgent authorization : Option String) (plan : Rotation.Plan)
    (bound : plan.bound = config.maxBackups) (positive : 1 ≤ plan.bound) :
    Starts config (.trigger userAgent authorization) (.rotation .trigger (.writing plan))
  | write (name : String) (key : Bytes) : Starts config (.write name key) (.write name key)
  | list : Starts config .list .list
  | delete (name : String) : Starts config (.delete name) (.delete name)

theorem writing_of_beginRotation {plan : Rotation.Plan} {rotation : Rotation}
    (h : (s.beginRotation plan cancelled).1 = .awaiting rotation) :
    rotation = .writing plan ∧ 1 ≤ plan.bound := by
  unfold beginRotation at h
  split at h
  · cases h
  · rename_i hbound
    repeat' split at h
    · cases h
    · cases h
    · cases h
    · cases h
      exact ⟨rfl, (checkRetention_eq_ok_iff.mp hbound).1⟩

theorem writing_of_beginGenerated {rotation : Rotation}
    (h : (s.beginGenerated env cancelled).1 = .awaiting rotation) :
    ∃ plan, rotation = .writing plan ∧ plan.bound = env.config.maxBackups ∧ 1 ≤ plan.bound := by
  unfold beginGenerated at h
  split at h
  · cases h
  · obtain ⟨rfl, positive⟩ := writing_of_beginRotation h
    exact ⟨_, rfl, rfl, positive⟩

theorem writing_of_beginAuthorized {access : Access} {rotation : Rotation}
    (h : (s.beginAuthorized env cancelled access).1 = .awaiting rotation) :
    ∃ plan, rotation = .writing plan ∧ plan.bound = env.config.maxBackups ∧ 1 ≤ plan.bound := by
  unfold beginAuthorized at h
  split at h
  · cases h
  · exact writing_of_beginGenerated h

theorem refresh_of_settleRefresh {purpose : Purpose} {answer : Except Error Nat}
    {operation : Operation}
    (h : (s.settleRefresh env now cancelled purpose answer).1 = .awaiting operation) :
    ∃ purpose, operation = .refresh purpose := by
  cases purpose with
  | plain => cases h
  | forced => cases h
  | update claim => cases h
  | hook claim rest =>
    obtain ⟨claim, rest, rfl, -⟩ := awaiting_of_settleHooks h
    exact ⟨_, rfl⟩

theorem refresh_of_beginRefresh {purpose : Purpose} {operation : Operation}
    (h : (s.beginRefresh env now cancelled purpose).1 = .awaiting operation) :
    ∃ purpose, operation = .refresh purpose := by
  unfold beginRefresh at h
  split at h
  · cases h
    exact ⟨_, rfl⟩
  · exact refresh_of_settleRefresh h

theorem starts_of_begin {request : Request} {operation : Operation}
    (h : (s.begin env now cancelled request).1 = .awaiting operation) :
    Starts env.config request operation := by
  cases request with
  | refresh | forceRefresh =>
    obtain ⟨purpose, rfl⟩ := refresh_of_beginRefresh h
    exact .refresh _ purpose
  | update =>
    simp only [begin] at h
    split at h
    · cases h
    · cases h
      exact .refresh _ _
  | rotate access =>
    cases access with
    | none =>
      obtain ⟨rotation, rfl, hr⟩ := awaiting_of_settleRotation h
      obtain ⟨plan, rfl, bound, positive⟩ := writing_of_beginGenerated hr
      exact .rotate _ plan bound positive
    | some access =>
      obtain ⟨rotation, rfl, hr⟩ := awaiting_of_settleRotation h
      obtain ⟨plan, rfl, bound, positive⟩ := writing_of_beginAuthorized hr
      exact .rotate _ plan bound positive
  | rotateTo plan =>
    obtain ⟨rotation, rfl, hr⟩ := awaiting_of_settleRotation h
    obtain ⟨rfl, positive⟩ := writing_of_beginRotation hr
    exact .rotateTo plan positive
  | trigger userAgent authorization =>
    obtain ⟨rotation, rfl, hr⟩ := awaiting_of_settleRotation h
    obtain ⟨plan, rfl, bound, positive⟩ := writing_of_beginAuthorized hr
    exact .trigger _ _ plan bound positive
  | afterResponse =>
    obtain ⟨claim, rest, rfl, -⟩ := awaiting_of_settleHooks h
    exact .refresh _ _
  | write name key =>
    cases h
    exact .write name key
  | list =>
    cases h
    exact .list
  | delete name =>
    cases h
    exact .delete name

/-! ## Steps of an operation -/

theorem not_rotated_endRotation (caller : Caller) (e : Error) (s : Service) :
    ¬ (s.endRotation caller (.error e)).1.Rotated := by
  cases caller <;> exact id

/-- What a rotation goes on with that wrote the key `own` and has `names` yet to delete: its own one
is passed over. -/
inductive Prunes (caller : Caller) (own : String) (names : List String) : Progress → Prop where
  | done (answer : Answer) (rest : ∀ name ∈ names, name = own) :
    Prunes caller own names (.ended answer)
  | next (outcome : Rotation.Outcome) (listed : Nat) (passed : List String) (stale : String)
    (rest : List String) (named : outcome.name = own) (passed_own : ∀ name ∈ passed, name = own)
    (other : stale ≠ own) (split : names = passed ++ stale :: rest) :
    Prunes caller own names (.awaiting (.rotation caller (.deleting outcome listed stale rest)))

theorem prunes_nextDeletion (caller : Caller) (outcome : Rotation.Outcome) (listed : Nat)
    (names : List String) (s : Service) :
    Prunes caller outcome.name names
      (settleRotation caller (s.nextDeletion outcome listed names)).1 := by
  induction names generalizing s with
  | nil => exact .done _ (by simp)
  | cons name names ih =>
    rw [nextDeletion]
    split
    · rename_i own
      have behind := ih (s.report [.newKeySpared name])
      revert behind
      generalize (settleRotation caller _).1 = progress
      intro behind
      cases behind with
      | done answer rest =>
        exact .done answer (List.forall_mem_cons.mpr ⟨own, rest⟩)
      | next outcome' listed passed stale rest named passed_own other split =>
        refine .next outcome' listed (name :: passed) stale rest named ?_ other ?_
        · exact List.forall_mem_cons.mpr ⟨own, passed_own⟩
        · rw [split]
          rfl
    · rename_i other
      exact .next outcome listed [] name names rfl (by simp) other rfl

/-- What a step of an operation may come to and do; `written` is the record that it puts into the
store, if it does. -/
inductive Resumes (now : Moment) (s t : Service) :
    Operation → Progress → (written : Option Record) → Prop where
  /-- It ends without a change, and no rotation has succeeded. -/
  | ends (operation : Operation) (answer : Answer) (alike : Alike s t)
    (unrotated : ¬ answer.Rotated) : Resumes now s t operation (.ended answer) none
  | refreshFails (purpose : Purpose) (progress : Progress) (alike : Alike s t)
    (behind : ∀ operation, progress = .awaiting operation → ∃ p, operation = .refresh p) :
    Resumes now s t (.refresh purpose) progress none
  | installs (purpose : Purpose) (progress : Progress) (records : List Record)
    (keys : Snapshot.ofRecords records = .ok t.snapshot)
    (store : t.repository.store = s.repository.store)
    (order : t.repository.oldestFirst = s.repository.oldestFirst)
    (behind : ∀ operation, progress = .awaiting operation → ∃ p, operation = .refresh p)
    (log : s.Logs t [.cacheRefreshed t.snapshot.length (t.snapshot.current.map (·.name))]) :
    Resumes now s t (.refresh purpose) progress none
  | rotationWrites (caller : Caller) (plan : Rotation.Plan) (progress : Progress)
    (inserted : s.repository.store.insert ⟨plan.name, plan.key, now.time⟩ = .ok t.repository.store)
    (order : t.repository.oldestFirst = s.repository.oldestFirst)
    (snapshot : t.snapshot = s.snapshot)
    (behind : (∃ answer, progress = .ended answer ∧ ¬ answer.Rotated) ∨
      progress = .awaiting (.rotation caller (.listing plan.name plan.bound now.time)))
    (log : s.Logs t [.keyRotated plan.name]) :
    Resumes now s t (.rotation caller (.writing plan)) progress
      (some ⟨plan.name, plan.key, now.time⟩)
  | rotationLists (caller : Caller) (name : String) (bound : Nat) (createdAt : Instant)
    (progress : Progress) (records : List Record) (alike : Alike s t)
    (listing : s.repository.listing = .ok records)
    (behind : Prunes caller name ((records.drop bound).map (·.name)) progress) :
    Resumes now s t (.rotation caller (.listing name bound createdAt)) progress none
  | rotationDeletes (caller : Caller) (outcome : Rotation.Outcome) (listed : Nat) (stale : String)
    (rest : List String) (progress : Progress)
    (deleted : s.repository.store.delete stale = .ok t.repository.store)
    (order : t.repository.oldestFirst = s.repository.oldestFirst)
    (snapshot : t.snapshot = s.snapshot) (behind : Prunes caller outcome.name rest progress)
    (log : s.Logs t [.keyPruned stale]) :
    Resumes now s t (.rotation caller (.deleting outcome listed stale rest)) progress none
  | writes (name : String) (key : Bytes) (answer : Answer)
    (inserted : s.repository.store.insert ⟨name, key, now.time⟩ = .ok t.repository.store)
    (order : t.repository.oldestFirst = s.repository.oldestFirst)
    (snapshot : t.snapshot = s.snapshot) (unrotated : ¬ answer.Rotated) :
    Resumes now s t (.write name key) (.ended answer) (some ⟨name, key, now.time⟩)
  | deletes (name : String) (answer : Answer)
    (deleted : s.repository.store.delete name = .ok t.repository.store)
    (order : t.repository.oldestFirst = s.repository.oldestFirst)
    (snapshot : t.snapshot = s.snapshot) (unrotated : ¬ answer.Rotated) :
    Resumes now s t (.delete name) (.ended answer) none

theorem quiet_orderEvents (records : List Record) :
    Event.Quiet (Snapshot.orderEvents records) := by
  unfold Snapshot.orderEvents
  split <;> rfl

/-- Either what was listed is not taken into use, or it is as a whole. -/
theorem install_cases (answer : Except StoreError (List Record)) (s : Service) :
    Alike s (s.install answer).2 ∨
      ((s.install answer).2.repository = s.repository ∧
        s.Logs (s.install answer).2
          [.cacheRefreshed (s.install answer).2.snapshot.length
            ((s.install answer).2.snapshot.current.map (·.name))] ∧
        ∃ records, answer = .ok records ∧
          Snapshot.ofRecords records = .ok (s.install answer).2.snapshot) := by
  cases answer with
  | error e => exact Or.inl (alike_install_error e s)
  | ok records =>
    cases hkeys : Snapshot.ofRecords records with
    | error e =>
      refine Or.inl ?_
      simp only [install, Snapshot.ofListing, hkeys]
      exact (Alike.refl s).report ((quiet_orderEvents records).append rfl)
    | ok keys =>
      simp only [install, Snapshot.ofListing, hkeys]
      refine Or.inr ⟨rfl, ⟨_, rfl, ?_⟩, records, rfl, hkeys⟩
      rw [List.filter_append, quiet_orderEvents]
      rfl

/-- A refresh does one of the two things whenever the listing is from. -/
theorem resumes_finishRefresh (env : Environment) (now : Moment) (cancelled : Bool)
    (purpose : Purpose) (answer : Except StoreError (List Record)) (s : Service) :
    Resumes now s (s.finishRefresh env now cancelled purpose answer).2 (.refresh purpose)
      (s.finishRefresh env now cancelled purpose answer).1 none := by
  have settled := alike_settleRefresh env now cancelled purpose (s.install answer).1
    (s.install answer).2
  have behind : ∀ operation,
      (s.finishRefresh env now cancelled purpose answer).1 = .awaiting operation →
        ∃ p, operation = .refresh p := fun _ h => refresh_of_settleRefresh h
  rcases install_cases answer s with alike | ⟨repository, log, records, -, keys⟩
  · exact .refreshFails purpose _ (alike.trans settled) behind
  · rw [← settled.snapshot] at keys log
    refine .installs purpose _ records keys ?_ ?_ behind (log.alike settled)
    · rw [← repository]
      exact settled.store
    · rw [← repository]
      exact settled.order

theorem unrotated_of_listWritten {caller : Caller} {plan : Rotation.Plan} {createdAt : Instant} :
    (∃ answer, (settleRotation caller (s.listWritten cancelled plan createdAt)).1 = .ended answer ∧
        ¬ answer.Rotated) ∨
      (settleRotation caller (s.listWritten cancelled plan createdAt)).1 =
        .awaiting (.rotation caller (.listing plan.name plan.bound createdAt)) := by
  unfold listWritten
  dsimp only
  split
  · exact Or.inl ⟨_, rfl, not_rotated_endRotation caller _ _⟩
  · split
    · exact Or.inl ⟨_, rfl, not_rotated_endRotation caller _ _⟩
    · exact Or.inr rfl

theorem resumes_rotation (env : Environment) (now : Moment) (cancelled : Bool) (caller : Caller)
    (rotation : Rotation) (s : Service) :
    ∃ written, Resumes now s (s.resume env now cancelled (.rotation caller rotation)).2
      (.rotation caller rotation)
      (s.resume env now cancelled (.rotation caller rotation)).1 written := by
  cases rotation with
  | writing plan =>
    simp only [resume, resumeRotation]
    split
    · rename_i e repository h
      obtain ⟨store, order⟩ := Repository.write_eq_error h
      have called : Alike s { s with repository } := .of_eq store order rfl rfl
      exact ⟨_, .ends _ _ (called.trans (alike_settleRotation caller (.ended _, _)))
        (not_rotated_endRotation caller _ _)⟩
    · rename_i record repository h
      obtain ⟨rfl, inserted, order⟩ := Repository.write_eq_ok h
      have alike := (alike_listWritten cancelled plan now.time { s with repository }).trans
        (alike_settleRotation caller _)
      refine ⟨_, .rotationWrites caller plan _ ?_ ?_ alike.snapshot unrotated_of_listWritten ?_⟩
      · rw [inserted]
        exact congrArg _ alike.store.symm
      · exact alike.order.trans order
      · exact (Logs.report { s with repository } [.keyRotated plan.name]).alike alike
  | listing name bound createdAt =>
    simp only [resume, resumeRotation]
    split
    · exact ⟨_, .ends _ _ (alike_endRotation caller _ _) (not_rotated_endRotation caller _ _)⟩
    · rename_i records h
      have listing : s.repository.listing = .ok records := by
        split at h
        · cases h
        · exact h
      have alike := (alike_nextDeletion ⟨name, createdAt, []⟩ records.length
        ((records.drop bound).map (·.name)) s).trans (alike_settleRotation caller _)
      exact ⟨_, .rotationLists caller name bound createdAt _ records alike listing
        (prunes_nextDeletion caller ⟨name, createdAt, []⟩ _ _ s)⟩
  | deleting outcome listed stale rest =>
    simp only [resume, resumeRotation]
    split
    · have failed : Alike s (s.failDeletion stale (.cancelled .delete)).2 :=
        (Alike.refl s).report rfl
      exact ⟨_, .ends _ _ (failed.trans (alike_settleRotation caller _))
        (not_rotated_endRotation caller _ _)⟩
    · split
      · rename_i e repository h
        obtain ⟨store, order⟩ := Repository.delete_eq_error h
        have called : Alike s { s with repository } := .of_eq store order rfl rfl
        have failed : Alike s (failDeletion stale e { s with repository }).2 := called.report rfl
        exact ⟨_, .ends _ _ (failed.trans (alike_settleRotation caller _))
          (not_rotated_endRotation caller _ _)⟩
      · rename_i repository h
        obtain ⟨deleted, order⟩ := Repository.delete_eq_ok h
        have alike := (alike_nextDeletion { outcome with pruned := outcome.pruned ++ [stale] }
          listed rest (report { s with repository } [.keyPruned stale])).trans
            (alike_settleRotation caller _)
        refine ⟨_, .rotationDeletes caller outcome listed stale rest _ ?_ ?_ alike.snapshot
          (prunes_nextDeletion caller { outcome with pruned := outcome.pruned ++ [stale] } _ _ _)
          ?_⟩
        · rw [deleted]
          exact congrArg _ alike.store.symm
        · exact alike.order.trans order
        · exact (Logs.report { s with repository } [.keyPruned stale]).alike alike

/-- A step of an operation does one of the things that `Resumes` lists. -/
theorem resumes_resume (env : Environment) (now : Moment) (cancelled : Bool)
    (operation : Operation) (s : Service) :
    ∃ written, Resumes now s (s.resume env now cancelled operation).2 operation
      (s.resume env now cancelled operation).1 written := by
  cases operation with
  | refresh purpose =>
    exact ⟨_, resumes_finishRefresh env now cancelled purpose (s.takeListing cancelled) s⟩
  | rotation caller rotation => exact resumes_rotation env now cancelled caller rotation s
  | write name key =>
    simp only [resume]
    cases h : s.repository.write name key now.time with
    | mk answer repository =>
      cases answer with
      | error e =>
        obtain ⟨store, order⟩ := Repository.write_eq_error h
        exact ⟨_, .ends _ _ (.of_eq store order rfl rfl) id⟩
      | ok record =>
        obtain ⟨rfl, inserted, order⟩ := Repository.write_eq_ok h
        exact ⟨_, .writes name key _ inserted order rfl id⟩
  | list => exact ⟨_, .ends _ _ (Alike.refl s) id⟩
  | delete name =>
    simp only [resume]
    cases h : s.repository.delete name with
    | mk answer repository =>
      cases answer with
      | error e =>
        obtain ⟨store, order⟩ := Repository.delete_eq_error h
        exact ⟨_, .ends _ _ (.of_eq store order rfl rfl) id⟩
      | ok =>
        obtain ⟨deleted, order⟩ := Repository.delete_eq_ok h
        exact ⟨_, .deletes name _ deleted order rfl id⟩

end Service

/-! ## Tokens -/

/-- Whatever token it checks, the codec logs no change. -/
def Codec.Quiet (codec : Codec) : Prop :=
  ∀ token candidates now, Event.Quiet (codec.decode token candidates now).2

theorem Codec.quiet_signed (scheme : Scheme) : (Codec.signed scheme).Quiet := by
  intro token candidates now
  simp only [Codec.signed]
  split <;> rfl

namespace Gate

variable {g : Gate}

theorem quiet_check (quiet : g.codec.Quiet) (token : String) (now : Instant) :
    Event.Quiet (g.check token now).2 := by
  have decoded := quiet token (g.keys.publicKeys g.scheme) now
  unfold check
  split
  · rfl
  · split <;> rename_i heq <;> rw [heq] at decoded
    · exact decoded
    · exact decoded
    · exact decoded.append rfl

theorem quiet_issue (quiet : g.codec.Quiet) (user tokenId : String) (now : Instant) :
    Event.Quiet (g.issue user tokenId now).2 := by
  unfold issue
  split
  · rfl
  · rename_i token _
    have decoded := quiet token (g.keys.current.toList.map (·.publicKey g.scheme)) now
    split <;> rename_i heq <;> rw [heq] at decoded <;> exact decoded

theorem quiet_authenticate (quiet : g.codec.Quiet) (token : String) (autoRenew : Bool)
    (tokenId : String) (now : Instant) :
    Event.Quiet (g.authenticate token autoRenew tokenId now).2 := by
  have checked := quiet_check quiet token now
  unfold authenticate
  split <;> rename_i heq <;> rw [heq] at checked
  · exact checked
  · rename_i claims _
    split
    · refine checked.append ?_
      have issued := quiet_issue quiet claims.subject tokenId now
      unfold renew
      split <;> rename_i heq <;> rw [heq] at issued <;> exact issued.append rfl
    · exact checked

theorem quiet_login (quiet : g.codec.Quiet) (verify : CredentialVerifier)
    (credentials : Credentials) (tokenId : String) (now : Instant) :
    Event.Quiet (g.login verify credentials tokenId now).2 := by
  unfold login
  split
  · rfl
  · rfl
  · rename_i user _
    have issued := quiet_issue quiet user tokenId now
    split <;> rename_i heq <;> rw [heq] at issued
    · exact issued
    · exact issued.append rfl

end Gate

namespace Service

variable {codec : Codec}

theorem alike_takeTokenId (s : Service) : Alike s s.takeTokenId := .of_eq rfl rfl rfl rfl

theorem alike_login (env : Environment) (quiet : codec.Quiet) (verify : CredentialVerifier)
    (credentials : Credentials) (now : Instant) (s : Service) :
    Alike s (s.login env codec verify credentials now).2 := by
  have logged : Event.Quiet
      ((s.gate env codec).login verify credentials (s.nextTokenId env) now).2 :=
    Gate.quiet_login quiet ..
  unfold login
  dsimp only
  split
  · exact (alike_takeTokenId s).report logged
  · exact (Alike.refl s).report logged

theorem alike_authenticate (env : Environment) (quiet : codec.Quiet) (token : String)
    (autoRenew : Bool) (now : Instant) (s : Service) :
    Alike s (s.authenticate env codec token autoRenew now).2 := by
  have logged : Event.Quiet
      ((s.gate env codec).authenticate token autoRenew (s.nextTokenId env) now).2 :=
    Gate.quiet_authenticate quiet ..
  unfold authenticate
  split <;> rename_i heq <;> rw [heq] at logged
  · exact (Alike.refl s).report logged
  · split
    · exact (Alike.refl s).report logged
    · exact (alike_takeTokenId s).report logged

theorem alike_check (env : Environment) (quiet : codec.Quiet) (token : String) (now : Instant)
    (s : Service) : Alike s (s.check env codec token now).2 :=
  (Alike.refl s).report (Gate.quiet_check (g := s.gate env codec) quiet token now)

end Service

end Keyring
