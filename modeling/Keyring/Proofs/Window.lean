import Keyring.Proofs.Ledger

/-!
# Steps of the refresh window

Each move of a world is a sequence of steps of its ledger, as long as the clock does not go back.

* `Coordinator.Takes` says what becomes of the window while requests start: it stays, or it was
  stale and a claim takes its place, which is in flight from then on.
* `Service.takes_begin`, `Service.takes_resume_refresh` and `Service.takes_resume_other` are about
  the steps of a service, `Chronicle.steps_of_timely` is about the moves of a world.
* `Chronicle.balanced_of_run` says that the ledger is in balance in every run.
-/

namespace Keyring

namespace Coordinator

variable {interval now : Nat} {window window' : Option Nat} {claim? : Option Claim}

theorem isFresh_eq_false_iff {interval : Duration} (positive : 0 < interval.inNanos)
    {c : Coordinator} :
    c.isFresh interval now = false ↔ Stale interval.inNanos now c.lastRefreshed := by
  unfold isFresh Stale
  cases c.lastRefreshed with
  | none => simp
  | some last =>
    simp only [decide_eq_false_iff_not, Option.some.injEq, forall_eq']
    omega

/-- The window while requests start, and the claim that is in flight from then on. -/
inductive Takes (interval now : Nat) (window : Option Nat) : Option Claim → Option Nat → Prop where
  | keeps : Takes interval now window none window
  | takes (stale : Stale interval now window) :
    Takes interval now window (some ⟨now, window⟩) (some now)

theorem Takes.of_eq (unclaimed : claim? = none) (same : window' = window) :
    Takes interval now window claim? window' := by
  subst unclaimed same
  exact .keeps

end Coordinator

open Coordinator (Stale Reaches Takes)

def Progress.claim? : Progress → Option Coordinator.Claim
  | .awaiting operation => operation.claim?
  | .ended _ => none

namespace Service

variable {env : Environment} {now : Moment} {cancelled : Bool} {s t : Service}

abbrev window (s : Service) : Option Nat := s.coordinator.lastRefreshed

/-! ## Refreshes -/

theorem coordinator_startListing (cancelled : Bool) (s : Service) :
    (s.startListing cancelled).2.coordinator = s.coordinator := by
  unfold startListing
  dsimp only
  repeat' split
  all_goals rfl

theorem answer_startListing {answer : Except Error Nat}
    (h : (s.startListing cancelled).1 = some answer) : ∃ e, answer = .error e := by
  unfold startListing at h
  dsimp only at h
  repeat' split at h
  all_goals cases h
  all_goals exact ⟨_, rfl⟩

theorem coordinator_install (answer : Except StoreError (List Record)) (s : Service) :
    (s.install answer).2.coordinator = s.coordinator := by
  unfold install
  split <;> rfl

theorem window_endHook (answer : Except Error Bool) (s : Service) :
    (s.endHook answer).window = s.window := by
  cases answer <;> rfl

/-- An update either takes the window and awaits a listing, or leaves it as it was: a claim whose
refresh fails at once is given back before anyone else can see it. -/
theorem takes_beginUpdate (env : Environment) (now : Moment) (cancelled : Bool) (s : Service) :
    Takes env.config.refreshInterval.inNanos now.elapsed s.window
      (s.beginUpdate env now cancelled).1.getRight? (s.beginUpdate env now cancelled).2.window := by
  rw [beginUpdate_eq]
  split
  · exact .keeps
  · rename_i claim coordinator claimed
    unfold Coordinator.claim? at claimed
    split at claimed
    · cases claimed
    · rename_i fresh
      cases claimed
      have stale := (Coordinator.isFresh_eq_false_iff env.config.rules.interval).mp
        (Bool.not_eq_true _ ▸ fresh)
      have same := coordinator_startListing cancelled
        { s with coordinator := { s.coordinator with lastRefreshed := some now.elapsed } }
      split
      · rename_i listing
        rw [listing] at same
        have window : window _ = some now.elapsed := congrArg Coordinator.lastRefreshed same
        rw [window]
        exact .takes stale
      · rename_i answer t listing
        obtain ⟨e, rfl⟩ := answer_startListing (congrArg Prod.fst listing)
        rw [listing] at same
        refine .of_eq rfl ?_
        simp only [endUpdate, Coordinator.giveBack, Coordinator.fail, report]
        rw [same]
        simp

theorem takes_runHooks (env : Environment) (now : Moment) (cancelled : Bool) (hooks : List Hook)
    (s : Service) :
    Takes env.config.refreshInterval.inNanos now.elapsed s.window
      ((runHooks env now cancelled hooks s).1.map Prod.fst)
      (runHooks env now cancelled hooks s).2.window := by
  induction hooks generalizing s with
  | nil => exact .keeps
  | cons hook hooks ih =>
    cases hook with
    | named name =>
      have behind := ih { s.report [.hookRun name] with recorded := s.recorded ++ [name] }
      exact behind
    | cacheRefresh =>
      have updated := takes_beginUpdate env now cancelled
        (s.report [.hookRun Hook.cacheRefresh.name])
      simp only [runHooks]
      split
      · rename_i claim t began
        rw [began] at updated
        exact updated
      · rename_i answer t began
        rw [began] at updated
        generalize updatedWindow : t.window = window at updated
        cases updated with
        | keeps =>
          have behind := ih (t.endHook answer)
          rw [window_endHook, updatedWindow] at behind
          exact behind

theorem takes_settleHooks (env : Environment) (now : Moment) (cancelled : Bool) (hooks : List Hook)
    (s : Service) :
    Takes env.config.refreshInterval.inNanos now.elapsed s.window
      (settleHooks env now cancelled hooks s).1.claim?
      (settleHooks env now cancelled hooks s).2.window := by
  have ran := takes_runHooks env now cancelled hooks s
  unfold settleHooks
  split
  · rename_i heq
    rw [heq] at ran
    exact ran
  · rename_i heq
    rw [heq] at ran
    exact ran

theorem takes_settleRefresh (env : Environment) (now : Moment) (cancelled : Bool)
    (purpose : Purpose) (answer : Except Error Nat) (s : Service) :
    Takes env.config.refreshInterval.inNanos now.elapsed
      ((purpose.outcome answer.isOk).settle now.elapsed s.window)
      (s.settleRefresh env now cancelled purpose answer).1.claim?
      (s.settleRefresh env now cancelled purpose answer).2.window := by
  cases purpose with
  | plain => exact .keeps
  | forced | update => cases answer <;> exact .keeps
  | hook claim rest =>
    have behind := takes_settleHooks env now cancelled rest
      ((s.endUpdate claim answer).2.endHook (s.endUpdate claim answer).1)
    rw [window_endHook] at behind
    cases answer <;> exact behind

/-- A refresh outside the window leaves it alone when it begins. -/
theorem takes_beginRefresh (env : Environment) (now : Moment) (cancelled : Bool) {purpose : Purpose}
    (unclaimed : purpose.claim? = none) (s : Service) :
    Takes env.config.refreshInterval.inNanos now.elapsed s.window
      (s.beginRefresh env now cancelled purpose).1.claim?
      (s.beginRefresh env now cancelled purpose).2.window := by
  have same := coordinator_startListing cancelled s
  unfold beginRefresh
  split
  · rename_i t listing
    rw [listing] at same
    exact .of_eq unclaimed (congrArg Coordinator.lastRefreshed same)
  · rename_i answer t listing
    obtain ⟨e, rfl⟩ := answer_startListing (congrArg Prod.fst listing)
    rw [listing] at same
    have settled := takes_settleRefresh env now cancelled purpose (.error e) t
    have window : t.window = s.window := congrArg Coordinator.lastRefreshed same
    rw [window] at settled
    cases purpose with
    | plain | forced => exact settled
    | update | hook => cases unclaimed

/-! ## Rotations -/

theorem window_endRotation (caller : Caller) (answer : Except Error Rotation.Outcome)
    (s : Service) : (s.endRotation caller answer).2.window = s.window := by
  cases caller <;> cases answer <;> rfl

/-- What settles a rotation leaves the window as its last step found it. -/
theorem window_settleRotation (caller : Caller) {step : Rotation.Progress × Service}
    (same : step.2.coordinator = s.coordinator) :
    (settleRotation caller step).1.claim? = none ∧
      (settleRotation caller step).2.window = s.window := by
  obtain ⟨progress, t⟩ := step
  have window : t.window = s.window := congrArg Coordinator.lastRefreshed same
  cases progress with
  | ended answer => exact ⟨rfl, (window_endRotation caller answer t).trans window⟩
  | awaiting rotation => exact ⟨rfl, window⟩

theorem coordinator_beginRotation (plan : Rotation.Plan) (cancelled : Bool) (s : Service) :
    (s.beginRotation plan cancelled).2.coordinator = s.coordinator := by
  unfold beginRotation
  repeat' split
  all_goals rfl

theorem coordinator_beginGenerated (env : Environment) (cancelled : Bool) (s : Service) :
    (s.beginGenerated env cancelled).2.coordinator = s.coordinator := by
  have drawn : (s.drawKey env).2.coordinator = s.coordinator := by
    unfold drawKey
    dsimp only
    split <;> rfl
  unfold beginGenerated
  split
  · rename_i heq
    rw [heq] at drawn
    exact drawn
  · rename_i key t heq
    rw [heq] at drawn
    exact (coordinator_beginRotation _ _ _).trans drawn

theorem coordinator_beginAuthorized (env : Environment) (cancelled : Bool) (access : Access)
    (s : Service) : (s.beginAuthorized env cancelled access).2.coordinator = s.coordinator := by
  unfold beginAuthorized
  split
  · rfl
  · exact coordinator_beginGenerated env cancelled _

theorem coordinator_nextDeletion (outcome : Rotation.Outcome) (listed : Nat) (names : List String)
    (s : Service) : (s.nextDeletion outcome listed names).2.coordinator = s.coordinator := by
  induction names generalizing s with
  | nil => rfl
  | cons name names ih =>
    rw [nextDeletion]
    split
    · exact ih _
    · rfl

theorem coordinator_listWritten (cancelled : Bool) (plan : Rotation.Plan) (createdAt : Instant)
    (s : Service) : (s.listWritten cancelled plan createdAt).2.coordinator = s.coordinator := by
  unfold listWritten
  dsimp only
  repeat' split
  all_goals rfl

theorem coordinator_resumeRotation (now : Moment) (cancelled : Bool) (rotation : Rotation)
    (s : Service) : (s.resumeRotation now cancelled rotation).2.coordinator = s.coordinator := by
  cases rotation with
  | writing plan =>
    rw [resumeRotation]
    split
    · rfl
    · exact coordinator_listWritten _ _ _ _
  | listing name bound createdAt =>
    rw [resumeRotation]
    split
    · rfl
    · exact coordinator_nextDeletion _ _ _ _
  | deleting outcome listed stale rest =>
    rw [resumeRotation]
    split
    · rfl
    · split
      · rfl
      · exact coordinator_nextDeletion _ _ _ _

/-! ## Steps -/

theorem takes_begin (env : Environment) (now : Moment) (cancelled : Bool) (request : Request)
    (s : Service) :
    Takes env.config.refreshInterval.inNanos now.elapsed s.window
      (s.begin env now cancelled request).1.claim?
      (s.begin env now cancelled request).2.window := by
  cases request with
  | refresh | forceRefresh => exact takes_beginRefresh env now cancelled rfl s
  | update =>
    have updated := takes_beginUpdate env now cancelled s
    simp only [begin]
    split
    · rename_i heq
      rw [heq] at updated
      exact updated
    · rename_i heq
      rw [heq] at updated
      exact updated
  | rotate access =>
    cases access with
    | none =>
      obtain ⟨unclaimed, same⟩ :=
        window_settleRotation .coordinator (coordinator_beginGenerated env cancelled s)
      exact .of_eq unclaimed same
    | some access =>
      obtain ⟨unclaimed, same⟩ :=
        window_settleRotation .coordinator (coordinator_beginAuthorized env cancelled access s)
      exact .of_eq unclaimed same
  | rotateTo plan =>
    obtain ⟨unclaimed, same⟩ :=
      window_settleRotation .direct (coordinator_beginRotation plan cancelled s)
    exact .of_eq unclaimed same
  | trigger userAgent authorization =>
    obtain ⟨unclaimed, same⟩ :=
      window_settleRotation .trigger (coordinator_beginAuthorized env cancelled _ s)
    exact .of_eq unclaimed same
  | afterResponse => exact takes_settleHooks env now cancelled s.hooks s
  | write | list | delete => exact .keeps

theorem takes_resume_refresh (env : Environment) (now : Moment) (cancelled : Bool)
    (purpose : Purpose) (s : Service) :
    Takes env.config.refreshInterval.inNanos now.elapsed
      ((purpose.outcome (s.taken? cancelled).isSome).settle now.elapsed s.window)
      (s.resume env now cancelled (.refresh purpose)).1.claim?
      (s.resume env now cancelled (.refresh purpose)).2.window := by
  have settled := takes_settleRefresh env now cancelled purpose
    (s.install (s.takeListing cancelled)).1 (s.install (s.takeListing cancelled)).2
  have same : (s.install (s.takeListing cancelled)).2.window = s.window :=
    congrArg Coordinator.lastRefreshed (coordinator_install _ s)
  have succeeded :
      (s.install (s.takeListing cancelled)).1.isOk = (s.taken? cancelled).isSome := by
    rw [taken?]
    rcases s.install_eq_ok_or_error (s.takeListing cancelled) with
      ⟨taken, ⟨e, answer⟩, -⟩ | ⟨records, -, taken, answer, -⟩
    · rw [taken, answer]
      rfl
    · rw [taken, answer]
      rfl
  rw [same, succeeded] at settled
  exact settled

/-- Only refreshes have to do with the window. -/
theorem takes_resume_other (env : Environment) (now : Moment) (cancelled : Bool)
    {operation : Operation} (other : ∀ purpose, operation ≠ .refresh purpose) (s : Service) :
    (s.resume env now cancelled operation).1.claim? = none ∧
      (s.resume env now cancelled operation).2.window = s.window := by
  cases operation with
  | refresh purpose => exact absurd rfl (other purpose)
  | rotation caller rotation =>
    exact window_settleRotation caller (coordinator_resumeRotation now cancelled rotation s)
  | write | list | delete => exact ⟨rfl, rfl⟩

end Service

theorem Operation.claim?_eq_none {operation : Operation}
    (other : ∀ purpose, operation ≠ .refresh purpose) : operation.claim? = none := by
  cases operation with
  | refresh purpose => exact absurd rfl (other purpose)
  | _ => rfl

namespace World

variable {env : Environment} {w : World} {number : Nat} {claim : Coordinator.Claim}

def window (w : World) : Option Nat := w.service.window

/-- The claims whose refreshes are in progress, with the numbers of their requests. -/
def claims (w : World) : List (Nat × Coordinator.Claim) :=
  w.pending.filterMap fun p => p.2.claim?.map (p.1, ·)

theorem mem_claims :
    (number, claim) ∈ w.claims ↔
      ∃ operation, (number, operation) ∈ w.pending ∧ operation.claim? = some claim := by
  unfold claims
  rw [List.mem_filterMap]
  constructor
  · rintro ⟨⟨n, operation⟩, mem, same⟩
    obtain ⟨c, claimed, pair⟩ := Option.map_eq_some_iff.mp same
    cases pair
    exact ⟨operation, mem, claimed⟩
  · rintro ⟨operation, mem, claimed⟩
    exact ⟨(number, operation), mem, by simp [claimed]⟩

theorem claims_remove (w : World) (number : Nat) :
    (w.remove number).claims = w.claims.filter fun p => p.1 != number := by
  unfold claims remove
  dsimp only
  induction w.pending with
  | nil => rfl
  | cons p rest ih =>
    by_cases same : p.1 != number <;> cases claimed : p.2.claim? <;> simp [same, claimed, ih]

theorem rivals_eq (w : World) (number : Nat) :
    ((w.remove number).pending.filterMap fun p => p.2.claim?) =
      (w.claims.filter fun p => p.1 != number).map (·.2) := by
  rw [← claims_remove, claims, List.map_filterMap]
  simp [Function.comp_def]

theorem claims_settle (number : Nat) (w : World) (step : Progress × Service) :
    (w.settle number step).claims = step.1.claim?.toList.map (number, ·) ++ w.claims := by
  obtain ⟨progress, service⟩ := step
  cases progress with
  | ended answer => rfl
  | awaiting operation =>
    cases claimed : operation.claim? <;> simp [claims, settle, Progress.claim?, claimed]

@[simp] theorem claims_enter (before : Store) (writer : Option Nat) (w : World) :
    (w.enter before writer).claims = w.claims := by
  unfold enter
  split <;> rfl

section Steps

variable {request : Request} {operation : Operation} {cancelled : Bool} {now : Moment}

theorem window_begin : (w.step env (.begin request cancelled now)).window =
    (w.service.begin env now cancelled request).2.window := by
  simp [step, begin, window]

theorem claims_begin : (w.step env (.begin request cancelled now)).claims =
    (w.service.begin env now cancelled request).1.claim?.toList.map (w.begun, ·) ++ w.claims :=
  claims_settle _ _ _

theorem window_resume (h : w.operation? number = some operation) :
    (w.step env (.resume number cancelled now)).window =
      (w.service.resume env now cancelled operation).2.window := by
  rw [window, service_step_resume h]

theorem claims_resume (h : w.operation? number = some operation) :
    (w.step env (.resume number cancelled now)).claims =
      (w.service.resume env now cancelled operation).1.claim?.toList.map (number, ·) ++
        w.claims.filter fun p => p.1 != number := by
  simp [step, resume, h, claims_settle, claims_remove]

/-- A move that does not read the clock leaves window and claims alone. -/
theorem window_step_of_unread (env : Environment) (w : World) {move : Move}
    (unread : move.elapsed? = none) :
    (w.step env move).window = w.window ∧ (w.step env move).claims = w.claims := by
  cases move with
  | begin | resume => cases unread
  | login verify credentials now =>
    refine ⟨?_, rfl⟩
    simp only [step, window, Service.login]
    split <;> rfl
  | authenticate token autoRenew now =>
    refine ⟨?_, rfl⟩
    simp only [step, window, Service.authenticate]
    repeat' split
    all_goals rfl
  | check token now => exact ⟨rfl, rfl⟩
  | change change =>
    refine ⟨?_, claims_enter _ _ _⟩
    rw [step, window, service_enter]
    cases change with
    | insert record =>
      simp only [Change.apply]
      split <;> rfl
    | _ => rfl

end Steps

/-! ## Numbers of requests in progress -/

/-- No two requests in progress have the same number. -/
def Distinct (w : World) : Prop := ∀ p ∈ w.pending, ∀ q ∈ w.pending, p.1 = q.1 → p = q

theorem distinct_step (h : w.Distinct) (ordered : w.Ordered) (move : Move) :
    (w.step env move).Distinct := by
  have moves := moves_step env w move
  generalize w.step env move = w' at moves
  cases moves with
  | passes | refuses | inserts => exact h
  | begins =>
    intro p hp q hq same
    rcases List.mem_cons.mp hp with rfl | hp <;> rcases List.mem_cons.mp hq with rfl | hq
    · rfl
    · exact absurd same (Nat.ne_of_lt (ordered.pending_lt q hq)).symm
    · exact absurd same (Nat.ne_of_lt (ordered.pending_lt p hp))
    · exact h p hp q hq same
  | resumes =>
    intro p hp q hq same
    rcases mem_pending_settled hp with ⟨hp, other⟩ | ⟨next, awaiting, rfl⟩ <;>
      rcases mem_pending_settled hq with ⟨hq, other'⟩ | ⟨next', awaiting', rfl⟩
    · exact h p hp q hq same
    · exact absurd same other
    · exact absurd same.symm other'
    · rw [awaiting] at awaiting'
      cases awaiting'
      rfl

theorem distinct_of_run {Allowed : World → Move → Prop} {service : Service}
    (run : Run env Allowed (start service) w) : w.Distinct := by
  have both : w.Ordered ∧ w.Distinct := by
    refine run.induct (P := fun w => w.Ordered ∧ w.Distinct) ?_ ?_
    · exact ⟨ordered_start service, by simp [Distinct, start]⟩
    · rintro w move ⟨ordered, distinct⟩ _
      exact ⟨ordered_step ordered move, distinct_step distinct ordered move⟩
  exact both.2

theorem mem_claims_of_operation? (distinct : w.Distinct) {operation : Operation}
    (h : w.operation? number = some operation) :
    (number, claim) ∈ w.claims ↔ operation.claim? = some claim := by
  have mem := mem_pending_of_operation? h
  rw [mem_claims]
  constructor
  · rintro ⟨operation', mem', claimed⟩
    cases distinct _ mem' _ mem rfl
    exact claimed
  · intro claimed
    exact ⟨operation, mem, claimed⟩

/-- A request without a claim takes none with it. -/
theorem claims_filter_of_unclaimed (distinct : w.Distinct) {operation : Operation}
    (h : w.operation? number = some operation) (unclaimed : operation.claim? = none) :
    (w.claims.filter fun p => p.1 != number) = w.claims := by
  refine List.filter_eq_self.mpr ?_
  rintro ⟨number', claim⟩ mem
  by_contra same
  obtain rfl : number' = number := by simpa using same
  rw [(mem_claims_of_operation? distinct h).mp mem] at unclaimed
  cases unclaimed

end World

/-! ## Moves -/

namespace Ledger

variable {interval now : Nat} {l : Ledger}

/-- What starts at an instant makes one step, by which the clock goes on as well. -/
theorem steps_of_takes {window : Option Nat} {claim? : Option Coordinator.Claim} (number : Nat)
    (h : Takes interval now l.window claim? window) (later : l.clock ≤ now) :
    Relation.ReflTransGen (Step interval) l
      ⟨window, claim?.toList.map (number, ·) ++ l.claims, l.endings, now⟩ := by
  cases h with
  | keeps => exact .single (.waits now later)
  | takes stale => exact .single (.takes number now later stale)

end Ledger

namespace Chronicle

variable {env : Environment} {c : Chronicle}

def ledger (c : Chronicle) : Ledger := ⟨c.world.window, c.world.claims, c.endings, c.clock⟩

theorem ledger_step (env : Environment) (c : Chronicle) (move : Move) :
    (c.step env move).ledger = ⟨(c.world.step env move).window, (c.world.step env move).claims,
      (c.world.ending? move).toList ++ c.endings, move.elapsed?.getD c.clock⟩ := rfl

theorem ledger_step_of_unread {move : Move} (unread : move.elapsed? = none)
    (unended : c.world.ending? move = none) : (c.step env move).ledger = c.ledger := by
  obtain ⟨window, claims⟩ := c.world.window_step_of_unread env unread
  rw [ledger_step, window, claims, unread, unended]
  rfl

/-- A move in time is a sequence of steps of the ledger. -/
theorem steps_of_timely {move : Move} (timely : c.Timely move) (distinct : c.world.Distinct) :
    Relation.ReflTransGen (Ledger.Step env.config.refreshInterval.inNanos) c.ledger
      (c.step env move).ledger := by
  cases move with
  | begin request cancelled now =>
    have takes := Service.takes_begin env now cancelled request c.world.service
    rw [ledger_step, World.window_begin, World.claims_begin]
    exact Ledger.steps_of_takes (l := c.ledger) c.world.begun takes (timely _ rfl)
  | resume number cancelled now =>
    have later : c.clock ≤ now.elapsed := timely _ rfl
    cases h : c.world.operation? number with
    | none =>
      rw [ledger_step, World.step_resume_of_none h cancelled now, World.ending?, h]
      exact .single (.waits now.elapsed later)
    | some operation =>
      rw [ledger_step, World.window_resume h, World.claims_resume h]
      by_cases refreshes : ∃ purpose, operation = .refresh purpose
      · obtain ⟨purpose, rfl⟩ := refreshes
        rw [World.ending?_resume_refresh h]
        have takes := Service.takes_resume_refresh env now cancelled purpose c.world.service
        have settles : Ledger.Step env.config.refreshInterval.inNanos c.ledger
            (c.ledger.settle (c.world.ended number purpose cancelled now)) := by
          refine .settles _ ⟨later, ?_, World.rivals_eq c.world number⟩
          intro claim
          exact World.mem_claims_of_operation? distinct h
        exact .head settles (Ledger.steps_of_takes number takes (Nat.le_refl _))
      · have other : ∀ purpose, operation ≠ .refresh purpose := not_exists.mp refreshes
        obtain ⟨unclaimed, same⟩ :=
          Service.takes_resume_other env now cancelled other c.world.service
        rw [World.ending?_resume_other h other, unclaimed, same,
          World.claims_filter_of_unclaimed distinct h (Operation.claim?_eq_none other)]
        exact .single (.waits now.elapsed later)
  | login | authenticate | check | change =>
    rw [ledger_step_of_unread rfl rfl]

theorem balanced_of_run {service : Service} (unclaimed : service.coordinator.lastRefreshed = none)
    (run : Chronicle.Run env Timely (start service) c) :
    c.ledger.Balanced env.config.refreshInterval.inNanos := by
  induction run with
  | refl =>
    have window : (start service).ledger.window = none := unclaimed
    exact .start window rfl rfl
  | next run timely ih =>
    exact ih.steps env.config.rules.interval
      (steps_of_timely timely (World.distinct_of_run (Run.world run)))

end Chronicle

end Keyring
