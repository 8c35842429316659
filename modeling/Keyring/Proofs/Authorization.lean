import Keyring.Proofs.Window

/-!
# Who rotates keys

A request from outside rotates keys only for the configured automation: for its user agent, and for an
identity that is let through. A refused one changes nothing but the log. Whatever comes of a rotation,
the keys in use and the refresh window stay as they are.

* `Refused` says which requests are refused; `authorize_cases` is about the decision.
* A `Service.Scene` is the state of a service for one step, and `Service.play` plays a request through
  scenes, with anything between its steps. `Service.rotated` does so for a rotation by itself.
* `rotation_for_configured_automation` is the result about requests from outside.
-/

namespace Keyring

/-! ## The decision -/

theorem Config.userAgent_ne_empty (config : Config) : config.userAgent ≠ "" := by
  intro empty
  apply config.rules.agent
  rw [empty]
  rfl

/-- The token in the header of a request; a header that is missing holds none. -/
theorem bearerToken_getD (authorization : Option String) :
    bearerToken (authorization.getD "") = authorization.bind bearerToken := by
  cases authorization with
  | none => rfl
  | some header => rfl

/-- The requests from outside that are refused, by their user agent and their authorization. -/
inductive Refused (env : Environment) (userAgent authorization : Option String) : Prop where
  | agent (other : userAgent ≠ some env.config.userAgent)
  | bearer (missing : authorization.bind bearerToken = none)
  | identity (token : String) (presented : authorization.bind bearerToken = some token) (e : Error)
    (rejected : env.identities token = .error e)
  | principal (token : String) (presented : authorization.bind bearerToken = some token)
    (subject : String) (verified : env.identities token = .ok subject)
    (unlisted : subject ∉ env.config.allowedPrincipals)

/-- Without anyone on the list nobody is let through. -/
theorem Refused.of_nobody {env : Environment} (nobody : env.config.allowedPrincipals = [])
    (userAgent authorization : Option String) : Refused env userAgent authorization := by
  cases presented : authorization.bind bearerToken with
  | none => exact .bearer presented
  | some token =>
    cases verified : env.identities token with
    | error e => exact .identity token presented e verified
    | ok subject =>
      refine .principal token presented subject verified ?_
      rw [nobody]
      exact List.not_mem_nil

namespace Service

variable {env : Environment} {s : Service} {userAgent authorization : Option String}

/-- A request is refused with an error, or its caller is authorized without further ado. -/
theorem authorize_cases (env : Environment) (userAgent authorization : Option String) :
    (Refused env userAgent authorization ∧ ∃ e events,
      (requestAccess env userAgent authorization).authorize env.config.userAgent env.identities =
        (.error e, events)) ∨
    (¬ Refused env userAgent authorization ∧ ∃ subject,
      (requestAccess env userAgent authorization).authorize env.config.userAgent env.identities =
        (.ok subject, [])) := by
  unfold Access.authorize
  have agent : (requestAccess env userAgent authorization).userAgent ≠ env.config.userAgent ↔
      userAgent ≠ some env.config.userAgent := by
    cases userAgent with
    | none => simp [requestAccess, env.config.userAgent_ne_empty.symm]
    | some agent => simp [requestAccess]
  have bearer : bearerToken (requestAccess env userAgent authorization).authorization =
      authorization.bind bearerToken := bearerToken_getD authorization
  rw [bearer]
  split
  · rename_i other
    exact Or.inl ⟨.agent (agent.mp other), _, _, rfl⟩
  · rename_i same
    rw [agent] at same
    split
    · rename_i missing
      exact Or.inl ⟨.bearer missing, _, _, rfl⟩
    · rename_i token presented
      split
      · rename_i e rejected
        exact Or.inl ⟨.identity token presented e rejected, _, _, rfl⟩
      · rename_i subject verified
        split
        · rename_i listed
          refine Or.inr ⟨?_, subject, rfl⟩
          intro refused
          cases refused with
          | agent other => exact same other
          | bearer missing =>
            rw [missing] at presented
            cases presented
          | identity token' presented' e rejected =>
            rw [presented'] at presented
            cases presented
            rw [rejected] at verified
            cases verified
          | principal token' presented' subject' verified' unlisted =>
            rw [presented'] at presented
            cases presented
            rw [verified'] at verified
            cases verified
            exact unlisted (List.contains_iff_mem.mp listed)
        · rename_i unlisted
          refine Or.inl ⟨.principal token presented subject verified ?_, _, _, rfl⟩
          exact fun listed => unlisted (List.contains_iff_mem.mpr listed)

end Service

/-! ## Requests that rotate keys -/

/-- Who asks for a rotation with a request, if it is one. -/
def Request.caller? : Request → Option Caller
  | .rotateTo _ => some .direct
  | .rotate _ => some .coordinator
  | .trigger _ _ => some .trigger
  | _ => none

/-- What the caller of a rotation is answered. -/
def Caller.answer : Caller → Except Error Rotation.Outcome → Answer
  | .direct, answer | .coordinator, answer => .rotation answer
  | .trigger, .ok _ => .trigger .noContent
  | .trigger, .error _ => .trigger .internalError

/-- What becomes of a request for a rotation. -/
def Caller.progress (caller : Caller) : Rotation.Progress → Progress
  | .ended answer => .ended (caller.answer answer)
  | .awaiting rotation => .awaiting (.rotation caller rotation)

theorem Caller.progress_eq_noContent_iff {progress : Rotation.Progress} :
    Caller.trigger.progress progress = .ended (.trigger .noContent) ↔
      ∃ outcome, progress = .ended (.ok outcome) := by
  cases progress with
  | awaiting rotation => simp [Caller.progress]
  | ended answer => cases answer <;> simp [Caller.progress, Caller.answer]

theorem Caller.progress_eq_internalError_iff {progress : Rotation.Progress} :
    Caller.trigger.progress progress = .ended (.trigger .internalError) ↔
      ∃ e, progress = .ended (.error e) := by
  cases progress with
  | awaiting rotation => simp [Caller.progress]
  | ended answer => cases answer <;> simp [Caller.progress, Caller.answer]

/-- The state in which a service is found for one step, its clocks, and whether the caller has given
up. -/
structure Service.Scene where
  service : Service
  now : Moment
  cancelled : Bool

/-- A step that was made: the service before it, what it came to, and the service behind it. -/
structure Service.Act where
  before : Service
  progress : Progress
  after : Service

namespace Service

variable {env : Environment} {s : Service} {userAgent authorization : Option String}
  {caller : Caller} {scenes later : List Scene} {act : Act} {answer : Answer}

/-- The steps of a request that has come to `progress`, one in each scene until it ends. -/
def follow (env : Environment) : List Scene → Progress → List Act
  | scene :: scenes, .awaiting operation =>
    let step := scene.service.resume env scene.now scene.cancelled operation
    ⟨scene.service, step.1, step.2⟩ :: follow env scenes step.1
  | _, _ => []

/-- The steps of a request that begins in a scene. -/
def play (env : Environment) (request : Request) (first : Scene) (later : List Scene) : List Act :=
  let step := first.service.begin env first.now first.cancelled request
  ⟨first.service, step.1, step.2⟩ :: follow env later step.1

/-- A request gets an answer at the end of its steps. -/
def Answered (acts : List Act) (answer : Answer) : Prop :=
  ∃ act ∈ acts, act.progress = .ended answer

/-- What a rotation by itself comes to in scenes that follow. -/
def carryOn : List Scene → Rotation.Progress → Rotation.Progress
  | scene :: scenes, .awaiting rotation =>
    carryOn scenes (scene.service.resumeRotation scene.now scene.cancelled rotation).1
  | _, progress => progress

/-- What a rotation by itself comes to that begins in a scene. -/
def rotated (plan : Rotation.Plan) (first : Scene) (later : List Scene) : Rotation.Progress :=
  carryOn later (first.service.beginRotation plan first.cancelled).1

/-! ## Steps of rotations -/

theorem progress_settleRotation (caller : Caller) (step : Rotation.Progress × Service) :
    (settleRotation caller step).1 = caller.progress step.1 := by
  obtain ⟨progress, s⟩ := step
  cases progress with
  | awaiting rotation => rfl
  | ended answer => cases caller <;> cases answer <;> rfl

/-- Of the coordinator, a rotation changes the count of rotations at most. -/
theorem coordinator_settleRotation (caller : Caller) (step : Rotation.Progress × Service) :
    ∃ n, (settleRotation caller step).2.coordinator = { step.2.coordinator with rotations := n } := by
  obtain ⟨progress, s⟩ := step
  cases progress with
  | awaiting rotation => exact ⟨s.coordinator.rotations, rfl⟩
  | ended answer => cases caller <;> cases answer <;> exact ⟨_, rfl⟩

/-- A rotation on a request from outside counts exactly if it succeeds. -/
theorem coordinator_settleRotation_trigger (step : Rotation.Progress × Service) :
    ((settleRotation .trigger step).1 = .ended (.trigger .noContent) ∧
      (settleRotation .trigger step).2.coordinator =
        { step.2.coordinator with rotations := step.2.coordinator.rotations + 1 }) ∨
    ((settleRotation .trigger step).1 ≠ .ended (.trigger .noContent) ∧
      (settleRotation .trigger step).2.coordinator = step.2.coordinator) := by
  obtain ⟨progress, s⟩ := step
  cases progress with
  | awaiting rotation => exact Or.inr ⟨(nomatch ·), rfl⟩
  | ended answer =>
    cases answer with
    | ok outcome => exact Or.inl ⟨rfl, s.coordinator.rotate_eq⟩
    | error e => exact Or.inr ⟨(nomatch ·), rfl⟩

/-- A request for a rotation is settled like one, by a step that leaves the coordinator alone. -/
theorem exists_step_of_begin {request : Request} (asks : request.caller? = some caller)
    (env : Environment) (now : Moment) (cancelled : Bool) (s : Service) :
    ∃ step : Rotation.Progress × Service, s.begin env now cancelled request =
      settleRotation caller step ∧ step.2.coordinator = s.coordinator := by
  cases request with
  | rotate access =>
    cases asks
    cases access with
    | none => exact ⟨_, rfl, coordinator_beginGenerated env cancelled s⟩
    | some access => exact ⟨_, rfl, coordinator_beginAuthorized env cancelled access s⟩
  | rotateTo plan =>
    cases asks
    exact ⟨_, rfl, coordinator_beginRotation plan cancelled s⟩
  | trigger userAgent authorization =>
    cases asks
    exact ⟨_, rfl, coordinator_beginAuthorized env cancelled _ s⟩
  | _ => cases asks

/-- Each step of a request for a rotation settles a step that leaves the coordinator and the keys in
use alone. -/
theorem settled_of_mem_follow {progress : Rotation.Progress}
    (mem : act ∈ follow env scenes (caller.progress progress)) :
    ∃ step : Rotation.Progress × Service, (act.progress, act.after) = settleRotation caller step ∧
      step.2.coordinator = act.before.coordinator ∧ act.after.snapshot = act.before.snapshot := by
  induction scenes generalizing progress with
  | nil => cases progress <;> cases mem
  | cons scene scenes ih =>
    cases progress with
    | ended answer => cases mem
    | awaiting rotation =>
      rcases List.mem_cons.mp mem with rfl | mem
      · obtain ⟨written, resumed⟩ := resumes_rotation env scene.now scene.cancelled caller rotation
          scene.service
        refine ⟨_, rfl, coordinator_resumeRotation _ _ rotation scene.service, ?_⟩
        exact resumed.snapshot fun purpose other => nomatch other
      · rw [resume, progress_settleRotation] at mem
        exact ih mem

theorem settled_of_mem_play {request : Request} (asks : request.caller? = some caller)
    {first : Scene} (mem : act ∈ play env request first later) :
    ∃ step : Rotation.Progress × Service, (act.progress, act.after) = settleRotation caller step ∧
      step.2.coordinator = act.before.coordinator ∧ act.after.snapshot = act.before.snapshot := by
  obtain ⟨step, settled, coordinator⟩ :=
    exists_step_of_begin asks env first.now first.cancelled first.service
  have snapshot := (alike_begin env first.now first.cancelled request first.service).snapshot
  rcases List.mem_cons.mp mem with rfl | mem
  · exact ⟨step, settled, coordinator, snapshot⟩
  · rw [settled, progress_settleRotation] at mem
    exact settled_of_mem_follow mem

/-! ## Answers -/

/-- The caller of a rotation is answered what the rotation by itself comes to. -/
theorem answered_follow (s t : Service) (progress : Rotation.Progress) :
    Answered (⟨s, caller.progress progress, t⟩ :: follow env scenes (caller.progress progress)) answer ↔
      caller.progress (carryOn scenes progress) = .ended answer := by
  induction scenes generalizing s t progress with
  | nil => cases progress <;> simp [Answered, follow, carryOn, Caller.progress]
  | cons scene scenes ih =>
    cases progress with
    | ended answer => simp [Answered, follow, carryOn, Caller.progress]
    | awaiting rotation =>
      have step := progress_settleRotation caller
        (scene.service.resumeRotation scene.now scene.cancelled rotation)
      rw [carryOn, ← ih scene.service
        (settleRotation caller (scene.service.resumeRotation scene.now scene.cancelled rotation)).2,
        ← step]
      simp only [Answered, Caller.progress, follow, resume, List.mem_cons, exists_eq_or_imp]
      simp

/-- What a rotation comes to when it begins does not depend on the service. -/
theorem progress_beginRotation (plan : Rotation.Plan) (cancelled : Bool) (s t : Service) :
    (s.beginRotation plan cancelled).1 = (t.beginRotation plan cancelled).1 := by
  unfold beginRotation
  split
  · rfl
  · repeat' split
    all_goals rfl

/-- A rotation to a generated key is one to the next key and the next name. -/
theorem progress_beginGenerated (env : Environment) (cancelled : Bool) (s : Service) :
    (s.beginGenerated env cancelled).1 =
      match (s.drawKey env).1 with
      | .error e => .ended (.error e)
      | .ok key => (s.beginRotation ⟨env.names s.draws.names, key, env.config.maxBackups⟩ cancelled).1 := by
  unfold beginGenerated drawKey
  cases s.keysFail with
  | true => rfl
  | false => exact progress_beginRotation _ cancelled _ s

theorem key_drawKey (env : Environment) (s : Service) :
    (s.drawKey env).1 =
      if s.keysFail then .error (.keyGeneration "injected generator failure")
      else .ok (env.keys s.draws.keys) := by
  unfold drawKey
  dsimp only
  split <;> rfl

theorem begin_trigger_of_refused (refused : Refused env userAgent authorization) (now : Moment)
    (cancelled : Bool) (s : Service) :
    ∃ events, s.begin env now cancelled (.trigger userAgent authorization) =
      (.ended (.trigger .internalError), s.report events) := by
  rcases authorize_cases env userAgent authorization with ⟨-, e, events, denied⟩ | ⟨passed, -⟩
  · refine ⟨events ++ [.rotationDenied e] ++ [.triggerFailed e], ?_⟩
    simp only [begin, beginAuthorized, denied, settleRotation, endRotation, report,
      List.append_assoc]
  · exact absurd refused passed

theorem progress_begin_trigger (authorized : ¬ Refused env userAgent authorization) (now : Moment)
    (cancelled : Bool) (s : Service) :
    (s.begin env now cancelled (.trigger userAgent authorization)).1 =
      Caller.trigger.progress
        (match (s.drawKey env).1 with
        | .error e => .ended (.error e)
        | .ok key =>
          (s.beginRotation ⟨env.names s.draws.names, key, env.config.maxBackups⟩ cancelled).1) := by
  rcases authorize_cases env userAgent authorization with ⟨refused, -⟩ | ⟨-, subject, passed⟩
  · exact absurd refused authorized
  · rw [begin, progress_settleRotation, beginAuthorized, passed]
    dsimp only
    have same : ((s.report ([] ++ [.callerAuthorized subject])).drawKey env).1 =
        (s.drawKey env).1 := by
      rw [key_drawKey, key_drawKey]
      rfl
    rw [progress_beginGenerated, same]
    cases (s.drawKey env).1 with
    | error e => rfl
    | ok key => exact congrArg Caller.trigger.progress (progress_beginRotation _ cancelled _ s)

/-- Played to its end, a request that is authorized succeeds or fails as its rotation does. -/
theorem answered_play_trigger (authorized : ¬ Refused env userAgent authorization) (first : Scene)
    (later : List Scene) :
    Answered (play env (.trigger userAgent authorization) first later) answer ↔
      Caller.trigger.progress
        (match (first.service.drawKey env).1 with
        | .error e => .ended (.error e)
        | .ok key =>
          rotated ⟨env.names first.service.draws.names, key, env.config.maxBackups⟩ first later) =
        .ended answer := by
  have begun := progress_begin_trigger authorized first.now first.cancelled first.service
  unfold play
  dsimp only
  rw [begun, answered_follow]
  cases (first.service.drawKey env).1 with
  | ok key => rfl
  | error e => cases later <;> rfl

end Service

open Service in
/-- A request from outside that is refused changes nothing but the log. Any other one succeeds exactly
if a key is generated and rotated to, and exactly then the rotation is counted. No step of a rotation
changes the keys in use, or of the coordinator anything but that count. -/
theorem rotation_for_configured_automation (env : Environment) (first : Scene) (later : List Scene) :
    (∀ userAgent authorization, Refused env userAgent authorization →
      ∃ events, play env (.trigger userAgent authorization) first later =
        [⟨first.service, .ended (.trigger .internalError), first.service.report events⟩]) ∧
    (∀ authorization, Refused env none authorization) ∧
    (env.config.allowedPrincipals = [] →
      ∀ userAgent authorization, Refused env userAgent authorization) ∧
    (∀ userAgent authorization, ¬ Refused env userAgent authorization →
      (Answered (play env (.trigger userAgent authorization) first later) (.trigger .noContent) ↔
        ∃ key outcome, (first.service.drawKey env).1 = .ok key ∧
          rotated ⟨env.names first.service.draws.names, key, env.config.maxBackups⟩ first later =
            .ended (.ok outcome)) ∧
      (Answered (play env (.trigger userAgent authorization) first later) (.trigger .internalError) ↔
        (∃ e, (first.service.drawKey env).1 = .error e) ∨
        ∃ key e, (first.service.drawKey env).1 = .ok key ∧
          rotated ⟨env.names first.service.draws.names, key, env.config.maxBackups⟩ first later =
            .ended (.error e))) ∧
    (∀ userAgent authorization, ∀ act ∈ play env (.trigger userAgent authorization) first later,
      (act.progress = .ended (.trigger .noContent) ∧
        act.after.coordinator =
          { act.before.coordinator with rotations := act.before.coordinator.rotations + 1 }) ∨
      (act.progress ≠ .ended (.trigger .noContent) ∧
        act.after.coordinator = act.before.coordinator)) ∧
    ∀ request caller, request.caller? = some caller → ∀ act ∈ play env request first later,
      act.after.snapshot = act.before.snapshot ∧
        ∃ n, act.after.coordinator = { act.before.coordinator with rotations := n } := by
  refine ⟨?_, ?_, ?_, ?_, ?_, ?_⟩
  · intro userAgent authorization refused
    obtain ⟨events, denied⟩ :=
      begin_trigger_of_refused refused first.now first.cancelled first.service
    refine ⟨events, ?_⟩
    unfold play
    rw [denied]
    cases later <;> rfl
  · exact fun authorization => .agent (nomatch ·)
  · exact fun nobody userAgent authorization => .of_nobody nobody userAgent authorization
  · intro userAgent authorization authorized
    rw [answered_play_trigger authorized, answered_play_trigger authorized,
      Caller.progress_eq_noContent_iff, Caller.progress_eq_internalError_iff]
    cases (first.service.drawKey env).1 with
    | error e => simp
    | ok key => simp
  · intro userAgent authorization act mem
    obtain ⟨step, settled, coordinator, -⟩ := settled_of_mem_play rfl mem
    have counted := coordinator_settleRotation_trigger step
    rw [← settled, coordinator] at counted
    exact counted
  · intro request caller asks act mem
    obtain ⟨step, settled, coordinator, snapshot⟩ := settled_of_mem_play asks mem
    have counted := coordinator_settleRotation caller step
    rw [← settled, coordinator] at counted
    exact ⟨snapshot, counted⟩

/-! ## A request that is let through -/

namespace Authorization

/-- One identity is known and let through. -/
def environment : Environment where
  scheme := .plain
  config := { Config.keepsThree with
    allowedPrincipals := ["scheduler"]
    valid := Config.keepsThree.valid }
  identities := identitiesVerifier [("secret", "scheduler")]
  keys n := List.replicate 32 (UInt8.ofNat n)
  names _ := "a"
  tokenIds _ := ""

/-- A service at its beginning. -/
def scene : Service.Scene := ⟨.initial, .epoch, false⟩

/-- The same service when the name `a` is taken by then. -/
def taken : Service.Scene :=
  ⟨(Change.insert ⟨"a", [0], Moment.epoch.time⟩).apply .initial, .epoch, false⟩

end Authorization

open Authorization Service in
/-- A name that is taken makes an authorized request fail, and one without a user agent does not even
come so far. -/
theorem trigger_with_taken_name :
    ¬ Refused environment (some "Google-Cloud-Scheduler") (some "Bearer secret") ∧
      Answered (play environment (.trigger (some "Google-Cloud-Scheduler") (some "Bearer secret"))
        scene [taken]) (.trigger .internalError) ∧
      Refused environment none (some "Bearer secret") ∧
      (play environment (.trigger none (some "Bearer secret")) scene [taken]).length = 1 := by
  obtain ⟨refused, missing, -, authorized, -⟩ :=
    rotation_for_configured_automation environment scene [taken]
  have token : (some "Bearer secret").bind bearerToken = some "secret" := by decide +kernel
  have identity : environment.identities "secret" = .ok "scheduler" := rfl
  have passed : ¬ Refused environment (some "Google-Cloud-Scheduler") (some "Bearer secret") := by
    intro refused
    cases refused with
    | agent other => exact other rfl
    | bearer missing =>
      rw [token] at missing
      cases missing
    | identity token' presented e rejected =>
      rw [token] at presented
      cases presented
      rw [identity] at rejected
      cases rejected
    | principal token' presented subject verified unlisted =>
      rw [token] at presented
      cases presented
      rw [identity] at verified
      cases verified
      exact unlisted List.mem_cons_self
  have key : (scene.service.drawKey environment).1 = .ok (List.replicate 32 0) := rfl
  have failed : rotated ⟨"a", List.replicate 32 0, 3⟩ scene [taken] =
      .ended (.error (.keyStorage .write (.conflict "a"))) := by cbv
  obtain ⟨events, alone⟩ := refused none (some "Bearer secret") (missing _)
  refine ⟨passed, ?_, missing _, ?_⟩
  · exact (authorized _ _ passed).2.mpr (Or.inr ⟨_, _, key, failed⟩)
  · rw [alone]
    rfl

end Keyring
