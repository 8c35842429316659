import Keyring.Uuid
import Keyring.Proofs.Aftermath
import Keyring.Proofs.Authorization
import Keyring.Proofs.Gatekeeping

/-!
# Why a token is not issued

There has to be a key to sign with, the user needs an identifier, and the expiry, rounded up to a whole
second, has to be an instant. Nothing else stands in the way of a token: the configuration and the
generators rule out what is checked besides.

* `Gate.CanIssue` and `Gate.Denied` are the conditions, and what is answered where they fail.
* `Gate.issue_of_canIssue` and `Gate.issue_of_denied` decide what is issued.
* `Error.StopsRotation` lists what may go wrong with a rotation to a generated key.
* `issued_or_denied` is the result about logins, renewals and rotations.
-/

namespace Keyring

/-! ## Conditions -/

namespace Gate

/-- What it takes to issue a token to a user now. -/
structure CanIssue (g : Gate) (user : String) (now : Instant) : Prop where
  keys : g.keys ≠ []
  known : user ≠ ""
  /-- The lifetime can be added to an instant. -/
  fits : g.tokenLifetime ≤ Instant.longestSpan
  ending : ∃ ending, now.plus? g.tokenLifetime = some ending ∧
    ending.ceilSecond ≤ Instant.maxSecond

/-- Why no token is issued to a user now. -/
inductive Denied (g : Gate) (user : String) (now : Instant) : Error → Prop where
  | noKey (keys : g.keys = []) : Denied g user now (.invalid .noSigningKey)
  | unknown (keys : g.keys ≠ []) (empty : user = "") : Denied g user now (.invalid .emptyUserId)
  | outOfRange (keys : g.keys ≠ []) (known : user ≠ "")
    (ending : now.plus? g.tokenLifetime = none) :
    Denied g user now (.invalid .lifetimeOutOfRange)
  /-- The lifetime ends in range, and only the rounding leaves it. -/
  | roundedOut (keys : g.keys ≠ []) (known : user ≠ "") (ending : Instant)
    (sum : now.plus? g.tokenLifetime = some ending) (out : Instant.maxSecond < ending.ceilSecond) :
    Denied g user now (.signing .selfCheck)

variable {g : Gate} {user tokenId : String} {now : Instant} {e : Error}

theorem canIssue_or_denied (g : Gate) (user : String) (now : Instant) :
    g.CanIssue user now ∨ ∃ e, g.Denied user now e := by
  by_cases keys : g.keys = []
  · exact Or.inr ⟨_, .noKey keys⟩
  by_cases known : user = ""
  · exact Or.inr ⟨_, .unknown keys known⟩
  cases sum : now.plus? g.tokenLifetime with
  | none => exact Or.inr ⟨_, .outOfRange keys known sum⟩
  | some ending =>
    by_cases high : ending.ceilSecond ≤ Instant.maxSecond
    · exact Or.inl ⟨keys, known, Instant.le_longestSpan_of_plus? sum, ending, sum, high⟩
    · exact Or.inr ⟨_, .roundedOut keys known ending sum (Int.not_le.mp high)⟩

theorem exists_current (keys : g.keys ≠ []) : ∃ key, g.keys.current = some key :=
  ⟨g.keys.head keys, List.head?_eq_some_head keys⟩

/-! ## What is issued -/

section Issuing

variable (codec : g.codec = .signed g.scheme) (long : ¬ g.tokenLifetime < Duration.ofSeconds 1)
  (named : tokenId ≠ "")
include codec long named

theorem issue_of_canIssue (sound : g.scheme.Sound) (can : g.CanIssue user now) :
    ∃ issued, (g.issue user tokenId now).1 = .ok issued := by
  obtain ⟨key, current⟩ := exists_current can.keys
  obtain ⟨ending, sum, high⟩ := can.ending
  have issued := Token.issue_eq_ok_iff.mpr ⟨long, can.known, named, ending, sum, rfl⟩
  have alive : Claims.Alive ⟨user, tokenId, now.second, ending.ceilSecond⟩ now ending :=
    Token.alive_of_issue long sum high
  exact ⟨_, issue_of_sound sound codec current issued (of_decide_eq_false alive.current)⟩

theorem issue_of_denied (later : Instant.earliest < now) (denied : g.Denied user now e) :
    (g.issue user tokenId now).1 = .error e := by
  rw [answer_issue, codec, Codec.encode_signed]
  cases denied with
  | noKey keys =>
    rw [keys]
    rfl
  | unknown keys empty =>
    obtain ⟨key, current⟩ := exists_current keys
    have refused : Token.issue user g.tokenLifetime tokenId now = .error (.invalid .emptyUserId) := by
      rw [Token.issue_eq, if_neg long, if_pos empty]
    rw [current, Token.encode_eq_error_iff.mpr refused]
  | outOfRange keys known ending =>
    obtain ⟨key, current⟩ := exists_current keys
    have refused : Token.issue user g.tokenLifetime tokenId now =
        .error (.invalid .lifetimeOutOfRange) := by
      rw [Token.issue_eq, if_neg long, if_neg known, if_neg named, ending]
    rw [current, Token.encode_eq_error_iff.mpr refused]
  | roundedOut keys known ending sum out =>
    obtain ⟨key, current⟩ := exists_current keys
    have issued := Token.issue_eq_ok_iff.mpr ⟨long, known, named, ending, sum, rfl⟩
    obtain ⟨wordIssued, wordExpires, -⟩ := Token.words_of_issue issued
    rw [current, Token.encode_eq_ok_iff.mpr ⟨_, issued, rfl⟩]
    dsimp only
    rw [Codec.decode_signed_error]
    intro c accepted
    obtain ⟨rfl, -, inTime, -⟩ := (Token.accepted_sign_iff wordIssued wordExpires).mp accepted
    -- an expiry that is out of range counts as the earliest instant, which has passed
    have range := Instant.inRange_of_le_ofSecond later inTime
    exact absurd range.2 (Int.not_le.mpr out)

theorem exists_issue_iff (sound : g.scheme.Sound) (later : Instant.earliest < now) :
    (∃ issued, (g.issue user tokenId now).1 = .ok issued) ↔ g.CanIssue user now := by
  refine ⟨?_, issue_of_canIssue codec long named sound⟩
  rintro ⟨issued, answer⟩
  rcases canIssue_or_denied g user now with can | ⟨e, denied⟩
  · exact can
  · rw [issue_of_denied codec long named later denied] at answer
    cases answer

theorem issue_eq_error_iff (sound : g.scheme.Sound) (later : Instant.earliest < now) :
    (g.issue user tokenId now).1 = .error e ↔ g.Denied user now e := by
  refine ⟨?_, issue_of_denied codec long named later⟩
  intro answer
  rcases canIssue_or_denied g user now with can | ⟨e', denied⟩
  · obtain ⟨issued, answer'⟩ := issue_of_canIssue codec long named sound can
    rw [answer'] at answer
    cases answer
  · rw [issue_of_denied codec long named later denied] at answer
    cases answer
    exact denied

end Issuing

end Gate

/-! ## Rotations -/

/-- What may go wrong with a rotation to a generated key. -/
inductive Error.StopsRotation : Error → Prop where
  | unauthorized (refusal : Refusal) : StopsRotation (.unauthorized refusal)
  | keyGeneration (text : String) : StopsRotation (.keyGeneration text)
  | keyStorage (call : StoreCall) (cause : StoreError) : StopsRotation (.keyStorage call cause)

theorem Error.StopsRotation.ne_invalid {e : Error} (h : e.StopsRotation) (cause : Invalid) :
    e ≠ .invalid cause := by
  rintro rfl
  cases h

theorem Access.stopsRotation_of_authorize {access : Access} {agent : String}
    {verify : IdentityVerifier} {e : Error} {events : List Event}
    (h : access.authorize agent verify = (.error e, events)) : e.StopsRotation := by
  unfold authorize at h
  repeat' split at h
  all_goals cases h
  all_goals exact .unauthorized _

namespace Service

variable {env : Environment} {s : Service} {cancelled : Bool} {e : Error}

/-- Once it has begun, a rotation fails for nothing but the store. -/
theorem stopsRotation_of_resumeRotation {now : Moment} {rotation : Rotation}
    (h : (s.resumeRotation now cancelled rotation).1 = .ended (.error e)) : e.StopsRotation := by
  cases rotation with
  | writing plan =>
    rw [resumeRotation] at h
    split at h
    · cases h
      exact .keyStorage _ _
    · rename_i record repository _
      have listed := progress_listWritten cancelled plan record.createdAt { s with repository }
      rcases listed with ⟨cause, failed⟩ | awaiting
      · rw [failed] at h
        cases h
        exact .keyStorage _ _
      · rw [awaiting] at h
        cases h
  | listing name bound createdAt =>
    rw [resumeRotation] at h
    split at h
    · cases h
      exact .keyStorage _ _
    · cases ok_of_nextDeletion h
  | deleting outcome listed stale rest =>
    rw [resumeRotation] at h
    split at h
    · cases h
      exact .keyStorage _ _
    · split at h
      · cases h
        exact .keyStorage _ _
      · cases ok_of_nextDeletion h

/-- A rotation that fails does so at its beginning or at one of its calls. -/
theorem stopsRotation_of_carryOn {scenes : List Scene} {progress : Rotation.Progress}
    (first : progress = .ended (.error e) → e.StopsRotation)
    (h : carryOn scenes progress = .ended (.error e)) : e.StopsRotation := by
  induction scenes generalizing progress with
  | nil => exact first h
  | cons scene scenes ih =>
    cases progress with
    | ended answer => exact first h
    | awaiting rotation =>
      rw [carryOn] at h
      exact ih stopsRotation_of_resumeRotation h

section Generated

variable (key : env.keys s.draws.keys ≠ []) (name : env.names s.draws.names ≠ "")
include key name

/-- The configuration allows the bound, so that a plan with a key and a name is valid. -/
theorem stopsRotation_of_beginGenerated
    (h : (s.beginGenerated env cancelled).1 = .ended (.error e)) : e.StopsRotation := by
  rw [progress_beginGenerated, key_drawKey] at h
  split at h
  · rename_i failed
    split at failed
    · cases failed
      cases h
      exact .keyGeneration _
    · cases failed
  · rename_i drawn
    split at drawn
    · cases drawn
    · cases drawn
      rw [beginRotation_of_valid ⟨key, name, env.config.rules.retention⟩] at h
      split at h
      · cases h
        exact .keyStorage _ _
      · cases h

theorem stopsRotation_of_beginAuthorized {access : Access}
    (h : (s.beginAuthorized env cancelled access).1 = .ended (.error e)) : e.StopsRotation := by
  unfold beginAuthorized at h
  split at h
  · rename_i refused
    cases h
    exact Access.stopsRotation_of_authorize refused
  · exact stopsRotation_of_beginGenerated (s := s.report _) key name h

end Generated

/-- The answer to a rotation is what the rotation by itself comes to. -/
theorem stopsRotation_of_rotate {access : Option Access} {first : Scene} {scenes : List Scene}
    (key : env.keys first.service.draws.keys ≠ []) (name : env.names first.service.draws.names ≠ "")
    (answered : Answered (play env (.rotate access) first scenes) (.rotation (.error e))) :
    e.StopsRotation := by
  obtain ⟨progress, begun, valid⟩ : ∃ progress,
      (first.service.begin env first.now first.cancelled (.rotate access)).1 =
        Caller.coordinator.progress progress ∧
      (progress = .ended (.error e) → e.StopsRotation) := by
    cases access with
    | none => exact ⟨_, progress_settleRotation _ _, stopsRotation_of_beginGenerated key name⟩
    | some access => exact ⟨_, progress_settleRotation _ _, stopsRotation_of_beginAuthorized key name⟩
  unfold play at answered
  dsimp only at answered
  rw [begun, answered_follow] at answered
  have ended : carryOn scenes progress = .ended (.error e) := by
    generalize carryOn scenes progress = last at answered ⊢
    cases last with
    | awaiting rotation => cases answered
    | ended answer =>
      cases answered
      rfl
  exact stopsRotation_of_carryOn valid ended

end Service

/-! ## Tokens -/

/-- With identifiers for tokens as they are drawn, a user who is known to the verifier gets a token
exactly if one can be issued; otherwise the answer tells which condition fails first. The same goes for a
renewal that is due. Neither a lifetime that is too short nor a missing identifier is ever reported, and a
token fails its own check only if the rounding of its expiry leaves the range of instants. A rotation to a
generated key does not report invalid input, unless the key or the name is empty. -/
theorem issued_or_denied (env : Environment) (sound : env.scheme.Sound)
    (ids : ∀ n, Uuid.isRandom (env.tokenIds n) = true) (s : Service) (now : Instant)
    (later : Instant.earliest < now) :
    (∀ verify credentials user, verify credentials = .ok (some user) →
      ((∃ issued,
          (s.login env (.signed env.scheme) verify credentials now).1 = .ok issued) ↔
        (s.gate env (.signed env.scheme)).CanIssue user now) ∧
      ∀ e, (s.login env (.signed env.scheme) verify credentials now).1 = .error e ↔
        (s.gate env (.signed env.scheme)).Denied user now e) ∧
    (∀ token c, (s.check env (.signed env.scheme) token now).1 = .ok c →
      c.remainingAt now < env.config.renewalDelta →
        ∃ a, (s.authenticate env (.signed env.scheme) token true now).1 = .ok a ∧
          (a.renewal = .renewed ↔ (s.gate env (.signed env.scheme)).CanIssue c.subject now) ∧
          ∀ e, a.renewal = .failed e ↔
            (s.gate env (.signed env.scheme)).Denied c.subject now e) ∧
    ∀ access first scenes e, env.keys first.service.draws.keys ≠ [] →
      env.names first.service.draws.names ≠ "" →
        Service.Answered (Service.play env (.rotate access) first scenes) (.rotation (.error e)) →
          ∀ cause, e ≠ .invalid cause := by
  have named : s.nextTokenId env ≠ "" := Uuid.ne_empty_of_isRandom (ids _)
  have long : ¬ env.config.tokenLifetime < Duration.ofSeconds 1 :=
    Duration.not_lt.mpr env.config.rules.lifetime
  have issued : ∀ user, (∃ issued, ((s.gate env (.signed env.scheme)).issue user (s.nextTokenId env)
      now).1 = .ok issued) ↔ (s.gate env (.signed env.scheme)).CanIssue user now :=
    fun user => Gate.exists_issue_iff rfl long named sound later
  have denied : ∀ user e, ((s.gate env (.signed env.scheme)).issue user (s.nextTokenId env) now).1 =
      .error e ↔ (s.gate env (.signed env.scheme)).Denied user now e :=
    fun user e => Gate.issue_eq_error_iff rfl long named sound later
  refine ⟨?_, ?_, ?_⟩
  · intro verify credentials user known
    rw [Service.answer_login, Gate.answer_login, known]
    exact ⟨issued user, denied user⟩
  · intro token c checked due
    refine ⟨_, Service.authenticate_of_due checked due, ?_⟩
    rw [Gate.renewal_renew_eq_renewed_iff, issued]
    refine ⟨Iff.rfl, fun e => ?_⟩
    rw [Gate.renewal_renew_eq_failed_iff, denied]
  · intro access first scenes e key name answered
    exact (Service.stopsRotation_of_rotate key name answered).ne_invalid

/-- The last instant at which a token can be issued for a day, and the nanosecond behind it, at which a
login is denied and a renewal that is due leaves the old token in use. -/
theorem denied_for_rounding :
    let env : Environment :=
      { Environment.plain .keepsThree fun _ => "a" with tokenIds := Uuid.random ⟨[]⟩ }
    let key : Key := ⟨"a", List.replicate 32 7, Instant.earliest, rfl⟩
    let s : Service := { Service.initial with snapshot := [key] }
    let verify : CredentialVerifier := fun _ => .ok (some "user")
    let last : Instant := ⟨8210266790399, 0, by decide, by decide, by decide⟩
    let late : Instant := ⟨8210266790399, 1, by decide, by decide, by decide⟩
    let c : Claims := ⟨"user", "old", 0, 8210266790400⟩
    env.scheme.Sound ∧ (∀ n, Uuid.isRandom (env.tokenIds n) = true) ∧
      Instant.earliest < last ∧ Instant.earliest < late ∧
      (∃ issued, (s.login env (.signed env.scheme) verify ⟨"alice", "hunter2"⟩ last).1 =
        .ok issued) ∧
      (s.login env (.signed env.scheme) verify ⟨"alice", "hunter2"⟩ late).1 =
        .error (.signing .selfCheck) ∧
      ∃ a, (s.authenticate env (.signed env.scheme) (Token.sign .plain key c) true late).1 = .ok a ∧
        a.renewal = .failed (.signing .selfCheck) := by
  intro env key s verify last late c
  have ids : ∀ n, Uuid.isRandom (env.tokenIds n) = true := Uuid.isRandom_random ⟨[]⟩
  have keys : (s.gate env (.signed env.scheme)).keys ≠ [] := List.cons_ne_nil key []
  have can : (s.gate env (.signed env.scheme)).CanIssue "user" last :=
    ⟨keys, by decide, by decide, ⟨8210266876799, 0, by decide, by decide, by decide⟩, by decide,
      by decide⟩
  have denied : (s.gate env (.signed env.scheme)).Denied "user" late (.signing .selfCheck) :=
    .roundedOut keys (by decide) ⟨8210266876799, 1, by decide, by decide, by decide⟩ (by decide)
      (by decide)
  have letIn : (s.check env (.signed env.scheme) (Token.sign .plain key c) late).1 = .ok c :=
    Service.check_sign Scheme.sound_plain List.mem_cons_self ⟨by decide, by decide⟩
      ⟨by decide, by decide⟩ (by decide) (by decide)
  obtain ⟨login, -, -⟩ := issued_or_denied env Scheme.sound_plain ids s last (by decide)
  obtain ⟨login', renewal, -⟩ := issued_or_denied env Scheme.sound_plain ids s late (by decide)
  obtain ⟨a, answer, -, failed⟩ := renewal _ c letIn (by decide)
  exact ⟨Scheme.sound_plain, ids, by decide, by decide, (login verify _ "user" rfl).1.mpr can,
    ((login' verify _ "user" rfl).2 _).mpr denied, a, answer, (failed _).mpr denied⟩

end Keyring
