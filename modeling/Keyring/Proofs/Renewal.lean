import Keyring.Proofs.Gatekeeping

/-!
# Sessions and their renewal

A user who presents a token that is let in has a session: the answer is a token of the same user that is
let in as well. A token whose life is about to end is exchanged for one that lives longer, and stays in
use if none can be issued.

* `session_kept` says what is answered to a token that is presented.
* `Claims.inNanos_remainingAt` measures the life left, outside leap seconds.
* `renewal_extends_session`: the new token expires later than the old one, and is not due itself.
-/

namespace Keyring

/-! ## Sessions -/

/-- A token is refused with renewal exactly if it is refused without. Otherwise the answer is a token
that is let in with the claims of the answer, for the same user: the one that was presented, unless its
renewal is asked for and due, and then either a new token of the newest key or, with the reason why there
is none, again the one that was presented. -/
theorem session_kept (env : Environment) (s : Service) (token : String) (autoRenew : Bool)
    (now : Instant) :
    (∀ e, (s.authenticate env (.signed env.scheme) token autoRenew now).1 = .error e ↔
      (s.check env (.signed env.scheme) token now).1 = .error e) ∧
    (∀ e, (s.authenticate env (.signed env.scheme) token autoRenew now).1 = .error e →
      e = .invalidCredentials) ∧
    ∀ a, (s.authenticate env (.signed env.scheme) token autoRenew now).1 = .ok a →
      ∃ c, (s.check env (.signed env.scheme) token now).1 = .ok c ∧
        (s.check env (.signed env.scheme) a.token now).1 = .ok a.claims ∧
        a.claims.subject = c.subject ∧
        (autoRenew = false ∨ env.config.renewalDelta ≤ c.remainingAt now →
          a = ⟨c, token, .notDue⟩) ∧
        (autoRenew = true → c.remainingAt now < env.config.renewalDelta →
          (∃ key ending, s.snapshot.current = some key ∧
            now.plus? env.config.tokenLifetime = some ending ∧
            a.claims = ⟨c.subject, s.nextTokenId env, now.second, ending.ceilSecond⟩ ∧
            a.token = Token.sign env.scheme key a.claims ∧ a.renewal = .renewed) ∨
          ∃ e, a = ⟨c, token, .failed e⟩) := by
  cases checked : (s.check env (.signed env.scheme) token now).1 with
  | error e =>
    rw [Service.authenticate_of_error checked]
    refine ⟨fun e' => by simp, ?_, nofun⟩
    intro e' same
    cases same
    exact Gate.error_of_check checked
  | ok c =>
    by_cases due : autoRenew = true ∧ c.remainingAt now < env.config.renewalDelta
    · obtain ⟨rfl, short⟩ := due
      have notLong : ¬ env.config.renewalDelta ≤ c.remainingAt now := Duration.not_le.mpr short
      rw [Service.authenticate_of_due checked short]
      refine ⟨fun e => ⟨nofun, nofun⟩, nofun, ?_⟩
      have ends := Gate.renew_cases (g := s.gate env (.signed env.scheme)) rfl c token
        (s.nextTokenId env) now
      rcases ends with ⟨key, ending, c', current, sum, made, letIn, renewed⟩ | ⟨e, failed⟩
      · rw [renewed]
        rintro a ⟨⟩
        have subject : c'.subject = c.subject := by rw [made]
        exact ⟨c, rfl, letIn, subject, fun kept => absurd kept (by simp [notLong]),
          fun _ _ => Or.inl ⟨key, ending, current, sum, made, rfl, rfl⟩⟩
      · rw [failed]
        rintro a ⟨⟩
        exact ⟨c, rfl, checked, rfl, fun kept => absurd kept (by simp [notLong]),
          fun _ _ => Or.inr ⟨e, rfl⟩⟩
    · rw [Service.authenticate_of_not_due checked due]
      refine ⟨fun e => ⟨nofun, nofun⟩, nofun, ?_⟩
      rintro a ⟨⟩
      exact ⟨c, rfl, checked, rfl, fun _ => rfl, fun asked short => absurd ⟨asked, short⟩ due⟩

/-! ## The life left -/

/-- The life left of claims that have not expired, in nanoseconds. -/
theorem Claims.inNanos_remainingAt {c : Claims} {now : Instant} (later : Instant.earliest < now)
    (plain : now.inLeapSecond = false) (inTime : now ≤ c.expiresAt) :
    ((c.remainingAt now).inNanos : Int) = c.expires * 1000000000 - now.inNanos := by
  have plain' : c.expiresAt.inLeapSecond = false := Instant.inLeapSecond_ofSecond c.expires
  have range := Instant.inRange_of_le_ofSecond later inTime
  have ahead := (Instant.le_iff_inNanos_le plain plain').mp inTime
  rw [Claims.remainingAt, Instant.inNanos_since plain' plain]
  rw [Claims.expiresAt, Instant.inNanos_ofSecond range] at ahead ⊢
  omega

/-- A token that is issued lives for its lifetime at least. -/
theorem Token.inNanos_le_of_issue {c : Claims} {user tokenId : String} {lifetime : Duration}
    {now : Instant} (plain : now.inLeapSecond = false)
    (issued : Token.issue user lifetime tokenId now = .ok c) :
    now.inNanos + lifetime.inNanos ≤ c.expires * 1000000000 := by
  obtain ⟨long, -, -, ending, sum, rfl⟩ := Token.issue_eq_ok_iff.mp issued
  obtain ⟨-, nanos⟩ := Instant.second_lt_of_plus? (Instant.one_le_seconds_of_not_lt long) sum
  rw [← Instant.inNanos_of_plus? plain sum]
  exact Instant.inNanos_le_ceilSecond nanos

/-! ## Renewal -/

/-- The token that is answered in a renewal expires later than the one that was presented. When it is
presented itself, to a service with the same keys, it is let in and not renewed again. -/
theorem renewal_extends_session (env : Environment) (s : Service) (token token' : String)
    (now : Instant) (c' : Claims) (later : Instant.earliest < now)
    (plain : now.inLeapSecond = false)
    (renewed : (s.authenticate env (.signed env.scheme) token true now).1 =
      .ok ⟨c', token', .renewed⟩) :
    ∃ c, (s.check env (.signed env.scheme) token now).1 = .ok c ∧ c.expires < c'.expires ∧
      ∀ t : Service, t.snapshot = s.snapshot →
        (t.authenticate env (.signed env.scheme) token' true now).1 =
          .ok ⟨c', token', .notDue⟩ := by
  rw [Service.answer_authenticate] at renewed
  obtain ⟨c, checked, due, issued⟩ := Gate.renewal_of_authenticate renewed
  have letIn := Gate.check_of_issue rfl issued
  have inTime := ((Gate.check_eq_ok_iff rfl).mp checked).inTime
  have inTime' := ((Gate.check_eq_ok_iff rfl).mp letIn).inTime
  obtain ⟨key, -, claims, -⟩ := (Gate.issue_eq_ok_iff rfl).mp issued
  have left := Claims.inNanos_remainingAt later plain inTime
  have left' := Claims.inNanos_remainingAt later plain inTime'
  have life := Token.inNanos_le_of_issue plain claims
  have short : (c.remainingAt now).inNanos < env.config.renewalDelta.inNanos := due
  have margin : env.config.renewalDelta.inNanos < env.config.tokenLifetime.inNanos :=
    env.config.rules.renewal
  change now.inNanos + env.config.tokenLifetime.inNanos ≤ c'.expires * 1000000000 at life
  -- less is left of the old token than the margin, and of the new one more
  refine ⟨c, checked, by omega, ?_⟩
  intro t same
  have notDue : ¬ c'.remainingAt now < env.config.renewalDelta := by
    have long : env.config.renewalDelta.inNanos ≤ (c'.remainingAt now).inNanos := by omega
    exact Duration.not_lt.mpr long
  have letIn' := (Service.check_congr same env (.signed env.scheme) token' now).trans letIn
  exact Service.authenticate_of_not_due letIn' fun both => notDue both.2

/-- A token of the newest key that nobody else has issued, presented a nanosecond after its renewal came
due. -/
theorem renewal_of_token_just_due :
    let env : Environment := .plain .keepsThree fun _ => "a"
    let key : Key := ⟨"a", List.replicate 32 7, Instant.earliest, rfl⟩
    let s : Service := { Service.initial with snapshot := [key] }
    let now : Instant := ⟨100, 1, by decide, by decide, by decide⟩
    let old : Claims := ⟨"user", "old", -5, 3700⟩
    let new : Claims := ⟨"user", "0", 100, 86501⟩
    Instant.earliest < now ∧ now.inLeapSecond = false ∧
      (s.authenticate env (.signed env.scheme) (Token.sign .plain key old) true now).1 =
        .ok ⟨new, Token.sign .plain key new, .renewed⟩ ∧
      old.expires < new.expires ∧
      (s.authenticate env (.signed env.scheme) (Token.sign .plain key new) true now).1 =
        .ok ⟨new, Token.sign .plain key new, .notDue⟩ := by
  intro env key s now old new
  have letIn : (s.check env (.signed env.scheme) (Token.sign .plain key old) now).1 = .ok old :=
    Service.check_sign Scheme.sound_plain List.mem_cons_self ⟨by decide, by decide⟩
      ⟨by decide, by decide⟩ (by decide) (by decide)
  have issued : Token.issue "user" env.config.tokenLifetime "0" now = .ok new :=
    Token.issue_eq_ok_iff.mpr ⟨by decide, by decide, by decide, ⟨86500, 1, by decide, by decide,
      by decide⟩, by decide, rfl⟩
  have given : ((s.gate env (.signed env.scheme)).issue old.subject "0" now).1 =
      .ok ⟨new, Token.sign .plain key new⟩ :=
    Gate.issue_of_sound Scheme.sound_plain rfl rfl issued (by decide)
  have tokenId : s.nextTokenId env = "0" := by decide +kernel
  have renewed : (s.authenticate env (.signed env.scheme) (Token.sign .plain key old) true now).1 =
      .ok ⟨new, Token.sign .plain key new, .renewed⟩ := by
    rw [Service.authenticate_of_due letIn (by decide), tokenId, Gate.renew_of_ok _ given]
  obtain ⟨c, checked, longer, settled⟩ :=
    renewal_extends_session env s _ _ now new (by decide) (by decide) renewed
  rw [letIn] at checked
  cases checked
  exact ⟨by decide, by decide, renewed, longer, settled s rfl⟩

end Keyring
