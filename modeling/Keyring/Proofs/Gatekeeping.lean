import Keyring.Proofs.Issuing
import Keyring.Service.Basic

/-!
# What the gate lets in and gives out

The gate checks tokens against all keys in use, and issues them with the newest of these. What it
issues it has checked before, so that a token that leaves it is one that its key accepts.

* `Gate.answer_issue` and its like give the answers without the events that report on them.
* `Gate.check_eq_ok_iff` says which tokens are let in, `Gate.issue_eq_ok_iff` which are issued.
* `Service.authenticate_of_due` and its like say what becomes of a token that is presented.
* `Service.Issues` says that a service issues a token, to a user who logs in or as a renewal.
-/

namespace Keyring

variable {token token' user tokenId : String} {now : Instant} {c : Claims}

namespace Gate

variable {g : Gate}

/-! ## Answers without their events -/

theorem answer_issue (g : Gate) (user tokenId : String) (now : Instant) :
    (g.issue user tokenId now).1 =
      match g.codec.encode user g.tokenLifetime g.keys.current tokenId now with
      | .error e => .error e
      | .ok token =>
        match (g.codec.decode token (g.keys.current.toList.map (·.publicKey g.scheme)) now).1 with
        | .error _ => .error (.signing .selfCheck)
        | .ok claims => .ok ⟨claims, token⟩ := by
  unfold issue
  cases g.codec.encode user g.tokenLifetime g.keys.current tokenId now with
  | error e => rfl
  | ok token =>
    dsimp only
    split
    · rename_i decoded
      rw [decoded]
    · rename_i decoded
      rw [decoded]

theorem answer_renew (g : Gate) (claims : Claims) (token tokenId : String) (now : Instant) :
    (g.renew claims token tokenId now).1 =
      match (g.issue claims.subject tokenId now).1 with
      | .error e => ⟨claims, token, .failed e⟩
      | .ok issued => ⟨issued.claims, issued.token, .renewed⟩ := by
  unfold renew
  obtain ⟨answer, events⟩ := g.issue claims.subject tokenId now
  cases answer <;> rfl

theorem answer_authenticate (g : Gate) (token : String) (autoRenew : Bool) (tokenId : String)
    (now : Instant) :
    (g.authenticate token autoRenew tokenId now).1 =
      match (g.check token now).1 with
      | .error e => .error e
      | .ok claims =>
        if autoRenew = true ∧ claims.remainingAt now < g.renewalDelta then
          .ok (g.renew claims token tokenId now).1
        else .ok ⟨claims, token, .notDue⟩ := by
  unfold authenticate isRenewalDue
  obtain ⟨answer, events⟩ := g.check token now
  cases answer with
  | error e => rfl
  | ok claims =>
    simp only [Bool.and_eq_true, decide_eq_true_eq]
    split <;> rfl

theorem answer_login (g : Gate) (verify : CredentialVerifier) (credentials : Credentials)
    (tokenId : String) (now : Instant) :
    (g.login verify credentials tokenId now).1 =
      match verify credentials with
      | .error e => .error e
      | .ok none => .error .invalidCredentials
      | .ok (some user) => (g.issue user tokenId now).1 := by
  unfold login
  rcases verify credentials with e | none | user
  · rfl
  · rfl
  · dsimp only
    obtain ⟨answer, events⟩ := g.issue user tokenId now
    cases answer <;> rfl

/-! ## Tokens that are let in -/

theorem check_eq_ok_iff (codec : g.codec = .signed g.scheme) :
    (g.check token now).1 = .ok c ↔
      Token.Accepted g.scheme token (g.keys.publicKeys g.scheme) now c := by
  rw [← Codec.decode_signed_eq_ok_iff]
  unfold check
  rw [codec]
  split
  · rename_i empty
    constructor
    · intro h
      cases h
    · intro decoded
      obtain ⟨header, claims, signature, whole, -⟩ := (Codec.decode_signed_eq_ok_iff.mp decoded).parts
      rw [Token.ofText_ne_nil_of_joined whole] at empty
      cases empty
  · split
    · rename_i decoded
      rw [decoded]
    · rename_i decoded
      rw [decoded]
    · rename_i decoded
      rw [decoded]
      constructor <;> exact nofun

theorem error_of_check {e : Error} (h : (g.check token now).1 = .error e) :
    e = .invalidCredentials := by
  unfold check at h
  repeat' split at h
  all_goals cases h
  all_goals rfl

/-! ## Tokens that are issued -/

/-- A token is issued with the newest key, once it is found that this key accepts it. -/
theorem issue_eq_ok_iff (codec : g.codec = .signed g.scheme) :
    (g.issue user tokenId now).1 = .ok ⟨c, token⟩ ↔
      ∃ key, g.keys.current = some key ∧ Token.issue user g.tokenLifetime tokenId now = .ok c ∧
        token = Token.sign g.scheme key c ∧
          Token.Accepted g.scheme token [key.publicKey g.scheme] now c := by
  rw [answer_issue, codec, Codec.encode_signed]
  constructor
  · intro h
    split at h
    · cases h
    · rename_i encoded
      obtain ⟨key, current, c', issued, rfl⟩ := Token.exists_of_encode_eq_ok encoded
      rw [current] at h
      split at h
      · cases h
      · rename_i decoded
        cases h
        -- the claims that are given out were read from the token: they are those that were signed
        have accepted := Codec.decode_signed_eq_ok_iff.mp decoded
        obtain ⟨wordIssued, wordExpires, -⟩ := Token.words_of_issue issued
        obtain ⟨rfl, -⟩ := (Token.accepted_sign_iff wordIssued wordExpires).mp accepted
        exact ⟨key, current, issued, rfl, accepted⟩
  · rintro ⟨key, current, issued, rfl, accepted⟩
    have encoded : Token.encode g.scheme user g.tokenLifetime (some key) tokenId now =
        .ok (Token.sign g.scheme key c) := Token.encode_eq_ok_iff.mpr ⟨c, issued, rfl⟩
    rw [current, encoded]
    simp only [Option.toList_some, List.map_cons, List.map_nil,
      Codec.decode_signed_eq_ok_iff.mpr accepted]

/-- With a sound scheme every token is issued that has not expired already. -/
theorem issue_of_sound (sound : g.scheme.Sound) (codec : g.codec = .signed g.scheme) {key : Key}
    (current : g.keys.current = some key)
    (issued : Token.issue user g.tokenLifetime tokenId now = .ok c) (inTime : now ≤ c.expiresAt) :
    (g.issue user tokenId now).1 = .ok ⟨c, Token.sign g.scheme key c⟩ := by
  have half : g.scheme.publicKey key.seed ∈ [key.publicKey g.scheme].map (·.bytes) :=
    List.mem_singleton_self _
  refine (issue_eq_ok_iff codec).mpr ⟨key, current, issued, rfl, ?_⟩
  exact (Token.accepted_of_issue sound issued half).mpr ⟨rfl, inTime⟩

/-- What is issued is let in at once. -/
theorem check_of_issue (codec : g.codec = .signed g.scheme)
    (h : (g.issue user tokenId now).1 = .ok ⟨c, token⟩) : (g.check token now).1 = .ok c := by
  obtain ⟨key, current, -, -, accepted⟩ := (issue_eq_ok_iff codec).mp h
  refine (check_eq_ok_iff codec).mpr (accepted.of_bytes ?_)
  intro k mem
  rw [List.mem_singleton.mp mem]
  exact List.mem_map_of_mem (List.mem_map_of_mem (List.mem_of_mem_head? current))

theorem login_eq_ok_iff {verify : CredentialVerifier} {credentials : Credentials}
    {issued : IssuedToken} :
    (g.login verify credentials tokenId now).1 = .ok issued ↔
      ∃ user, verify credentials = .ok (some user) ∧
        (g.issue user tokenId now).1 = .ok issued := by
  rw [answer_login]
  rcases verify credentials with e | none | user <;> simp

theorem renew_of_ok {claims : Claims} {issued : IssuedToken} (token : String)
    (h : (g.issue claims.subject tokenId now).1 = .ok issued) :
    (g.renew claims token tokenId now).1 = ⟨issued.claims, issued.token, .renewed⟩ := by
  rw [answer_renew, h]

theorem renew_of_error {claims : Claims} {e : Error} (token : String)
    (h : (g.issue claims.subject tokenId now).1 = .error e) :
    (g.renew claims token tokenId now).1 = ⟨claims, token, .failed e⟩ := by
  rw [answer_renew, h]

theorem renewal_renew_eq_renewed_iff {claims : Claims} :
    (g.renew claims token tokenId now).1.renewal = .renewed ↔
      ∃ issued, (g.issue claims.subject tokenId now).1 = .ok issued := by
  rw [answer_renew]
  cases (g.issue claims.subject tokenId now).1 <;> simp

theorem renewal_renew_eq_failed_iff {claims : Claims} {e : Error} :
    (g.renew claims token tokenId now).1.renewal = .failed e ↔
      (g.issue claims.subject tokenId now).1 = .error e := by
  rw [answer_renew]
  cases (g.issue claims.subject tokenId now).1 <;> simp

/-- A renewal gives a token of the newest key that is let in, or the token at hand and the reason. -/
theorem renew_cases (codec : g.codec = .signed g.scheme) (claims : Claims)
    (token tokenId : String) (now : Instant) :
    (∃ key ending c, g.keys.current = some key ∧ now.plus? g.tokenLifetime = some ending ∧
      c = ⟨claims.subject, tokenId, now.second, ending.ceilSecond⟩ ∧
      (g.check (Token.sign g.scheme key c) now).1 = .ok c ∧
      (g.renew claims token tokenId now).1 = ⟨c, Token.sign g.scheme key c, .renewed⟩) ∨
    ∃ e, (g.renew claims token tokenId now).1 = ⟨claims, token, .failed e⟩ := by
  cases issued : (g.issue claims.subject tokenId now).1 with
  | error e => exact Or.inr ⟨e, renew_of_error token issued⟩
  | ok new =>
    obtain ⟨c, token'⟩ := new
    have letIn := check_of_issue codec issued
    have renewed := renew_of_ok token issued
    obtain ⟨key, current, made, rfl, -⟩ := (issue_eq_ok_iff codec).mp issued
    obtain ⟨-, -, -, ending, sum, same⟩ := Token.issue_eq_ok_iff.mp made
    exact Or.inl ⟨key, ending, c, current, sum, same, letIn, renewed⟩

theorem issue_of_renew {claims : Claims}
    (h : (g.renew claims token tokenId now).1 = ⟨c, token', .renewed⟩) :
    (g.issue claims.subject tokenId now).1 = .ok ⟨c, token'⟩ := by
  rw [answer_renew] at h
  split at h
  · cases h
  · rename_i issued
    cases h
    exact issued

/-- A token that is given in the place of another was issued to the same user, as the life of the other
was about to end. -/
theorem renewal_of_authenticate {autoRenew : Bool}
    (h : (g.authenticate token autoRenew tokenId now).1 = .ok ⟨c, token', .renewed⟩) :
    ∃ claims, (g.check token now).1 = .ok claims ∧
      claims.remainingAt now < g.renewalDelta ∧
        (g.issue claims.subject tokenId now).1 = .ok ⟨c, token'⟩ := by
  rw [answer_authenticate] at h
  split at h
  · cases h
  · rename_i claims checked
    split at h
    · rename_i due
      exact ⟨claims, checked, due.2, issue_of_renew (Except.ok.inj h)⟩
    · cases h

end Gate

namespace Service

variable {env : Environment} {s : Service}

theorem check_eq_ok_iff :
    (s.check env (.signed env.scheme) token now).1 = .ok c ↔
      Token.Accepted env.scheme token (s.snapshot.publicKeys env.scheme) now c :=
  Gate.check_eq_ok_iff (g := s.gate env (.signed env.scheme)) rfl

/-- Of a service only the keys in use matter. -/
theorem check_congr {t : Service} (same : t.snapshot = s.snapshot) (env : Environment)
    (codec : Codec) (token : String) (now : Instant) :
    (t.check env codec token now).1 = (s.check env codec token now).1 := by
  unfold check gate
  rw [same]

/-- A token that a key in use has signed is let in, whoever issued it. -/
theorem check_sign (sound : env.scheme.Sound) {key : Key} (mem : key ∈ s.snapshot)
    (issued : Json.IsWord c.issued) (expires : Json.IsWord c.expires) (lives : c.issued < c.expires)
    (inTime : now ≤ c.expiresAt) :
    (s.check env (.signed env.scheme) (Token.sign env.scheme key c) now).1 = .ok c := by
  refine check_eq_ok_iff.mpr ((Token.accepted_sign_iff issued expires).mpr ?_)
  refine ⟨rfl, lives, inTime, key.publicKey env.scheme, List.mem_map_of_mem mem, ?_⟩
  exact sound key.seed (Token.signedBy key c) key.seed_length

theorem answer_login (env : Environment) (codec : Codec) (verify : CredentialVerifier)
    (credentials : Credentials) (now : Instant) (s : Service) :
    (s.login env codec verify credentials now).1 =
      ((s.gate env codec).login verify credentials (s.nextTokenId env) now).1 := by
  unfold login
  dsimp only
  split <;> rfl

theorem answer_authenticate (env : Environment) (codec : Codec) (token : String) (autoRenew : Bool)
    (now : Instant) (s : Service) :
    (s.authenticate env codec token autoRenew now).1 =
      ((s.gate env codec).authenticate token autoRenew (s.nextTokenId env) now).1 := by
  unfold authenticate
  split
  · rename_i answer
    rw [answer]
  · rename_i answer
    rw [answer]
    split <;> rfl

section Presented

variable {codec : Codec} {e : Error}

theorem authenticate_of_error (refused : (s.check env codec token now).1 = .error e)
    (autoRenew : Bool) : (s.authenticate env codec token autoRenew now).1 = .error e := by
  have refused' : ((s.gate env codec).check token now).1 = .error e := refused
  rw [answer_authenticate, Gate.answer_authenticate, refused']

theorem authenticate_of_due (checked : (s.check env codec token now).1 = .ok c)
    (due : c.remainingAt now < env.config.renewalDelta) :
    (s.authenticate env codec token true now).1 =
      .ok ((s.gate env codec).renew c token (s.nextTokenId env) now).1 := by
  have checked' : ((s.gate env codec).check token now).1 = .ok c := checked
  rw [answer_authenticate, Gate.answer_authenticate, checked']
  exact if_pos ⟨rfl, due⟩

theorem authenticate_of_not_due (checked : (s.check env codec token now).1 = .ok c)
    {autoRenew : Bool}
    (notDue : ¬ (autoRenew = true ∧ c.remainingAt now < env.config.renewalDelta)) :
    (s.authenticate env codec token autoRenew now).1 = .ok ⟨c, token, .notDue⟩ := by
  have checked' : ((s.gate env codec).check token now).1 = .ok c := checked
  rw [answer_authenticate, Gate.answer_authenticate, checked']
  exact if_neg notDue

end Presented

/-- The service issues a token with these claims. -/
inductive Issues (env : Environment) (s : Service) (c : Claims) (token : String) : Prop where
  | login (verify : CredentialVerifier) (credentials : Credentials) (now : Instant)
    (answer : (s.login env (.signed env.scheme) verify credentials now).1 = .ok ⟨c, token⟩)
  | renewal (old : String) (autoRenew : Bool) (now : Instant)
    (answer : (s.authenticate env (.signed env.scheme) old autoRenew now).1 =
      .ok ⟨c, token, .renewed⟩)

theorem Issues.issued (h : s.Issues env c token) :
    ∃ user now, ((s.gate env (.signed env.scheme)).issue user (s.nextTokenId env) now).1 =
      .ok ⟨c, token⟩ := by
  cases h with
  | login verify credentials now answer =>
    rw [answer_login] at answer
    obtain ⟨user, -, issued⟩ := Gate.login_eq_ok_iff.mp answer
    exact ⟨user, now, issued⟩
  | renewal old autoRenew now answer =>
    rw [answer_authenticate] at answer
    obtain ⟨claims, -, -, issued⟩ := Gate.renewal_of_authenticate answer
    exact ⟨claims.subject, now, issued⟩

/-- What a service issues is signed with the newest key in use, which accepts it. -/
theorem Issues.signed (h : s.Issues env c token) :
    ∃ key now, s.snapshot.current = some key ∧ token = Token.sign env.scheme key c ∧
      Token.Accepted env.scheme token [key.publicKey env.scheme] now c := by
  obtain ⟨user, now, issued⟩ := h.issued
  obtain ⟨key, current, -, signed, accepted⟩ := (Gate.issue_eq_ok_iff rfl).mp issued
  exact ⟨key, now, current, signed, accepted⟩

/-- A known user gets a token, if there is a key and the claims have not expired already. -/
theorem issues_of_login (sound : env.scheme.Sound) (verify : CredentialVerifier)
    (credentials : Credentials) {key : Key} (known : verify credentials = .ok (some user))
    (current : s.snapshot.current = some key)
    (issued : Token.issue user env.config.tokenLifetime (s.nextTokenId env) now = .ok c)
    (inTime : now ≤ c.expiresAt) : s.Issues env c (Token.sign env.scheme key c) := by
  refine .login verify credentials now ?_
  rw [answer_login]
  refine Gate.login_eq_ok_iff.mpr ⟨user, known, ?_⟩
  exact Gate.issue_of_sound sound rfl current issued inTime

end Service

end Keyring
