import Keyring.Proofs.Acceptance
import Keyring.Proofs.Expiry
import Keyring.Proofs.World

/-!
# Tokens that are issued

What is issued is accepted: its parts are found again, its header and its claims are read as they
were written, and its signature verifies under the public half of the key, whatever other candidates
there are.

* `Header.ofJson?_toJson` and `Token.ofText_sign` read a token that was signed.
* `Token.encode_eq_ok_iff` says when a token is issued, `Token.accepted_sign_iff` when it is accepted.
* `accepted_until_expiry` puts them together: a token is accepted up to its expiry, and no longer.
* `alive_unless_rounded_out` says of which tokens the expiry is rounded up out of the range of instants;
  these are never accepted (`dead_on_arrival`).
-/

namespace Keyring

open Json

/-! ## Headers -/

namespace Header

/-- The entries of the header that the named key signs. -/
def entries (keyName : String) : List (String × List Json.Token) :=
  [("typ", [.text "JWT"]), ("alg", [.text edDsa]), ("kid", [.text keyName])]

theorem read_entries (keyName : String) :
    shape.read ⟨[], none, none⟩ (recordTokens (entries keyName)) =
      .ok (⟨["kid", "typ"], some edDsa, some keyName⟩, []) := by
  have typ (behind : List Json.Token) :
      shape.entries true ⟨[], none, none⟩ (entryTokens ("typ", [.text "JWT"]) ++ behind) =
        shape.entries false ⟨["typ"], none, none⟩ behind := Shape.entries_entry rfl
  have alg (behind : List Json.Token) :
      shape.entries false ⟨["typ"], none, none⟩
          (.comma :: entryTokens ("alg", [.text edDsa]) ++ behind) =
        shape.entries false ⟨["typ"], some edDsa, none⟩ behind := Shape.entries_entry rfl
  have kid (behind : List Json.Token) :
      shape.entries false ⟨["typ"], some edDsa, none⟩
          (.comma :: entryTokens ("kid", [.text keyName]) ++ behind) =
        shape.entries false ⟨["kid", "typ"], some edDsa, some keyName⟩ behind :=
    Shape.entries_entry rfl
  exact (typ _).trans ((alg _).trans ((kid [.closing .curly]).trans (Shape.entries_end [])))

theorem ofJson?_toJson (keyName : String) :
    ofJson? (Bytes.ofText (toJson keyName)) = some ⟨edDsa, some keyName⟩ := by
  have lays : Lays (Bytes.ofText (toJson keyName)) (recordTokens (entries keyName)) := by
    rw [toJson, Bytes.ofText_ofList]
    exact (Laid.object
      [("typ", .text "JWT"), ("alg", .text edDsa), ("kid", .text keyName)]).whole
  unfold ofJson? Reader.parse Reader.check
  rw [ofBytes_of_lays lays, read_entries]
  rfl

end Header

namespace Token

/-! ## Signing -/

section Signing

variable {scheme : Scheme} {key : Key} {c c' : Claims} {candidates : List PublicKey} {t : Instant}

theorem toNat_lt_of_mem_joined {header claims signature : Bytes} {b : UInt8}
    (h : b ∈ joined header claims signature) : b.toNat < 128 := by
  simp only [joined, signedPart, List.mem_append, List.mem_cons] at h
  rcases h with (h | rfl | h) | rfl | h
  · exact Base64Url.toNat_lt_of_mem_encode h
  · decide
  · exact Base64Url.toNat_lt_of_mem_encode h
  · decide
  · exact Base64Url.toNat_lt_of_mem_encode h

/-- The text of a key's token that its signature is of. -/
def signedBy (key : Key) (c : Claims) : Bytes :=
  signedPart (Bytes.ofText (Header.toJson key.name)) (Bytes.ofText c.toJson)

theorem ofText_sign (scheme : Scheme) (key : Key) (c : Claims) :
    Bytes.ofText (sign scheme key c) =
      joined (Bytes.ofText (Header.toJson key.name)) (Bytes.ofText c.toJson)
        (scheme.sign key.seed (signedBy key c)) := by
  unfold sign
  rw [Bytes.ofText_ofList]
  exact Bytes.ofChars_map_ofUInt8 fun b hb => toNat_lt_of_mem_joined hb

/-- A token that was signed is accepted with the claims it was signed for, and with no others. -/
theorem accepted_sign_iff (issued : IsWord c.issued) (expires : IsWord c.expires) :
    Accepted scheme (sign scheme key c) candidates t c' ↔
      c' = c ∧ c.issued < c.expires ∧ t ≤ c.expiresAt ∧
        ∃ k ∈ candidates,
          scheme.verify k.bytes (signedBy key c) (scheme.sign key.seed (signedBy key c)) = true := by
  have whole := ofText_sign scheme key c
  have written := Claims.written_toJson issued expires
  constructor
  · rintro ⟨⟨header, claims, signature, whole', -, verified, written'⟩, lives, inTime⟩
    obtain ⟨rfl, rfl, rfl⟩ := joined_injective (whole'.symm.trans whole)
    have same : some c' = some c :=
      (Claims.ofObject?_eq_some_iff.mpr written').symm.trans
        (Claims.ofObject?_eq_some_iff.mpr written)
    cases same
    exact ⟨rfl, lives, inTime, verified⟩
  · rintro ⟨rfl, lives, inTime, verified⟩
    exact ⟨⟨_, _, _, whole, ⟨_, Header.ofJson?_toJson key.name, rfl⟩, verified, written⟩, lives,
      inTime⟩

end Signing

/-! ## Issuing -/

section Issuing

variable {scheme : Scheme} {user tokenId token : String} {lifetime : Duration} {key : Key}
  {now : Instant} {c : Claims}

/-- The rules for what is issued, one behind the other. -/
theorem issue_eq (user : String) (lifetime : Duration) (tokenId : String) (now : Instant) :
    issue user lifetime tokenId now =
      if lifetime < Duration.ofSeconds 1 then .error (.invalid .shortLifetime)
      else if user = "" then .error (.invalid .emptyUserId)
      else if tokenId = "" then .error (.invalid .emptyTokenId)
      else match now.plus? lifetime with
        | none => .error (.invalid .lifetimeOutOfRange)
        | some expiry => .ok ⟨user, tokenId, now.second, expiry.ceilSecond⟩ := by
  unfold issue
  simp only [String.isEmpty_iff]
  cases now.plus? lifetime
  all_goals
    dsimp only
    repeat' split
    all_goals rfl

theorem issue_eq_ok_iff :
    issue user lifetime tokenId now = .ok c ↔
      ¬ lifetime < Duration.ofSeconds 1 ∧ user ≠ "" ∧ tokenId ≠ "" ∧
        ∃ expiry, now.plus? lifetime = some expiry ∧
          c = ⟨user, tokenId, now.second, expiry.ceilSecond⟩ := by
  rw [issue_eq]
  by_cases short : lifetime < Duration.ofSeconds 1
  · simp [short]
  · by_cases noUser : user = ""
    · simp [short, noUser]
    · by_cases noTokenId : tokenId = ""
      · simp [short, noUser, noTokenId]
      · cases sum : now.plus? lifetime with
        | none => simp [short, noUser, noTokenId]
        | some expiry => simpa [short, noUser, noTokenId] using eq_comm

/-- Nothing is refused but for what it is. -/
theorem exists_of_issue_eq_error {e : Error} (h : issue user lifetime tokenId now = .error e) :
    ∃ cause, e = .invalid cause := by
  rw [issue_eq] at h
  repeat' split at h
  all_goals cases h
  all_goals exact ⟨_, rfl⟩

/-- A token is issued for claims that can be issued, and the key makes the rest of it. -/
theorem encode_eq_ok_iff :
    encode scheme user lifetime (some key) tokenId now = .ok token ↔
      ∃ c, issue user lifetime tokenId now = .ok c ∧ token = sign scheme key c := by
  unfold encode
  cases issue user lifetime tokenId now with
  | error e => simp [Except.map]
  | ok c => simp [Except.map, eq_comm]

theorem encode_eq_error_iff {e : Error} :
    encode scheme user lifetime (some key) tokenId now = .error e ↔
      issue user lifetime tokenId now = .error e := by
  unfold encode
  cases issue user lifetime tokenId now <;> simp [Except.map]

theorem exists_of_encode_eq_ok {key : Option Key}
    (h : encode scheme user lifetime key tokenId now = .ok token) :
    ∃ k, key = some k ∧ ∃ c, issue user lifetime tokenId now = .ok c ∧ token = sign scheme k c := by
  cases key with
  | none => cases h
  | some k => exact ⟨k, rfl, encode_eq_ok_iff.mp h⟩

theorem exists_of_encode_eq_error {key : Option Key} {e : Error}
    (h : encode scheme user lifetime key tokenId now = .error e) : ∃ cause, e = .invalid cause := by
  cases key with
  | none =>
    cases h
    exact ⟨_, rfl⟩
  | some k => exact exists_of_issue_eq_error (encode_eq_error_iff.mp h)

/-- Claims that are issued have seconds of 64 bits, and a life. -/
theorem words_of_issue (h : issue user lifetime tokenId now = .ok c) :
    IsWord c.issued ∧ IsWord c.expires ∧ c.issued < c.expires := by
  obtain ⟨long, -, -, expiry, sum, rfl⟩ := issue_eq_ok_iff.mp h
  obtain ⟨later, -⟩ := Instant.second_lt_of_plus? (Instant.one_le_seconds_of_not_lt long) sum
  have rounded := expiry.le_ceilSecond
  have first := now.inRange
  have last := expiry.inRange
  unfold IsWord
  dsimp only
  omega

/-- What is issued is accepted under its key exactly up to its expiry. -/
theorem accepted_of_issue (sound : scheme.Sound) {candidates : List PublicKey} {t : Instant}
    {c' : Claims} (issued : issue user lifetime tokenId now = .ok c)
    (known : scheme.publicKey key.seed ∈ candidates.map (·.bytes)) :
    Accepted scheme (sign scheme key c) candidates t c' ↔ c' = c ∧ t ≤ c.expiresAt := by
  obtain ⟨wordIssued, wordExpires, lives⟩ := words_of_issue issued
  obtain ⟨k, hk, half⟩ := List.mem_map.mp known
  have verified := sound key.seed (signedBy key c) key.seed_length
  rw [← half] at verified
  rw [accepted_sign_iff wordIssued wordExpires]
  constructor
  · rintro ⟨same, -, inTime, -⟩
    exact ⟨same, inTime⟩
  · rintro ⟨same, inTime⟩
    exact ⟨same, lives, inTime, k, hk, verified⟩

end Issuing

end Token

theorem Codec.encode_signed (scheme : Scheme) : (Codec.signed scheme).encode = Token.encode scheme :=
  rfl

/-! ## Lives of tokens -/

/-- A token that is issued is accepted with the claims it was issued for as long as its expiry has not
passed, if the public half of its key is among the candidates, and no longer. Its expiry is the end of
its lifetime, rounded up to a whole second. -/
theorem accepted_until_expiry (scheme : Scheme) (sound : scheme.Sound) (user tokenId token : String)
    (lifetime : Duration) (key : Key) (now : Instant)
    (issued : (Codec.signed scheme).encode user lifetime (some key) tokenId now = .ok token) :
    ∃ expiry, now.plus? lifetime = some expiry ∧
      (expiry.ceilSecond ≤ Instant.maxSecond →
        ∃ last : Instant, last.second = expiry.ceilSecond ∧ last.nanos = 0 ∧
          (∀ t, t ≤ expiry → t ≤ last) ∧
          0 ≤ last.nanosSince expiry ∧ last.nanosSince expiry < 1000000000 ∧
          ∀ candidates : List PublicKey, scheme.publicKey key.seed ∈ candidates.map (·.bytes) →
            ∀ t, ((Codec.signed scheme).decode token candidates t).1 =
              if t ≤ last then .ok ⟨user, tokenId, now.second, last.second⟩
              else .error .invalidCredentials) := by
  rw [Codec.encode_signed] at issued
  obtain ⟨c, issue, rfl⟩ := Token.encode_eq_ok_iff.mp issued
  obtain ⟨long, -, -, expiry, sum, rfl⟩ := Token.issue_eq_ok_iff.mp issue
  obtain ⟨-, plain⟩ := Instant.second_lt_of_plus? (Instant.one_le_seconds_of_not_lt long) sum
  refine ⟨expiry, sum, fun high => ⟨Instant.ofSecond expiry.ceilSecond, ?_⟩⟩
  obtain ⟨second, nanos⟩ := Instant.ofSecond_ceilSecond high
  obtain ⟨notBefore, below⟩ := Instant.nanosSince_ceilSecond high plain
  have later := Instant.le_ofSecond_ceilSecond high
  refine ⟨second, nanos, fun t early => Instant.le_trans early later, notBefore, below, ?_⟩
  intro candidates known t
  rw [second]
  split
  · rename_i inTime
    refine Codec.decode_signed_eq_ok_iff.mpr ?_
    exact (Token.accepted_of_issue sound issue known).mpr ⟨rfl, inTime⟩
  · rename_i expired
    refine Codec.decode_signed_error fun c' accepted => expired ?_
    exact ((Token.accepted_of_issue sound issue known).mp accepted).2

/-- A token issued in the leap second before 1970, and its life of a second and a quarter. -/
theorem accepted_until_expiry_from_leap_second :
    let key : Key := ⟨"a", List.replicate 32 7, Instant.earliest, rfl⟩
    let now : Instant := ⟨-1, 1500000000, by decide, by decide, by decide⟩
    let last : Instant := ⟨1, 0, by decide, by decide, by decide⟩
    ∃ token, (Codec.signed .plain).encode "é" ⟨1, 250000000, by decide, by decide⟩ (some key) "\n"
        now = .ok token ∧
      ∀ candidates : List PublicKey,
        Scheme.plain.publicKey key.seed ∈ candidates.map (·.bytes) →
          ∀ t, ((Codec.signed .plain).decode token candidates t).1 =
            if t ≤ last then .ok ⟨"é", "\n", -1, 1⟩ else .error .invalidCredentials := by
  intro key now last
  have ending : now.plus? ⟨1, 250000000, by decide, by decide⟩ =
      some ⟨0, 750000000, by decide, by decide, by decide⟩ := by decide
  have issued : (Codec.signed .plain).encode "é" ⟨1, 250000000, by decide, by decide⟩ (some key)
      "\n" now = .ok (Token.sign .plain key ⟨"é", "\n", -1, 1⟩) := by
    rw [Codec.encode_signed]
    refine Token.encode_eq_ok_iff.mpr ⟨_, Token.issue_eq_ok_iff.mpr ?_, rfl⟩
    exact ⟨by decide, by decide, by decide, _, ending, rfl⟩
  refine ⟨_, issued, ?_⟩
  obtain ⟨expiry, sum, life⟩ := accepted_until_expiry .plain Scheme.sound_plain _ _ _ _ _ _ issued
  rw [ending] at sum
  cases sum
  obtain ⟨last', second, nanos, -, -, -, answers⟩ := life (by decide)
  have same : last' = last := by
    cases last'
    cases second
    cases nanos
    rfl
  rw [same] at answers
  exact answers

/-! ## Tokens that are dead from the beginning -/

/-- What is to hold of the claims of a token that is issued now, for a lifetime that is over at
`ending`. -/
structure Claims.Alive (c : Claims) (now ending : Instant) : Prop where
  instant : Instant.of? c.expires 0 = some c.expiresAt
  later : c.issued < c.expires
  covers : ending ≤ c.expiresAt
  current : c.isExpiredAt now = false

/-- For a lifetime that is over within the last second no claims can be alive. -/
theorem Claims.not_alive_of_rounded_out {ending : Instant}
    (out : ending.second = Instant.maxSecond ∧ 0 < ending.nanos) (c : Claims) (now : Instant) :
    ¬ c.Alive now ending := by
  intro alive
  obtain ⟨-, nanos⟩ := Instant.of?_eq_some_iff.mp alive.instant
  have last : c.expiresAt.second ≤ Instant.maxSecond := c.expiresAt.inRange.2
  have covers := Instant.le_iff.mp alive.covers
  omega

/-- Claims that are issued are alive if their expiry is not rounded up out of range. -/
theorem Token.alive_of_issue {user tokenId : String} {lifetime : Duration} {now ending : Instant}
    (long : ¬ lifetime < Duration.ofSeconds 1) (sum : now.plus? lifetime = some ending)
    (high : ending.ceilSecond ≤ Instant.maxSecond) :
    Claims.Alive ⟨user, tokenId, now.second, ending.ceilSecond⟩ now ending := by
  obtain ⟨later, -⟩ := Instant.second_lt_of_plus? (Instant.one_le_seconds_of_not_lt long) sum
  obtain ⟨second, nanos⟩ := Instant.ofSecond_ceilSecond high
  have rounded := ending.le_ceilSecond.1
  refine ⟨Instant.of?_eq_some_iff.mpr ⟨second, nanos⟩, ?_, Instant.le_ofSecond_ceilSecond high, ?_⟩
  · exact Int.lt_of_lt_of_le later rounded
  · refine decide_eq_false ?_
    rw [Instant.lt_iff, Claims.expiresAt, second]
    omega

/-- No token is issued for less than a second, or for a lifetime that never ends. -/
theorem Token.exists_encode_eq_error {scheme : Scheme} {user tokenId : String} {lifetime : Duration}
    {key : Option Key} {now : Instant}
    (never : lifetime < Duration.ofSeconds 1 ∨ now.plus? lifetime = none) :
    ∃ cause, encode scheme user lifetime key tokenId now = .error (.invalid cause) := by
  cases encoded : encode scheme user lifetime key tokenId now with
  | error e =>
    obtain ⟨cause, rfl⟩ := exists_of_encode_eq_error encoded
    exact ⟨cause, rfl⟩
  | ok token =>
    obtain ⟨k, rfl, c, issue, rfl⟩ := exists_of_encode_eq_ok encoded
    obtain ⟨long, -, -, ending, sum, rfl⟩ := issue_eq_ok_iff.mp issue
    rcases never with short | none
    · exact absurd short long
    · rw [none] at sum
      cases sum

/-- A token that is issued is alive, unless its lifetime ends within the last second: its expiry is
then rounded up to a second that no instant has. Nothing else that is not alive is issued, and for such
a lifetime no claims would be. -/
theorem alive_unless_rounded_out (scheme : Scheme) (user tokenId : String) (lifetime : Duration)
    (key : Option Key) (now : Instant) :
    (∀ token, (Codec.signed scheme).encode user lifetime key tokenId now = .ok token →
      ∃ k c ending, key = some k ∧ token = Token.sign scheme k c ∧
        now.plus? lifetime = some ending ∧ c = ⟨user, tokenId, now.second, ending.ceilSecond⟩ ∧
        c.issued < c.expires ∧
        (c.Alive now ending ↔ ¬ (ending.second = Instant.maxSecond ∧ 0 < ending.nanos))) ∧
    (∀ e, (Codec.signed scheme).encode user lifetime key tokenId now = .error e →
      ∃ cause, e = .invalid cause) ∧
    (lifetime < Duration.ofSeconds 1 ∨ now.plus? lifetime = none →
      ∃ cause, (Codec.signed scheme).encode user lifetime key tokenId now =
        .error (.invalid cause)) ∧
    ∀ ending : Instant, ending.second = Instant.maxSecond ∧ 0 < ending.nanos →
      ∀ c : Claims, ¬ c.Alive now ending := by
  rw [Codec.encode_signed]
  refine ⟨?_, fun e => Token.exists_of_encode_eq_error, Token.exists_encode_eq_error, ?_⟩
  · intro token issued
    obtain ⟨k, rfl, c, issue, rfl⟩ := Token.exists_of_encode_eq_ok issued
    obtain ⟨-, -, lives⟩ := Token.words_of_issue issue
    obtain ⟨long, -, -, ending, sum, rfl⟩ := Token.issue_eq_ok_iff.mp issue
    refine ⟨k, _, ending, rfl, rfl, sum, rfl, lives, ?_⟩
    constructor
    · exact fun alive out => Claims.not_alive_of_rounded_out out _ now alive
    · intro range
      rw [← Instant.maxSecond_lt_ceilSecond_iff, Int.not_lt] at range
      exact Token.alive_of_issue long sum range
  · exact fun ending out c => Claims.not_alive_of_rounded_out out c now

/-- A token issued for a second and a half, of which the last second is not over. It has expired when
it is issued, and not even its own key accepts it. -/
theorem dead_on_arrival :
    let key : Key := ⟨"key-1", List.replicate 32 7, Instant.earliest, rfl⟩
    let now : Instant := ⟨8210266876798, 0, by decide, by decide, by decide⟩
    let ending : Instant := ⟨8210266876799, 500000000, by decide, by decide, by decide⟩
    let c : Claims := ⟨"user-42", "tok-1", 8210266876798, 8210266876800⟩
    now.plus? ⟨1, 500000000, by decide, by decide⟩ = some ending ∧
      (Codec.signed .plain).encode "user-42" ⟨1, 500000000, by decide, by decide⟩ (some key) "tok-1"
        now = .ok (Token.sign .plain key c) ∧
      Instant.of? c.expires 0 = none ∧ c.isExpiredAt now = true ∧ ¬ c.Alive now ending ∧
      ∀ candidates : List PublicKey,
        ((Codec.signed .plain).decode (Token.sign .plain key c) candidates now).1 =
          .error .invalidCredentials := by
  intro key now ending c
  have sum : now.plus? ⟨1, 500000000, by decide, by decide⟩ = some ending := by decide
  have expired : c.isExpiredAt now = true := by decide
  have issue : Token.issue "user-42" ⟨1, 500000000, by decide, by decide⟩ "tok-1" now = .ok c :=
    Token.issue_eq_ok_iff.mpr ⟨by decide, by decide, by decide, ending, sum, rfl⟩
  refine ⟨sum, ?_, by decide, expired, ?_, ?_⟩
  · rw [Codec.encode_signed]
    exact Token.encode_eq_ok_iff.mpr ⟨c, issue, rfl⟩
  · intro alive
    rw [alive.current] at expired
    cases expired
  · intro candidates
    obtain ⟨wordIssued, wordExpires, -⟩ := Token.words_of_issue issue
    refine Codec.decode_signed_error fun c' accepted => ?_
    obtain ⟨rfl, -, inTime, -⟩ := (Token.accepted_sign_iff wordIssued wordExpires).mp accepted
    exact inTime (of_decide_eq_true expired)

end Keyring
