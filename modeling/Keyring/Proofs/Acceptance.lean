import Keyring.Codec
import Keyring.Proofs.Base64Url
import Keyring.Proofs.ClaimsObject

/-!
# Which tokens are accepted

A token is accepted with its claims exactly under a condition that does not mention how keys are
tried: its parts are base64url, its header names the algorithm, some candidate verifies its signature,
its claims are an object of the four fields, and it is in time. Otherwise the credentials are invalid.

* `Token.Accepted` is the condition, `decode_eq_ok_iff` says that it decides.
* `accepted_iff_decode` draws the consequences about candidates and about the name in the header.
-/

namespace Keyring

namespace Token

/-! ## Parts -/

theorem splitLast?_eq_some_iff {c : UInt8} {bytes front back : Bytes} :
    splitLast? c bytes = some (front, back) ↔ bytes = front ++ c :: back ∧ c ∉ back := by
  constructor
  · intro h
    unfold splitLast? at h
    split at h
    · cases h
    · rename_i x rest last
      cases h
      have whole := List.takeWhile_append_dropWhile (p := (· != c)) (l := bytes.reverse)
      have stop := List.head?_dropWhile_not (· != c) bytes.reverse
      rw [last] at whole stop
      obtain rfl : x = c := by simpa using stop
      refine ⟨?_, ?_⟩
      · have turned := congrArg List.reverse whole
        simpa using turned.symm
      · intro mem
        have other := List.mem_takeWhile_imp (List.mem_reverse.mp mem)
        simp at other
  · rintro ⟨rfl, free⟩
    have back' : ∀ x ∈ back.reverse, (x != c) = true := by
      intro x hx
      refine bne_iff_ne.mpr ?_
      rintro rfl
      exact free (List.mem_reverse.mp hx)
    have turned : (front ++ c :: back).reverse = back.reverse ++ c :: front.reverse := by simp
    have behind : (front ++ c :: back).reverse.dropWhile (· != c) = c :: front.reverse := by
      rw [turned, List.dropWhile_append_of_pos back', List.dropWhile_cons_of_neg (by simp)]
    have before : (front ++ c :: back).reverse.takeWhile (· != c) = back.reverse := by
      rw [turned, List.takeWhile_append_of_pos back', List.takeWhile_cons_of_neg (by simp),
        List.append_nil]
    unfold splitLast?
    rw [behind, before, List.reverse_reverse]
    simp

theorem decodeBase64?_eq_some_iff {text bytes : Bytes} :
    decodeBase64? text = some bytes ↔ Base64Url.encode bytes = text := by
  unfold decodeBase64?
  split
  · rename_i read h
    have written := Base64Url.decode_eq_ok_iff.mp h
    constructor
    · rintro ⟨⟩
      exact written
    · rintro rfl
      rw [Base64Url.decode_encode] at h
      exact congrArg some (Except.ok.inj h).symm
  · rename_i e h
    constructor
    · exact nofun
    · intro written
      rw [Base64Url.decode_eq_ok_iff.mpr written] at h
      cases h

theorem encode_injective {a b : Bytes} (h : Base64Url.encode a = Base64Url.encode b) : a = b := by
  have read := Base64Url.decode_eq_ok_iff.mpr h
  rw [Base64Url.decode_encode] at read
  exact (Except.ok.inj read).symm

theorem dot_not_mem_encode (bytes : Bytes) : 46 ∉ Base64Url.encode bytes :=
  Base64Url.not_mem_encode (by decide) bytes

/-- The text that is signed, for a header and claims of these octets. -/
def signedPart (header claims : Bytes) : Bytes :=
  Base64Url.encode header ++ 46 :: Base64Url.encode claims

/-- The text of a token whose parts stand for these octets. -/
def joined (header claims signature : Bytes) : Bytes :=
  signedPart header claims ++ 46 :: Base64Url.encode signature

theorem ofBytes?_joined (header claims signature : Bytes) :
    Parts.ofBytes? (joined header claims signature) =
      some ⟨Base64Url.encode header, Base64Url.encode claims, Base64Url.encode signature⟩ := by
  have outer : splitLast? 46 (joined header claims signature) =
      some (signedPart header claims, Base64Url.encode signature) :=
    splitLast?_eq_some_iff.mpr ⟨rfl, dot_not_mem_encode signature⟩
  have inner : splitLast? 46 (signedPart header claims) =
      some (Base64Url.encode header, Base64Url.encode claims) :=
    splitLast?_eq_some_iff.mpr ⟨rfl, dot_not_mem_encode claims⟩
  unfold Parts.ofBytes?
  rw [outer]
  simp only [bind, Option.bind]
  rw [inner]

theorem parts_of_ofBytes? {bytes : Bytes} {p : Parts} (h : Parts.ofBytes? bytes = some p) :
    bytes = p.signed ++ 46 :: p.signature := by
  obtain ⟨⟨signed, signature⟩, outer, h⟩ := Option.bind_eq_some_iff.mp h
  obtain ⟨⟨header, claims⟩, inner, h⟩ := Option.bind_eq_some_iff.mp h
  cases h
  obtain ⟨rfl, -⟩ := splitLast?_eq_some_iff.mp outer
  obtain ⟨rfl, -⟩ := splitLast?_eq_some_iff.mp inner
  rfl

/-- A token has its parts in one way. -/
theorem joined_injective {header header' claims claims' signature signature' : Bytes}
    (h : joined header claims signature = joined header' claims' signature') :
    header = header' ∧ claims = claims' ∧ signature = signature' := by
  have parts := ofBytes?_joined header claims signature
  rw [h, ofBytes?_joined] at parts
  obtain ⟨sameHeader, sameClaims, sameSignature⟩ := Parts.mk.inj (Option.some.inj parts)
  exact ⟨(encode_injective sameHeader).symm, (encode_injective sameClaims).symm,
    (encode_injective sameSignature).symm⟩

/-! ## Candidates -/

section Candidates

variable {scheme : Scheme} {token token' : String} {candidates others : List PublicKey}
  {now : Instant} {c : Claims}

@[simp] theorem mem_ordered {keyName : Option String} {k : PublicKey} :
    k ∈ ordered keyName candidates ↔ k ∈ candidates := by
  by_cases named : some k.name = keyName <;> simp [ordered, named]

theorem claims?_eq_some_iff {p : Parts} {k : PublicKey} :
    claims? scheme p k = some c ↔
      ∃ signature claims, Base64Url.encode signature = p.signature ∧
        Base64Url.encode claims = p.claims ∧
          scheme.verify k.bytes p.signed signature = true ∧ c.Written claims := by
  constructor
  · intro h
    obtain ⟨signature, signed, h⟩ := Option.bind_eq_some_iff.mp h
    split at h
    · rename_i verified
      obtain ⟨claims, read, object⟩ := Option.bind_eq_some_iff.mp h
      exact ⟨signature, claims, decodeBase64?_eq_some_iff.mp signed,
        decodeBase64?_eq_some_iff.mp read, verified, Claims.ofObject?_eq_some_iff.mp object⟩
    · cases h
  · rintro ⟨signature, claims, signed, read, verified, written⟩
    refine Option.bind_eq_some_iff.mpr ⟨signature, decodeBase64?_eq_some_iff.mpr signed, ?_⟩
    rw [if_pos verified]
    exact Option.bind_eq_some_iff.mpr
      ⟨claims, decodeBase64?_eq_some_iff.mpr read, Claims.ofObject?_eq_some_iff.mpr written⟩

/-- Whichever candidate comes first, the claims are those of the token. -/
theorem findSome?_claims?_eq_some_iff {p : Parts} {keys : List PublicKey} :
    keys.findSome? (claims? scheme p) = some c ↔ ∃ k ∈ keys, claims? scheme p k = some c := by
  constructor
  · exact List.exists_of_findSome?_eq_some
  · rintro ⟨k, hk, verified⟩
    obtain ⟨c', found⟩ : ∃ c', keys.findSome? (claims? scheme p) = some c' := by
      refine Option.isSome_iff_exists.mp (List.findSome?_isSome_iff.mpr ⟨k, hk, ?_⟩)
      rw [verified]
      rfl
    obtain ⟨k', -, verified'⟩ := List.exists_of_findSome?_eq_some found
    obtain ⟨-, claims, -, read, -, written⟩ := claims?_eq_some_iff.mp verified
    obtain ⟨-, claims', -, read', -, written'⟩ := claims?_eq_some_iff.mp verified'
    -- both read the same octets, whichever key verified them
    obtain rfl := encode_injective (read.trans read'.symm)
    have same : some c = some c' :=
      (Claims.ofObject?_eq_some_iff.mpr written).symm.trans
        (Claims.ofObject?_eq_some_iff.mpr written')
    rw [found, same]

/-! ## The condition -/

/-- What a token has to be in order to be accepted with claims `c` at an instant. -/
structure Accepted (scheme : Scheme) (token : String) (candidates : List PublicKey)
    (now : Instant) (c : Claims) : Prop where
  parts : ∃ header claims signature : Bytes,
    Bytes.ofText token = joined header claims signature ∧
      (∃ h, Header.ofJson? header = some h ∧ h.algorithm = Header.edDsa) ∧
      (∃ k ∈ candidates, scheme.verify k.bytes (signedPart header claims) signature = true) ∧
      c.Written claims
  lives : c.issued < c.expires
  inTime : now ≤ c.expiresAt

theorem ofText_ne_nil_of_joined {header claims signature : Bytes}
    (h : Bytes.ofText token = joined header claims signature) : token.isEmpty = false := by
  refine Bool.eq_false_iff.mpr fun empty => ?_
  obtain rfl := String.isEmpty_iff.mp empty
  have nil : Bytes.ofText "" = [] := by rw [Bytes.ofText_eq]; rfl
  rw [nil] at h
  simp [joined] at h

theorem accepted_of_decode (h : decode scheme token candidates now = .ok c) :
    Accepted scheme token candidates now c := by
  unfold decode at h
  split at h
  · cases h
  · split at h
    · cases h
    · rename_i p header found
      obtain ⟨p', split, h'⟩ := Option.bind_eq_some_iff.mp found
      obtain ⟨header', read, same⟩ := Option.map_eq_some_iff.mp h'
      cases same
      split at h
      · cases h
      · rename_i algorithm
        split at h
        · cases h
        · rename_i claims' found
          repeat' split at h
          · cases h
          · cases h
          · rename_i lives inTime
            cases h
            obtain ⟨k, hk, verified⟩ := findSome?_claims?_eq_some_iff.mp found
            obtain ⟨signature, claims, signed, payload, verified, written⟩ :=
              claims?_eq_some_iff.mp verified
            obtain ⟨octets, encoded, json⟩ := Option.bind_eq_some_iff.mp read
            have front := decodeBase64?_eq_some_iff.mp encoded
            have signed' : p.signed = signedPart octets claims := by
              rw [Parts.signed, ← front, ← payload]
              rfl
            refine ⟨⟨octets, claims, signature, ?_, ?_, ?_, written⟩, ?_, ?_⟩
            · rw [parts_of_ofBytes? split, signed', ← signed]
              rfl
            · exact ⟨header, json, Decidable.not_not.mp algorithm⟩
            · exact ⟨k, mem_ordered.mp hk, signed' ▸ verified⟩
            · exact Int.not_le.mp lives
            · have notExpired : ¬ c.expiresAt < now := by
                simpa [Claims.isExpiredAt] using inTime
              exact notExpired

theorem decode_of_accepted (h : Accepted scheme token candidates now c) :
    decode scheme token candidates now = .ok c := by
  obtain ⟨⟨header, claims, signature, whole, ⟨hdr, json, algorithm⟩, ⟨k, hk, verified⟩, written⟩,
    lives, inTime⟩ := h
  have split := ofBytes?_joined header claims signature
  have front : header? ⟨Base64Url.encode header, Base64Url.encode claims,
      Base64Url.encode signature⟩ = some hdr := by
    rw [header?, decodeBase64?_eq_some_iff.mpr rfl]
    exact json
  have found : (ordered hdr.keyName candidates).findSome? (claims? scheme
      ⟨Base64Url.encode header, Base64Url.encode claims, Base64Url.encode signature⟩) = some c := by
    refine findSome?_claims?_eq_some_iff.mpr ⟨k, mem_ordered.mpr hk, ?_⟩
    exact claims?_eq_some_iff.mpr ⟨signature, claims, rfl, rfl, verified, written⟩
  have notExpired : c.isExpiredAt now = false := decide_eq_false inTime
  unfold decode
  rw [if_neg (by simp [ofText_ne_nil_of_joined whole]), whole, split]
  simp only [Option.bind_some, front, Option.map_some]
  rw [if_neg (by simpa using algorithm), found]
  simp only
  rw [if_neg (Int.not_le.mpr lives), if_neg (by simp [notExpired])]

theorem decode_eq_ok_iff :
    decode scheme token candidates now = .ok c ↔ Accepted scheme token candidates now c :=
  ⟨accepted_of_decode, decode_of_accepted⟩

theorem Accepted.of_bytes (h : Accepted scheme token candidates now c)
    (more : ∀ k ∈ candidates, k.bytes ∈ others.map (·.bytes)) :
    Accepted scheme token others now c := by
  obtain ⟨⟨header, claims, signature, whole, json, ⟨k, hk, verified⟩, written⟩, lives, inTime⟩ := h
  obtain ⟨k', hk', same⟩ := List.mem_map.mp (more k hk)
  exact ⟨⟨header, claims, signature, whole, json, ⟨k', hk', same ▸ verified⟩, written⟩, lives,
    inTime⟩

/-- Of the header only the algorithm counts, as long as the signatures agree. -/
theorem Accepted.of_header {header header' claims signature signature' : Bytes} {h h' : Header}
    (accepted : Accepted scheme token candidates now c)
    (whole : Bytes.ofText token = joined header claims signature)
    (whole' : Bytes.ofText token' = joined header' claims signature')
    (json : Header.ofJson? header = some h) (json' : Header.ofJson? header' = some h')
    (algorithm : h.algorithm = h'.algorithm)
    (agree : ∀ k ∈ candidates, scheme.verify k.bytes (signedPart header claims) signature =
      scheme.verify k.bytes (signedPart header' claims) signature') :
    Accepted scheme token' candidates now c := by
  obtain ⟨⟨header₁, claims₁, signature₁, whole₁, ⟨h₁, json₁, edDsa⟩, ⟨k, hk, verified⟩, written⟩,
    lives, inTime⟩ := accepted
  obtain ⟨rfl, rfl, rfl⟩ := joined_injective (whole.symm.trans whole₁)
  obtain rfl : h = h₁ := Option.some.inj (json.symm.trans json₁)
  exact ⟨⟨header', claims, signature', whole', ⟨h', json', algorithm ▸ edDsa⟩,
    ⟨k, hk, agree k hk ▸ verified⟩, written⟩, lives, inTime⟩

end Candidates

end Token

/-! ## What the codec answers -/

section Answers

variable {scheme : Scheme} {token : String} {candidates : List PublicKey} {now : Instant}

theorem Codec.decode_signed_eq_ok_iff {c : Claims} :
    ((Codec.signed scheme).decode token candidates now).1 = .ok c ↔
      Token.Accepted scheme token candidates now c := by
  rw [← Token.decode_eq_ok_iff]
  unfold Codec.signed
  dsimp only
  split
  · rename_i claims decoded
    rw [decoded]
    constructor <;> rintro ⟨⟩ <;> rfl
  · rename_i reason decoded
    rw [decoded]
    constructor <;> exact nofun

theorem Codec.decode_signed_error
    (refused : ∀ c, ¬ Token.Accepted scheme token candidates now c) :
    ((Codec.signed scheme).decode token candidates now).1 = .error .invalidCredentials := by
  unfold Codec.signed
  dsimp only
  split
  · rename_i claims decoded
    exact absurd (Token.decode_eq_ok_iff.mp decoded) (refused claims)
  · rfl

/-- Two checks that accept the same claims give the same answer. -/
theorem Codec.decode_signed_congr {token' : String} {others : List PublicKey} {now' : Instant}
    (h : ∀ c, Token.Accepted scheme token candidates now c ↔
      Token.Accepted scheme token' others now' c) :
    ((Codec.signed scheme).decode token candidates now).1 =
      ((Codec.signed scheme).decode token' others now').1 := by
  by_cases accepted : ∃ c, Token.Accepted scheme token candidates now c
  · obtain ⟨c, accepted⟩ := accepted
    rw [decode_signed_eq_ok_iff.mpr accepted, decode_signed_eq_ok_iff.mpr ((h c).mp accepted)]
  · have refused := not_exists.mp accepted
    rw [decode_signed_error refused,
      decode_signed_error fun c accepted => refused c ((h c).mpr accepted)]

end Answers

/-- A token is accepted with its claims exactly if it is `Token.Accepted`, and otherwise the
credentials are invalid. So the answer is the same for candidates with the same keys, whatever their
order and their names; it stays an acceptance with more candidates; and of the header only the
algorithm counts. -/
theorem accepted_iff_decode (scheme : Scheme) (token : String) (candidates : List PublicKey)
    (now : Instant) :
    (∀ c, ((Codec.signed scheme).decode token candidates now).1 = .ok c ↔
      Token.Accepted scheme token candidates now c) ∧
    ((∀ c, ¬ Token.Accepted scheme token candidates now c) →
      ((Codec.signed scheme).decode token candidates now).1 = .error .invalidCredentials) ∧
    (∀ others : List PublicKey,
      (∀ b, b ∈ candidates.map (·.bytes) ↔ b ∈ others.map (·.bytes)) →
        ((Codec.signed scheme).decode token candidates now).1 =
          ((Codec.signed scheme).decode token others now).1) ∧
    (∀ others : List PublicKey, (∀ b ∈ candidates.map (·.bytes), b ∈ others.map (·.bytes)) →
      ∀ c, ((Codec.signed scheme).decode token candidates now).1 = .ok c →
        ((Codec.signed scheme).decode token others now).1 = .ok c) ∧
    ∀ (token' : String) (header header' claims signature signature' : Bytes) (h h' : Header),
      Bytes.ofText token = Token.joined header claims signature →
      Bytes.ofText token' = Token.joined header' claims signature' →
      Header.ofJson? header = some h → Header.ofJson? header' = some h' →
      h.algorithm = h'.algorithm →
      (∀ k ∈ candidates,
        scheme.verify k.bytes (Token.signedPart header claims) signature =
          scheme.verify k.bytes (Token.signedPart header' claims) signature') →
      ((Codec.signed scheme).decode token candidates now).1 =
        ((Codec.signed scheme).decode token' candidates now).1 := by
  refine ⟨fun c => Codec.decode_signed_eq_ok_iff, Codec.decode_signed_error, ?_, ?_, ?_⟩
  · intro others same
    refine Codec.decode_signed_congr fun c => ⟨fun accepted => ?_, fun accepted => ?_⟩
    · exact accepted.of_bytes fun k hk => (same _).mp (List.mem_map_of_mem hk)
    · exact accepted.of_bytes fun k hk => (same _).mpr (List.mem_map_of_mem hk)
  · intro others more c decoded
    have accepted := Codec.decode_signed_eq_ok_iff.mp decoded
    refine Codec.decode_signed_eq_ok_iff.mpr ?_
    exact accepted.of_bytes fun k hk => more _ (List.mem_map_of_mem hk)
  · intro token' header header' claims signature signature' h h' whole whole' json json' algorithm
      agree
    refine Codec.decode_signed_congr fun c => ⟨fun accepted => ?_, fun accepted => ?_⟩
    · exact accepted.of_header whole whole' json json' algorithm agree
    · exact accepted.of_header whole' whole json' json algorithm.symm
        fun k hk => (agree k hk).symm

end Keyring
