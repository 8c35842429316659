import Keyring.Proofs.JsonRecord
import Keyring.Token.Claims

/-!
# Claims as JSON objects

Octets are read as claims exactly if they are an object of the four fields: in any order, once each,
nothing else besides, with texts for the names and whole numbers of 64 bits with sign for the seconds.

* `Claims.Written` is this condition, said by the grammar of JSON.
* `ofObject?_eq_some_iff`: the reader follows it.
* `written_toJson`: claims with seconds of 64 bits are written so.
-/

namespace Keyring

open Json

namespace Claims

/-- The entries of the object that claims are written as. -/
def entries (c : Claims) : List (String × List Token) :=
  [("sub", [.text c.subject]), ("jti", [.text c.tokenId]), ("iat", [.ofInt c.issued]),
    ("exp", [.ofInt c.expires])]

/-- The octets are a JSON object that holds the claims, and nothing else. -/
structure Written (c : Claims) (bytes : Bytes) : Prop where
  issued : IsWord c.issued
  expires : IsWord c.expires
  object : ∃ entries, entries.Perm c.entries ∧ Lays bytes (recordTokens entries)

/-! ## Seconds -/

theorem takes_signed {n : Int} (word : IsWord n) :
    (Reader.signed (ρ := Empty)).Takes [.ofInt n] n := by
  intro rest
  cases n with
  | ofNat n =>
    have small : n < 0x8000000000000000 := Int.ofNat_lt.mp word.2
    exact if_pos small
  | negSucc n => rfl

theorem local_signed : (Reader.signed (ρ := Empty)).Local := by
  intro ts n rest h
  unfold Reader.signed at h
  split at h
  · rename_i n' behind
    split at h
    · rename_i small
      cases h
      exact ⟨[.number (.natural n')], rfl, fun _ => if_pos small⟩
    · cases h
  · rename_i n' behind
    cases h
    exact ⟨[.number (.negative n')], rfl, fun _ => rfl⟩
  · cases h
  · cases h

/-- A number of a text is read as a word, and from its own token only. -/
theorem ofInt_of_takes {value : List Token} {n : Int} (sized : ∀ n, .number n ∈ value → n.Sized)
    (h : (Reader.signed (ρ := Empty)).Takes value n) : value = [.ofInt n] ∧ IsWord n := by
  have read := local_signed.takes_iff.mp h
  unfold Reader.signed at read
  split at read
  · split at read
    · rename_i small
      cases read
      refine ⟨rfl, ?_⟩
      unfold IsWord
      omega
    · cases read
  · rename_i n' behind
    cases read
    obtain ⟨positive, small⟩ : 0 < n' ∧ n' ≤ 0x8000000000000000 := sized _ List.mem_cons_self
    obtain ⟨k, rfl⟩ := Nat.exists_eq_succ_of_ne_zero (Nat.pos_iff_ne_zero.mp positive)
    refine ⟨rfl, ?_⟩
    unfold IsWord
    omega
  · cases read
  · cases read

/-! ## Slots -/

/-- The fields of claims with their values. -/
def slots : List (Slot Empty Draft) :=
  [{ name := "sub", Value := String, get := fun d => d.subject,
     set := fun v d => { d with subject := some v }, read := Reader.text,
     write := fun s => [.text s] },
   { name := "jti", Value := String, get := fun d => d.tokenId,
     set := fun v d => { d with tokenId := some v }, read := Reader.text,
     write := fun s => [.text s] },
   { name := "iat", Value := Int, get := fun d => d.issued,
     set := fun v d => { d with issued := some v }, read := Reader.signed,
     write := fun n => [.ofInt n] },
   { name := "exp", Value := Int, get := fun d => d.expires,
     set := fun v d => { d with expires := some v }, read := Reader.signed,
     write := fun n => [.ofInt n] }]

theorem madeOf_slots : shape.MadeOf slots where
  fields := rfl
  strict := rfl
  distinct := by simp [slots]
  get_set := by simp [slots]
  get_set_of_ne := by simp [slots]
  ext := by
    rintro ⟨⟩ ⟨⟩ same
    simpa [slots] using same

theorem local_slots : ∀ f ∈ slots, f.read.Local := by
  simp only [slots, List.forall_mem_cons]
  exact ⟨Reader.local_text, Reader.local_text, local_signed, local_signed, nofun⟩

/-- The draft in which nothing is given. -/
def Draft.empty : Draft := ⟨none, none, none, none⟩

/-- The claims as a whole draft. -/
def draft (c : Claims) : Draft := ⟨some c.subject, some c.tokenId, some c.issued, some c.expires⟩

theorem Draft.finish_eq_ok_iff {d : Draft} {c : Claims} : d.finish = .ok c ↔ d = c.draft := by
  obtain ⟨subject, tokenId, issued, expires⟩ := d
  constructor
  · intro h
    unfold finish at h
    split at h
    · rename_i hs hj hi he
      dsimp only at hs hj hi he
      subst_vars
      cases h
      rfl
    all_goals cases h
  · intro h
    cases h
    rfl

theorem free_slots : ∀ f ∈ slots, f.get Draft.empty = none := by
  simp [slots, Draft.empty]

/-- The entries of claims fill a draft. -/
theorem fill_entries {c : Claims} (issued : IsWord c.issued) (expires : IsWord c.expires) :
    Fill slots Draft.empty c.entries c.draft := by
  have entries : given slots c.draft = c.entries := rfl
  rw [← entries]
  refine madeOf_slots.fill_given free_slots ?_
  simp only [slots, List.forall_mem_cons]
  refine ⟨fun _ _ _ => rfl, fun _ _ _ => rfl, ?_, ?_, nofun⟩
  · rintro _ ⟨⟩
    exact takes_signed issued
  · rintro _ ⟨⟩
    exact takes_signed expires

/-! ## Objects -/

theorem hasForm_of_mem_entries {c : Claims} (issued : IsWord c.issued)
    (expires : IsWord c.expires) : ∀ e ∈ c.entries, ∀ t ∈ e.2, t.HasForm := by
  simp only [entries, List.forall_mem_cons]
  exact ⟨⟨hasForm_text _, nofun⟩, ⟨hasForm_text _, nofun⟩, ⟨⟨_, form_integer issued⟩, nofun⟩,
    ⟨⟨_, form_integer expires⟩, nofun⟩, nofun⟩

/-- The values of an object that is read are those of the claims. -/
theorem entries_of_takes {c : Claims} {value : String → List Token}
    (takes : ∀ f ∈ slots, ∀ a, f.get c.draft = some a → f.read.Takes (value f.name) a)
    (sized : ∀ f ∈ slots, ∀ n, .number n ∈ value f.name → n.Sized) :
    IsWord c.issued ∧ IsWord c.expires ∧
      slots.map (fun f => (f.name, value f.name)) = c.entries := by
  simp only [slots, List.forall_mem_cons] at takes sized
  obtain ⟨subject, tokenId, issued, expires, -⟩ := takes
  obtain ⟨-, -, sizedIssued, sizedExpires, -⟩ := sized
  have subject := Reader.takes_text_iff.mp (subject c.subject rfl)
  have tokenId := Reader.takes_text_iff.mp (tokenId c.tokenId rfl)
  obtain ⟨issued, word⟩ := ofInt_of_takes sizedIssued (issued c.issued rfl)
  obtain ⟨expires, word'⟩ := ofInt_of_takes sizedExpires (expires c.expires rfl)
  refine ⟨word, word', ?_⟩
  simp only [slots, List.map_cons, subject, tokenId, issued, expires]
  rfl

theorem written_of_read {c : Claims} {bytes : Bytes} {ts : List Token}
    (object : Token.ofBytes bytes = .opening .curly :: ts)
    (h : shape.read Draft.empty (Token.ofBytes bytes) = .ok (c.draft, [])) : c.Written bytes := by
  have full : ∀ f ∈ slots, ∃ a, f.get c.draft = some a := by simp [slots, draft]
  obtain ⟨value, takes, ⟨entries, perm, tokens⟩ | tokens⟩ :=
    madeOf_slots.values_of_read local_slots rfl free_slots full h
  · rw [List.append_nil] at tokens
    have sized : ∀ f ∈ slots, ∀ n, .number n ∈ value f.name → n.Sized := by
      intro f hf n hn
      have entry : (f.name, value f.name) ∈ entries :=
        perm.mem_iff.mpr (List.mem_map.mpr ⟨f, hf, rfl⟩)
      have listed : .number n ∈ Token.ofBytes bytes := by
        rw [tokens]
        exact mem_recordTokens entry hn
      exact Token.sized_of_mem_ofBytes listed
    obtain ⟨issued, expires, own⟩ := entries_of_takes takes sized
    rw [own] at perm
    have formed : ∀ e ∈ entries, ∀ t ∈ e.2, t.HasForm := fun e he =>
      hasForm_of_mem_entries issued expires e (perm.mem_iff.mp he)
    exact ⟨issued, expires, entries, perm, lays_of_tokens tokens (hasForm_recordTokens formed)⟩
  · rw [object] at tokens
    cases tokens

theorem ofObject?_eq_some_iff_read {c : Claims} {bytes : Bytes} :
    ofObject? bytes = some c ↔ (∃ ts, Token.ofBytes bytes = .opening .curly :: ts) ∧
      shape.read Draft.empty (Token.ofBytes bytes) = .ok (c.draft, []) := by
  have parse : ofObject? bytes = some c ↔
      ofObject?.readObject (Token.ofBytes bytes) = .ok (c, []) := by
    refine Iff.trans ?_ Reader.parse_eq_ok_iff
    unfold ofObject?
    cases Reader.parse ofObject?.readObject bytes with
    | ok c' => simp
    | error e => simp
  have whole (ts : List Token) :
      read ts = .ok (c, []) ↔ shape.read Draft.empty ts = .ok (c.draft, []) := by
    rw [read, ← Draft.empty, Reader.check_eq_ok_iff]
    simp only [Draft.finish_eq_ok_iff]
    exact exists_eq_right
  rw [parse, ← whole]
  unfold ofObject?.readObject
  split
  · rename_i ts tokens
    simp [tokens]
  · rename_i other
    constructor
    · exact nofun
    · rintro ⟨⟨ts, object⟩, -⟩
      exact absurd object (other ts)

/-- Octets are read as claims exactly if they are an object of the four fields, once each and in any
order. -/
theorem ofObject?_eq_some_iff {c : Claims} {bytes : Bytes} :
    ofObject? bytes = some c ↔ c.Written bytes := by
  rw [ofObject?_eq_some_iff_read]
  constructor
  · rintro ⟨⟨ts, object⟩, read⟩
    exact written_of_read object read
  · rintro ⟨issued, expires, entries, perm, lays⟩
    have read := madeOf_slots.read_of_fill ((fill_entries issued expires).perm perm) []
    rw [ofBytes_of_lays lays]
    rw [List.append_nil] at read
    exact ⟨⟨_, rfl⟩, read⟩

/-- Claims with seconds of 64 bits are written as an object that holds them. -/
theorem written_toJson {c : Claims} (issued : IsWord c.issued) (expires : IsWord c.expires) :
    c.Written (Bytes.ofText c.toJson) := by
  refine ⟨issued, expires, c.entries, .refl _, ?_⟩
  rw [toJson, Bytes.ofText_ofList]
  exact (Laid.object [("sub", .text c.subject), ("jti", .text c.tokenId),
    ("iat", .integer c.issued issued), ("exp", .integer c.expires expires)]).whole

end Claims

end Keyring
