import Keyring.Proofs.Base64Url
import Keyring.Proofs.JsonRecord
import Keyring.Proofs.TimeText
import Keyring.Record.Json

/-!
# Key records as text invert

A key record is read again from the text that it is written as. A text that is read as a record states
three texts, in an object in any order or in an array, and the one of the key is that which the key is
written as. So a key has one text only.

* `Record.Stated` says which texts a JSON text states.
* `record_of_text` is the result.
-/

namespace Keyring

open Json

theorem Base64Url.decode_ofText_eq_ok_iff {s : String} {bytes : Bytes} :
    Base64Url.decode (Bytes.ofText s) = .ok bytes ↔
      s = String.ofList (Base64Url.encodeText bytes) := by
  have octets : Bytes.ofText (String.ofList (Base64Url.encodeText bytes)) =
      Base64Url.encode bytes := by
    rw [Bytes.ofText_ofList]
    exact Bytes.ofChars_map_ofUInt8 fun b hb => Base64Url.toNat_lt_of_mem_encode hb
  rw [Base64Url.decode_eq_ok_iff, ← octets]
  exact ⟨fun h => (Bytes.ofText_injective h).symm, fun h => congrArg Bytes.ofText h.symm⟩

namespace Record

/-- The entries of the object that a record is written as. -/
def entries (name key time : String) : List (String × List Token) :=
  [("name", [.text name]), ("key", [.text key]), ("created_at", [.text time])]

/-- The octets are a JSON object of a name, a key and a time, or an array of the three texts. -/
inductive Stated (bytes : Bytes) (name key time : String) : Prop where
  | object (ordered : List (String × List Token)) (perm : ordered.Perm (entries name key time))
    (lays : Lays bytes (recordTokens ordered))
  | array (lays : Lays bytes (arrayTokens [[.text name], [.text key], [.text time]]))

/-! ## Slots -/

theorem readKey_takes_iff {value : List Token} {key : Bytes} :
    readKey.Takes value key ↔ value = [.text (String.ofList (Base64Url.encodeText key))] := by
  rw [readKey, Reader.takes_check_text_iff]
  constructor
  · rintro ⟨s, rfl, read⟩
    split at read
    · rename_i decoded
      cases read
      rw [Base64Url.decode_ofText_eq_ok_iff.mp decoded]
    · cases read
  · rintro rfl
    refine ⟨_, rfl, ?_⟩
    rw [Base64Url.decode_ofText_eq_ok_iff.mpr rfl]

theorem readTime_takes_iff {value : List Token} {time : Instant} :
    readTime.Takes value time ↔
      ∃ s : String, value = [.text s] ∧ Rfc3339.read? s.toList = some time := by
  rw [readTime, Reader.takes_check_text_iff]
  refine exists_congr fun s => and_congr_right fun _ => ?_
  cases Rfc3339.read? s.toList with
  | none => simp
  | some t => simp

def nameSlot : Slot Fault Draft where
  name := "name"
  Value := String
  get d := d.name
  set v d := { d with name := some v }
  read := Reader.text
  write s := [.text s]

def keySlot : Slot Fault Draft where
  name := "key"
  Value := Bytes
  get d := d.key
  set v d := { d with key := some v }
  read := readKey
  write key := [.text (String.ofList (Base64Url.encodeText key))]

def timeSlot : Slot Fault Draft where
  name := "created_at"
  Value := Instant
  get d := d.createdAt
  set v d := { d with createdAt := some v }
  read := readTime
  write t := [.text (String.ofList (Rfc3339.write t))]

def slots : List (Slot Fault Draft) := [nameSlot, keySlot, timeSlot]

theorem madeOf_slots : shape.MadeOf slots where
  fields := rfl
  strict := rfl
  distinct := by simp [slots, nameSlot, keySlot, timeSlot]
  get_set := by simp [slots, nameSlot, keySlot, timeSlot]
  get_set_of_ne := by simp [slots, nameSlot, keySlot, timeSlot]
  ext := by
    rintro ⟨name, key, createdAt⟩ ⟨name', key', createdAt'⟩ same
    simpa [slots, nameSlot, keySlot, timeSlot] using same

theorem local_slots : ∀ f ∈ slots, f.read.Local := by
  have key : readKey.Local := Reader.local_text.check _
  have time : readTime.Local := Reader.local_text.check _
  simp only [slots, List.forall_mem_cons]
  exact ⟨Reader.local_text, key, time, nofun⟩

/-- The draft in which nothing is given. -/
def Draft.empty : Draft := ⟨none, none, none⟩

/-- The record as a whole draft. -/
def draft (r : Record) : Draft := ⟨some r.name, some r.key, some r.createdAt⟩

theorem Draft.finish_eq_ok_iff {d : Draft} {r : Record} : d.finish = .ok r ↔ d = r.draft := by
  obtain ⟨name, key, createdAt⟩ := d
  constructor
  · intro h
    unfold finish at h
    split at h
    · rename_i hn hk ht
      dsimp only at hn hk ht
      subst_vars
      cases h
      rfl
    all_goals cases h
  · intro h
    cases h
    rfl

theorem ofJson_eq_ok_iff {text : String} {r : Record} :
    ofJson text = .ok r ↔
      shape.read Draft.empty (Token.ofBytes (Bytes.ofText text)) = .ok (r.draft, []) := by
  rw [ofJson, ← Draft.empty, Reader.parse_eq_ok_iff, Reader.check_eq_ok_iff]
  simp only [Draft.finish_eq_ok_iff]
  exact exists_eq_right

/-! ## Texts of records -/

theorem free_slots : ∀ f ∈ slots, f.get Draft.empty = none := by
  simp [slots, nameSlot, keySlot, timeSlot, Draft.empty]

variable {r : Record} {time : String}

theorem takes_name (r : Record) : nameSlot.read.Takes [.text r.name] r.name :=
  Reader.takes_text_iff.mpr rfl

theorem takes_key (r : Record) :
    keySlot.read.Takes [.text (String.ofList (Base64Url.encodeText r.key))] r.key :=
  readKey_takes_iff.mpr rfl

theorem takes_time (h : Rfc3339.read? time.toList = some r.createdAt) :
    timeSlot.read.Takes [.text time] r.createdAt := readTime_takes_iff.mpr ⟨time, rfl, h⟩

theorem fill_of_time (h : Rfc3339.read? time.toList = some r.createdAt) :
    Fill slots Draft.empty (entries r.name (String.ofList (Base64Url.encodeText r.key)) time)
      r.draft := by
  refine madeOf_slots.fill_cons (f := nameSlot) (by simp [slots]) rfl (takes_name r) ?_
  refine madeOf_slots.fill_cons (f := keySlot) (by simp [slots]) rfl (takes_key r) ?_
  exact madeOf_slots.fill_cons (f := timeSlot) (by simp [slots]) rfl (takes_time h) (.nil _ _)

theorem read_arrayTokens (h : Rfc3339.read? time.toList = some r.createdAt) :
    shape.read Draft.empty (arrayTokens [[.text r.name],
        [.text (String.ofList (Base64Url.encodeText r.key))], [.text time]]) =
      .ok (r.draft, []) := by
  have step {f : Slot Fault Draft} {fields : List (Field Fault Draft)} {d : Draft} {s : String}
      {a : f.Value} (takes : f.read.Takes [.text s] a) (isFirst : Bool) (behind : List Token) :
      shape.elements (f.field :: fields) isFirst d
          ((if isFirst then [] else [.comma]) ++ [.text s] ++ behind) =
        shape.elements fields false (f.set a d) behind :=
    Shape.MadeOf.elements_cons isFirst nofun (Slot.read_field_eq_ok_iff.mpr ⟨a, takes behind, rfl⟩)
  let d := Draft.empty
  let d₁ := nameSlot.set r.name d
  let d₂ := keySlot.set r.key d₁
  have first := @step nameSlot [keySlot.field, timeSlot.field] d _ _ (takes_name r) true
  have second := @step keySlot [timeSlot.field] d₁ _ _ (takes_key r) false
  have third := @step timeSlot [] d₂ _ _ (takes_time h) false [.closing .square]
  exact (first _).trans ((second _).trans (third.trans rfl))

theorem read_of_stated {text : String}
    (stated : Stated (Bytes.ofText text) r.name (String.ofList (Base64Url.encodeText r.key)) time)
    (h : Rfc3339.read? time.toList = some r.createdAt) : ofJson text = .ok r := by
  rw [ofJson_eq_ok_iff]
  cases stated with
  | object ordered perm lays =>
    have whole := madeOf_slots.read_of_fill ((fill_of_time h).perm perm) []
    rw [List.append_nil] at whole
    rw [ofBytes_of_lays lays, whole]
  | array lays => rw [ofBytes_of_lays lays, read_arrayTokens h]

theorem stated_of_read {text : String} (h : ofJson text = .ok r) :
    ∃ time, Stated (Bytes.ofText text) r.name (String.ofList (Base64Url.encodeText r.key)) time ∧
      Rfc3339.read? time.toList = some r.createdAt := by
  have full : ∀ f ∈ slots, ∃ a, f.get r.draft = some a := by
    simp [slots, nameSlot, keySlot, timeSlot, draft]
  obtain ⟨value, takes, tokens⟩ := madeOf_slots.values_of_read local_slots rfl free_slots full
    (ofJson_eq_ok_iff.mp h)
  have name := Reader.takes_text_iff.mp (takes nameSlot (by simp [slots]) r.name rfl)
  have key := readKey_takes_iff.mp (takes keySlot (by simp [slots]) r.key rfl)
  obtain ⟨time, created, read⟩ :=
    readTime_takes_iff.mp (takes timeSlot (by simp [slots]) r.createdAt rfl)
  refine ⟨time, ?_, read⟩
  have texts : ∀ f ∈ slots, ∀ t ∈ value f.name, t.HasForm := by
    have single {ts : List Token} {s : String} (h : ts = [.text s]) : ∀ t ∈ ts, t.HasForm := by
      rw [h]
      exact List.forall_mem_singleton.mpr (hasForm_text s)
    simp only [slots, List.forall_mem_cons]
    exact ⟨single name, single key, single created, nofun⟩
  rcases tokens with ⟨ordered, perm, tokens⟩ | tokens
  · rw [List.append_nil] at tokens
    have formed : ∀ e ∈ ordered, ∀ t ∈ e.2, t.HasForm := by
      intro e he
      obtain ⟨f, hf, rfl⟩ := List.mem_map.mp (perm.mem_iff.mp he)
      exact texts f hf
    have own : slots.map (fun f => (f.name, value f.name)) =
        entries r.name (String.ofList (Base64Url.encodeText r.key)) time := by
      simp only [slots, List.map_cons, name, key, created]
      rfl
    exact .object ordered (own ▸ perm) (lays_of_tokens tokens (hasForm_recordTokens formed))
  · rw [List.append_nil] at tokens
    have formed : ∀ item ∈ slots.map fun f => value f.name, ∀ t ∈ item, t.HasForm := by
      intro item mem
      obtain ⟨f, hf, rfl⟩ := List.mem_map.mp mem
      exact texts f hf
    refine .array ?_
    rw [← name, ← key, ← created]
    exact lays_of_tokens tokens (hasForm_arrayTokens formed)

/-! ## The text of a record -/

theorem length_of_perm {ordered : List (String × List Token)} {name key time : String}
    (perm : ordered.Perm (entries name key time)) : ∀ e ∈ ordered, e.2.length = 1 := by
  intro e mem
  have listed := perm.mem_iff.mp mem
  simp only [entries, List.mem_cons, List.not_mem_nil, or_false] at listed
  rcases listed with rfl | rfl | rfl <;> rfl

/-- A text states one name, one key and one time. -/
theorem Stated.unique {bytes : Bytes} {name key time name' key' time' : String}
    (h : Stated bytes name key time) (h' : Stated bytes name' key' time') :
    name = name' ∧ key = key' ∧ time = time' := by
  cases h with
  | object ordered perm lays =>
    cases h' with
    | object ordered' perm' lays' =>
      obtain rfl := recordTokens_injective (length_of_perm perm) (length_of_perm perm')
        ((ofBytes_of_lays lays).symm.trans (ofBytes_of_lays lays'))
      have same : ∀ e ∈ entries name key time, e ∈ entries name' key' time' :=
        fun e he => (perm.symm.trans perm').mem_iff.mp he
      simpa [entries] using same
    | array lays' =>
      cases (ofBytes_of_lays lays).symm.trans (ofBytes_of_lays lays')
  | array lays =>
    cases h' with
    | object ordered' perm' lays' =>
      cases (ofBytes_of_lays lays).symm.trans (ofBytes_of_lays lays')
    | array lays' =>
      cases (ofBytes_of_lays lays).symm.trans (ofBytes_of_lays lays')
      exact ⟨rfl, rfl, rfl⟩

theorem stated_toJson (r : Record) : Stated (Bytes.ofText r.toJson) r.name
    (String.ofList (Base64Url.encodeText r.key)) (String.ofList (Rfc3339.write r.createdAt)) := by
  refine .object _ (.refl _) ?_
  rw [toJson, Bytes.ofText_ofList]
  exact (Laid.object [("name", .text r.name),
    ("key", .text (String.ofList (Base64Url.encodeText r.key))),
    ("created_at", .text (String.ofList (Rfc3339.write r.createdAt)))]).whole

end Record

/-- A record is read from its text. What is read as a record states its name, its key as that is
written, and its time in some form; so every text of a key that is accepted is the one that the key is
written as. -/
theorem record_of_text :
    (∀ r : Record, Record.ofJson r.toJson = .ok r) ∧
    (∀ (text : String) (r : Record), Record.ofJson text = .ok r ↔
      ∃ time, Record.Stated (Bytes.ofText text) r.name
          (String.ofList (Base64Url.encodeText r.key)) time ∧
        Rfc3339.read? time.toList = some r.createdAt) ∧
    ∀ (text name key time : String) (r : Record),
      Record.Stated (Bytes.ofText text) name key time → Record.ofJson text = .ok r →
        key = String.ofList (Base64Url.encodeText r.key) := by
  refine ⟨?_, ?_, ?_⟩
  · intro r
    refine Record.read_of_stated r.stated_toJson ?_
    rw [String.toList_ofList]
    exact Rfc3339.read?_write r.createdAt
  · intro text r
    exact ⟨Record.stated_of_read, fun ⟨_, stated, time⟩ => Record.read_of_stated stated time⟩
  · intro text name key time r stated read
    obtain ⟨time', stated', -⟩ := Record.stated_of_read read
    exact (stated.unique stated').2.1

end Keyring
