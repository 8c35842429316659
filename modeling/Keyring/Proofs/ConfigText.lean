import Mathlib.Data.List.Basic
import Keyring.Config.Json
import Keyring.Proofs.DurationText
import Keyring.Proofs.JsonRecord

/-!
# Configurations as text

An object of some settings is read as the builder takes these settings: both end with the same
configuration, or refuse it for the same reason. And a configuration is read again from the text that
it is written as.

* `Draft.entries` are the entries of the settings that are given.
* `ofJson_of_lays` reads them, in whatever order and however they are spelled.
* `config_of_text` is the result.
-/

namespace Keyring

open Json

namespace Config

/-! ## Settings as tokens -/

def durationTokens (d : Duration) : List Token := [.text (String.ofList d.spelled)]

/-- The settings that are given, as the entries of an object. -/
def Draft.entries (d : Draft) : List (String × List Token) :=
  (d.maxBackups.map fun n => ("max_backups", [.number (.natural n)])).toList ++
    (d.refreshInterval.map fun t => ("refresh_interval", durationTokens t)).toList ++
    (d.tokenLifetime.map fun t => ("token_ttl", durationTokens t)).toList ++
    (d.renewalDelta.map fun t => ("renewal_delta", durationTokens t)).toList ++
    (d.userAgent.map fun s => ("automation_user_agent", [.text s])).toList ++
    (d.allowedPrincipals.map fun ss => ("allowed_principals", textsTokens ss)).toList

theorem takes_duration (d : Duration) : readDuration.Takes (durationTokens d) d := by
  refine Reader.Takes.check (a := String.ofList d.spelled) (fun _ => rfl) ?_
  rw [String.toList_ofList, d.ofSpelled?_spelled]

/-! ## Slots -/

/-- The fields of a configuration with their values. -/
def slots : List (Slot Error Draft) :=
  [{ name := "max_backups", Value := Nat, get := fun d => d.maxBackups,
     set := fun v d => { d with maxBackups := some v }, read := Reader.unsigned,
     write := fun n => [.number (.natural n)] },
   { name := "refresh_interval", Value := Duration, get := fun d => d.refreshInterval,
     set := fun v d => { d with refreshInterval := some v }, read := readDuration,
     write := durationTokens },
   { name := "token_ttl", Value := Duration, get := fun d => d.tokenLifetime,
     set := fun v d => { d with tokenLifetime := some v }, read := readDuration,
     write := durationTokens },
   { name := "renewal_delta", Value := Duration, get := fun d => d.renewalDelta,
     set := fun v d => { d with renewalDelta := some v }, read := readDuration,
     write := durationTokens },
   { name := "automation_user_agent", Value := String, get := fun d => d.userAgent,
     set := fun v d => { d with userAgent := some v }, read := Reader.text,
     write := fun s => [.text s] },
   { name := "allowed_principals", Value := List String, get := fun d => d.allowedPrincipals,
     set := fun v d => { d with allowedPrincipals := some v }, read := Reader.texts,
     write := textsTokens }]

theorem madeOf_slots : shape.MadeOf slots where
  fields := rfl
  strict := rfl
  distinct := by simp [slots]
  get_set := by simp [slots]
  get_set_of_ne := by simp [slots]
  ext := by
    rintro ⟨⟩ ⟨⟩ same
    simpa [slots] using same

theorem takes_slots : ∀ f ∈ slots, ∀ a, f.read.Takes (f.write a) a := by
  simp only [slots, List.forall_mem_cons]
  exact ⟨fun _ _ => rfl, takes_duration, takes_duration, takes_duration, fun _ _ => rfl,
    Reader.takes_texts, nofun⟩

theorem given_slots (d : Draft) : given slots d = d.entries := by
  simp [given, slots, List.filterMap_eq_flatMap_toList, Draft.entries]

theorem free_slots : ∀ f ∈ slots, f.get Draft.empty = none := by
  simp [slots, Draft.empty]

/-! ## Two ways to a configuration -/

/-- What was read is built as the builder does. -/
theorem Draft.toConfig_raw (d : Draft) : d.raw.toConfig = d.build := rfl

theorem Draft.finish_eq (d : Draft) : d.finish = d.build.mapError .refused := by
  rw [finish, toConfig_raw]
  cases d.build <;> rfl

theorem ofJson_of_lays {d : Draft} {entries : List (String × List Token)} {text : String}
    (perm : entries.Perm d.entries) (lays : Lays (Bytes.ofText text) (recordTokens entries)) :
    ofJson text = d.build.mapError .refused := by
  have fill : Fill slots Draft.empty entries d := by
    refine (madeOf_slots.fill_given free_slots fun f hf a _ => takes_slots f hf a).perm ?_
    rwa [given_slots]
  have read := madeOf_slots.read_of_fill fill []
  rw [List.append_nil, ← ofBytes_of_lays lays] at read
  rw [← d.finish_eq, ofJson, Reader.parse, Reader.check]
  simp only [read, bind, Except.bind]
  cases d.finish <;> rfl

/-! ## Refusals -/

/-- Settings are refused for what they are. -/
theorem exists_of_check_eq_error {s : Settings} {e : Error} (h : s.check = .error e) :
    ∃ cause, e = .invalid cause := by
  unfold Settings.check at h
  cases retained : checkRetention s.maxBackups with
  | error e' =>
    rw [retained] at h
    cases h
    unfold checkRetention at retained
    split at retained
    · cases retained
    · cases retained
      exact ⟨_, rfl⟩
  | ok =>
    simp only [retained, bind, Except.bind, throw, throwThe, MonadExceptOf.throw, pure,
      Except.pure] at h
    repeat' split at h
    all_goals cases h
    all_goals exact ⟨_, rfl⟩

theorem Draft.exists_of_build_eq_error {d : Draft} {e : Error} (h : d.build = .error e) :
    ∃ cause, e = .invalid cause := by
  unfold build ofSettings at h
  split at h
  · cases h
  · rename_i broken
    cases h
    exact exists_of_check_eq_error broken

/-! ## Writing -/

theorem ofSettings_toSettings (c : Config) : ofSettings c.toSettings = .ok c := by
  unfold ofSettings
  split
  · rfl
  · rename_i e broken
    rw [c.valid] at broken
    cases broken

/-- The draft in which all settings of a configuration are given. -/
def draft (c : Config) : Draft :=
  ⟨some c.maxBackups, some c.refreshInterval, some c.tokenLifetime, some c.renewalDelta,
    some c.userAgent, some c.allowedPrincipals⟩

theorem lays_toJson (c : Config) : Lays (Bytes.ofText c.toJson) (recordTokens c.draft.entries) := by
  have few : c.maxBackups < 0x10000000000000000 := Nat.lt_of_le_of_lt c.rules.retention.2 (by decide)
  have lays := (Laid.object
    [("max_backups", .natural c.maxBackups few),
      ("refresh_interval", .text (String.ofList c.refreshInterval.spelled)),
      ("token_ttl", .text (String.ofList c.tokenLifetime.spelled)),
      ("renewal_delta", .text (String.ofList c.renewalDelta.spelled)),
      ("automation_user_agent", .text c.userAgent),
      ("allowed_principals", .texts c.allowedPrincipals)]).whole
  rw [toJson, Bytes.ofText_ofList]
  simpa [Laid.object, Laid.chars_texts, Laid.tokens_texts, Laid.natural, Laid.text, Laid.single,
    Draft.entries, draft, durationTokens] using lays

theorem build_draft (c : Config) : c.draft.build = .ok c := c.ofSettings_toSettings

/-- The settings of a draft can be written, if its number is a word. -/
theorem exists_laid {d : Draft} (range : ∀ n ∈ d.maxBackups, n < 0x10000000000000000) :
    ∀ e ∈ d.entries, ∃ v : Laid, v.tokens = e.2 := by
  have entry {α : Type} {o : Option α} {name : String} {write : α → List Token}
      (laid : ∀ a ∈ o, ∃ v : Laid, v.tokens = write a) :
      ∀ e ∈ (o.map fun a => (name, write a)).toList, ∃ v : Laid, v.tokens = e.2 := by
    intro e he
    cases o with
    | none => cases he
    | some a =>
      rw [List.mem_singleton.mp he]
      exact laid a rfl
  have text (s : String) : ∃ v : Laid, v.tokens = [.text s] := ⟨.text s, rfl⟩
  have duration (t : Duration) : ∃ v : Laid, v.tokens = durationTokens t := ⟨.text _, rfl⟩
  simp only [Draft.entries, List.forall_mem_append]
  refine ⟨⟨⟨⟨⟨entry ?_, entry fun t _ => duration t⟩, entry fun t _ => duration t⟩,
    entry fun t _ => duration t⟩, entry fun s _ => text s⟩, entry fun ss _ => ?_⟩
  · exact fun n hn => ⟨.natural n (range n hn), rfl⟩
  · exact ⟨.texts ss, Laid.tokens_texts ss⟩

end Config

/-- Reading an object of settings and building them come to the same: the same configuration, or the
same refusal, which is for what the settings are. There is such an object for all settings and all
orders of them, as long as the number is a word. And a configuration is read from its own text. -/
theorem config_of_text :
    (∀ (d : Config.Draft) (entries : List (String × List Token)) (text : String),
      entries.Perm d.entries → Lays (Bytes.ofText text) (recordTokens entries) →
        Config.ofJson text = d.build.mapError .refused) ∧
    (∀ (d : Config.Draft) (e : Error), d.build = .error e → ∃ cause, e = .invalid cause) ∧
    (∀ (d : Config.Draft) (entries : List (String × List Token)),
      (∀ n ∈ d.maxBackups, n < 0x10000000000000000) → entries.Perm d.entries →
        ∃ text, Lays (Bytes.ofText text) (recordTokens entries)) ∧
    ∀ c : Config, Config.ofJson c.toJson = .ok c := by
  refine ⟨?_, ?_, ?_, ?_⟩
  · exact fun d entries text perm lays => Config.ofJson_of_lays perm lays
  · exact fun d e refused => Config.Draft.exists_of_build_eq_error refused
  · intro d entries range perm
    exact exists_lays fun e he => Config.exists_laid range e (perm.mem_iff.mp he)
  · intro c
    rw [Config.ofJson_of_lays (.refl _) c.lays_toJson, c.build_draft]
    rfl

end Keyring
