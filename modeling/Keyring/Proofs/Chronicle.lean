import Mathlib.Data.List.Forall2
import Keyring.Proofs.Moves

/-!
# The listings behind the keys in use

A chronicle is a world with the last reading of its clock and with the refreshes that have come to
an end in it. Requests overlap in any way, listings are held up, calls fail and callers give up;
still the keys in use are always those of the listing that the latest successful refresh ended with,
since in a world a refresh ends with the move in which it gets its listing.

* `World.ending?` is the refresh that a move brings to its end; `Chronicle.step` enters it.
* `Chronicle.Run` relates the chronicles that follow one another. The clock does not go back in a
  move that is `Timely`.
* `served_step` says what a move does to the keys in use, and `served_of_run` what a whole run does.
-/

namespace Keyring

/-! ## The keys of a listing -/

namespace Snapshot

/-- The keys are those of the records, entry by entry and in order. -/
def Of (records : List Record) (keys : Snapshot) : Prop :=
  List.Forall₂ (fun r k => Key.ofRecord r = .ok k) records keys

theorem of_ofRecords {records : List Record} {keys : Snapshot} (h : ofRecords records = .ok keys) :
    keys.Of records := by
  induction records generalizing keys with
  | nil =>
    cases h
    exact .nil
  | cons r rest ih =>
    unfold ofRecords at h
    split at h
    · cases h
    · rename_i key first
      split at h
      · cases h
      · rename_i others behind
        cases h
        exact .cons first (ih behind)

theorem Of.length_key {records : List Record} {keys : Snapshot} (h : keys.Of records) :
    ∀ r ∈ records, r.key.length = 32 := by
  induction h with
  | nil => simp
  | cons first _ ih =>
    refine List.forall_mem_cons.mpr ⟨?_, ih⟩
    unfold Key.ofRecord at first
    split at first
    · assumption
    · cases first

/-- The records of a listing, if keys can be made of all of them. -/
def usable? (answer : Except StoreError (List Record)) : Option (List Record) :=
  match (ofListing answer).1 with
  | .ok _ => answer.toOption
  | .error _ => none

end Snapshot

namespace Service

variable {now : Moment} {cancelled : Bool} {s t : Service} {operation : Operation}
  {progress : Progress} {written : Option Record} {records : List Record}

/-- A refresh fails and the keys in use stay, or the records that were listed replace all of them. -/
theorem install_eq_ok_or_error (answer : Except StoreError (List Record)) (s : Service) :
    (Snapshot.usable? answer = none ∧ (∃ e, (s.install answer).1 = .error e) ∧
        (s.install answer).2.snapshot = s.snapshot) ∨
      ∃ records, answer = .ok records ∧ Snapshot.usable? answer = some records ∧
        (s.install answer).1 = .ok records.length ∧ (s.install answer).2.snapshot.Of records := by
  cases answer with
  | error e => exact Or.inl ⟨rfl, ⟨_, rfl⟩, rfl⟩
  | ok records =>
    cases hkeys : Snapshot.ofRecords records with
    | error e =>
      left
      simp [install, Snapshot.usable?, Snapshot.ofListing, hkeys, report]
    | ok keys =>
      have image := Snapshot.of_ofRecords hkeys
      right
      refine ⟨records, rfl, ?_, ?_, ?_⟩
      · simp [Snapshot.usable?, Snapshot.ofListing, hkeys, Except.toOption]
      · simp [install, Snapshot.ofListing, hkeys, image.length_eq]
      · simpa [install, Snapshot.ofListing, hkeys] using image

theorem takeListing_eq_ok (h : s.takeListing cancelled = .ok records) :
    s.repository.listing = .ok records := by
  unfold takeListing at h
  split at h
  · cases h
  · exact h

/-- The listing that a refresh takes its keys from, if it succeeds when it ends now. -/
def taken? (cancelled : Bool) (s : Service) : Option (List Record) :=
  Snapshot.usable? (s.takeListing cancelled)

/-- Only a refresh replaces the keys in use. -/
theorem Resumes.snapshot (h : Resumes now s t operation progress written)
    (other : ∀ purpose, operation ≠ .refresh purpose) : t.snapshot = s.snapshot := by
  cases h with
  | refreshFails purpose | installs purpose => exact absurd rfl (other purpose)
  | ends _ _ alike | rotationLists _ _ _ _ _ _ alike => exact alike.snapshot
  | rotationWrites _ _ _ _ _ snapshot | rotationDeletes _ _ _ _ _ _ _ _ snapshot
  | writes _ _ _ _ _ snapshot | deletes _ _ _ _ snapshot => exact snapshot

end Service

/-! ## Refreshes that end -/

/-- The claim on the refresh window that a refresh was started under. -/
def Purpose.claim? : Purpose → Option Coordinator.Claim
  | .plain | .forced => none
  | .update claim | .hook claim _ => some claim

def Operation.claim? : Operation → Option Coordinator.Claim
  | .refresh purpose => purpose.claim?
  | _ => none

/-- A refresh that awaited a listing and has come to its end. -/
structure Ending where
  number : Nat
  purpose : Purpose
  instant : Nat
  /-- The listing that the keys were taken from, if the refresh succeeded. -/
  listing : Option (List Record)
  /-- The claims that other requests had in flight. -/
  rivals : List Coordinator.Claim

namespace World

variable {env : Environment} {w : World} {number : Nat} {cancelled : Bool} {now : Moment}
  {operation : Operation} {purpose : Purpose}

/-- The end of a refresh in progress. -/
def ended (w : World) (number : Nat) (purpose : Purpose) (cancelled : Bool) (now : Moment) :
    Ending where
  number
  purpose
  instant := now.elapsed
  listing := w.service.taken? cancelled
  rivals := (w.remove number).pending.filterMap fun p => p.2.claim?

/-- The refresh that a move brings to its end. -/
def ending? (w : World) : Move → Option Ending
  | .resume number cancelled now =>
    match w.operation? number with
    | some (.refresh purpose) => some (w.ended number purpose cancelled now)
    | _ => none
  | _ => none

theorem ending?_resume_refresh (h : w.operation? number = some (.refresh purpose)) :
    w.ending? (.resume number cancelled now) = some (w.ended number purpose cancelled now) := by
  simp [ending?, h]

theorem ending?_resume_other (h : w.operation? number = some operation)
    (other : ∀ purpose, operation ≠ .refresh purpose) :
    w.ending? (.resume number cancelled now) = none := by
  cases operation with
  | refresh purpose => exact absurd rfl (other purpose)
  | _ => simp [ending?, h]

/-- Only a refresh that goes on comes to its end. -/
theorem refreshing_of_ending? {move : Move} {e : Ending} (h : w.ending? move = some e) :
    ∃ number cancelled now purpose, move = .resume number cancelled now ∧
      w.operation? number = some (.refresh purpose) := by
  unfold ending? at h
  split at h
  · split at h
    · rename_i awaiting
      exact ⟨_, _, _, _, rfl, awaiting⟩
    · cases h
  · cases h

@[simp] theorem history_settle (number : Nat) (w : World) (step : Progress × Service) :
    (w.settle number step).history = w.history := by
  obtain ⟨progress, service⟩ := step
  cases progress <;> rfl

theorem service_step_resume (h : w.operation? number = some operation) :
    (w.step env (.resume number cancelled now)).service =
      (w.service.resume env now cancelled operation).2 := by
  simp [step, resume, h]

theorem snapshot_step_refresh (h : w.operation? number = some (.refresh purpose)) :
    (w.step env (.resume number cancelled now)).service.snapshot =
      (w.service.install (w.service.takeListing cancelled)).2.snapshot := by
  rw [service_step_resume h]
  exact (Service.alike_settleRefresh env now cancelled purpose _ _).snapshot

theorem snapshot_step_of_not_resume {move : Move}
    (other : ∀ number cancelled now, move ≠ .resume number cancelled now) :
    (w.step env move).service.snapshot = w.service.snapshot := by
  have moves := moves_step env w move
  generalize w.step env move = w' at moves
  cases moves with
  | passes _ _ alike | refuses _ _ _ _ _ alike | begins _ _ _ _ _ alike => exact alike.snapshot
  | inserts _ _ _ _ snapshot => exact snapshot
  | resumes number cancelled now => exact absurd rfl (other number cancelled now)

/-- Either a move ends no refresh with success and the keys in use stay, or they are those that the
repository lists at that moment. -/
theorem served_step (env : Environment) (w : World) (move : Move) :
    ((∀ e, w.ending? move = some e → e.listing = none) ∧
        (w.step env move).service.snapshot = w.service.snapshot) ∨
      ∃ e records, w.ending? move = some e ∧ e.listing = some records ∧
        w.service.repository.listing = .ok records ∧
          (w.step env move).service.snapshot.Of records := by
  cases move with
  | resume number cancelled now =>
    cases h : w.operation? number with
    | none =>
      left
      simp [ending?, step, resume, h]
    | some operation =>
      by_cases refreshes : ∃ purpose, operation = .refresh purpose
      · obtain ⟨purpose, rfl⟩ := refreshes
        rw [snapshot_step_refresh h, ending?_resume_refresh h]
        rcases w.service.install_eq_ok_or_error (w.service.takeListing cancelled) with
          ⟨taken, -, same⟩ | ⟨records, listed, taken, -, keys⟩
        · exact Or.inl ⟨fun e ended => Option.some.inj ended ▸ taken, same⟩
        · exact Or.inr ⟨_, records, rfl, taken, Service.takeListing_eq_ok listed, keys⟩
      · have other : ∀ purpose, operation ≠ .refresh purpose := not_exists.mp refreshes
        obtain ⟨written, resumed⟩ := Service.resumes_resume env now cancelled operation w.service
        left
        refine ⟨?_, ?_⟩
        · rw [ending?_resume_other h other]
          simp
        · rw [service_step_resume h]
          exact resumed.snapshot other
  | _ => exact Or.inl ⟨by simp [ending?], snapshot_step_of_not_resume (by simp)⟩

end World

/-! ## Chronicles -/

/-- The reading of the clock in a move. -/
def Move.elapsed? : Move → Option Nat
  | .begin _ _ now | .resume _ _ now => some now.elapsed
  | _ => none

structure Chronicle where
  world : World
  /-- The last reading of the clock. -/
  clock : Nat
  /-- The refreshes that have ended, the latest first. -/
  endings : List Ending

namespace Chronicle

def start (service : Service) : Chronicle := ⟨.start service, 0, []⟩

def step (env : Environment) (c : Chronicle) (move : Move) : Chronicle where
  world := c.world.step env move
  clock := move.elapsed?.getD c.clock
  endings := (c.world.ending? move).toList ++ c.endings

def after (env : Environment) (c : Chronicle) (moves : List Move) : Chronicle :=
  moves.foldl (step env) c

/-- The clock does not go back. -/
def Timely (c : Chronicle) (move : Move) : Prop := ∀ now, move.elapsed? = some now → c.clock ≤ now

/-- The latest refresh that succeeded. -/
def latest? (c : Chronicle) : Option Ending := c.endings.find? fun e => e.listing.isSome

/-- The chronicles that come of a chronicle by moves that are allowed where they are made. -/
abbrev Run (env : Environment) (Allowed : Chronicle → Move → Prop) : Chronicle → Chronicle → Prop :=
  Steps (step env) Allowed

variable {env : Environment} {Allowed : Chronicle → Move → Prop} {b c : Chronicle}

namespace Run

/-- Forgets the clock and the endings. -/
theorem world (run : Run env Allowed b c) :
    Keyring.Run env (fun _ _ => True) b.world c.world := by
  induction run with
  | refl => exact .refl _
  | next _ _ ih => exact ih.next trivial

/-- Moves whose readings of the clock do not go back make a run. -/
theorem of_pairwise (moves : List Move)
    (h : (b.clock :: moves.filterMap Move.elapsed?).Pairwise (· ≤ ·)) :
    Run env Timely b (b.after env moves) := by
  induction moves generalizing b with
  | nil => exact .refl b
  | cons move moves ih =>
    have first : Timely b move ∧
        ((b.step env move).clock :: moves.filterMap Move.elapsed?).Pairwise (· ≤ ·) := by
      cases reading : move.elapsed? with
      | none =>
        refine ⟨by simp [Timely, reading], ?_⟩
        simpa [step, reading] using h
      | some now =>
        rw [List.filterMap_cons_some reading, List.pairwise_cons] at h
        refine ⟨?_, by simpa [step, reading] using h.2⟩
        intro now' same
        rw [reading] at same
        exact h.1 now' (Option.some.inj same ▸ List.mem_cons_self)
    exact ((Steps.refl b).next first.1).trans (ih first.2)

end Run

/-- The keys in use come from the latest refresh that succeeded, if there is one. -/
structure Served (service : Service) (c : Chronicle) : Prop where
  unrefreshed : c.latest? = none → c.world.service.snapshot = service.snapshot
  refreshed : ∀ e records, c.latest? = some e → e.listing = some records →
    c.world.service.snapshot.Of records

theorem Served.step {service : Service} (h : c.Served service) (move : Move) :
    (c.step env move).Served service := by
  rcases c.world.served_step env move with ⟨failed, same⟩ | ⟨e, records, ended, taken, -, keys⟩
  · have latest : (c.step env move).latest? = c.latest? := by
      cases ended : c.world.ending? move with
      | none => simp [latest?, Chronicle.step, ended]
      | some e => simp [latest?, Chronicle.step, ended, failed e ended]
    refine ⟨?_, ?_⟩
    · intro none
      exact same.trans (h.unrefreshed (latest ▸ none))
    · intro e records some taken
      have keys := h.refreshed e records (latest ▸ some) taken
      exact same.symm ▸ keys
  · have latest : (c.step env move).latest? = some e := by
      simp [latest?, Chronicle.step, ended, taken]
    refine ⟨?_, ?_⟩
    · intro none
      rw [latest] at none
      cases none
    · intro e' records' some taken'
      rw [latest] at some
      cases some
      rw [taken] at taken'
      cases taken'
      exact keys

theorem served_of_run {service : Service} (run : Run env Allowed (start service) c) :
    c.Served service :=
  run.induct ⟨fun _ => rfl, by simp [latest?, start]⟩ fun _ move h _ => h.step move

end Chronicle

end Keyring
