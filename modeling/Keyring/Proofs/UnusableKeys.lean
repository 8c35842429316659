import Keyring.Proofs.Debounce
import Keyring.Proofs.Overlap
import Keyring.Proofs.Turns

/-!
# Unusable keys

A key of any length is written, but only one of 32 octets can be used, and a refresh takes all keys
that are listed or none. So a single unusable key stops all refreshes, until it is rotated out.

* `Store.unusable?` is the newest record that cannot be used; each refresh that gets a listing fails
  over it (`refresh_of_unusable`), and the keys in use stay (`snapshot_of_unusable_run`).
* `World.Lends` is what holds of the refresh window meanwhile, as long as updates do not overlap
  (`lends_step`): each one gives the window back.
* `list_of_rotations` says what is listed behind rotations that have succeeded.
* `wedged_until_rotated_out` puts them together. Without a condition on rotations that overlap a key
  that is written anew may be lost: `not_forall_refreshed_behind_rotations`.
-/

namespace Keyring

open Coordinator (Stale Takes)

/-! ## Records that cannot be used -/

/-- The newest record whose key is not of 32 octets. -/
def Store.unusable? (s : Store) : Option Record := s.list.find? fun r => r.key.length != 32

namespace Snapshot

variable {records : List Record} {r : Record}

theorem ofRecords_of_find? (h : records.find? (fun r => r.key.length != 32) = some r) :
    ofRecords records = .error (r.name, .invalid (.keyLength r.name r.key.length)) := by
  induction records with
  | nil => cases h
  | cons first rest ih =>
    rw [List.find?_cons] at h
    unfold ofRecords Key.ofRecord
    split at h
    · rename_i unusable
      cases h
      have wrong : ¬ r.key.length = 32 := by simpa using unusable
      rw [dif_neg wrong]
    · rename_i usable
      have right : first.key.length = 32 := by simpa using usable
      rw [dif_pos right]
      simp only [ih h]

theorem exists_ofRecords (usable : ∀ r ∈ records, r.key.length = 32) :
    ∃ keys, ofRecords records = .ok keys := by
  induction records with
  | nil => exact ⟨[], rfl⟩
  | cons first rest ih =>
    obtain ⟨right, behind⟩ := List.forall_mem_cons.mp usable
    obtain ⟨keys, taken⟩ := ih behind
    refine ⟨⟨first.name, first.key, first.createdAt, right⟩ :: keys, ?_⟩
    simp [ofRecords, Key.ofRecord, right, taken]

/-- Where keys are taken from records, none of them is unusable. -/
theorem Of.find?_eq_none {keys : Snapshot} (h : keys.Of records) :
    records.find? (fun r => r.key.length != 32) = none := by
  refine List.find?_eq_none.mpr fun r mem => ?_
  simpa using h.length_key r mem

end Snapshot

/-- How the end of a listing reaches whoever the keys are refreshed for: a hook only logs that it
has failed. -/
def Purpose.Answered (purpose : Purpose) (answer : Except Error Nat) (came : Progress × Service) :
    Prop :=
  match purpose with
  | .plain | .forced => came.1 = .ended (.refresh answer)
  | .update _ => came.1 = .ended (.update (answer.map fun _ => true))
  | .hook _ _ => ∀ e, answer = .error e → .hookRefreshFailed e ∈ came.2.log

namespace Service

variable {env : Environment} {now : Moment} {cancelled : Bool} {s t : Service}
  {records : List Record} {r : Record}

theorem answered_settleRefresh (env : Environment) (now : Moment) (cancelled : Bool)
    (purpose : Purpose) (answer : Except Error Nat) (s : Service) :
    purpose.Answered answer (s.settleRefresh env now cancelled purpose answer) := by
  cases purpose with
  | plain => rfl
  | forced | update => cases answer <;> rfl
  | hook claim rest =>
    rintro e rfl
    let failed := (s.endUpdate claim (.error e)).2.endHook (.error e)
    have reported : .hookRefreshFailed e ∈ failed.log := by simp [failed, endHook, report]
    obtain ⟨events, logged, -⟩ := (alike_settleHooks env now cancelled rest failed).log
    have kept : .hookRefreshFailed e ∈ (failed.settleHooks env now cancelled rest).2.log :=
      logged ▸ List.mem_append_left events reported
    exact kept

/-- Whoever the keys are refreshed for learns how the listing has ended. -/
theorem answered_resume (env : Environment) (now : Moment) (cancelled : Bool) (purpose : Purpose)
    (s : Service) :
    purpose.Answered (s.install (s.takeListing cancelled)).1
      (s.resume env now cancelled (.refresh purpose)) :=
  answered_settleRefresh env now cancelled purpose _ _

/-- A listing with an unusable key fails the refresh over the newest one. -/
theorem refresh_of_unusable (env : Environment) (now : Moment) (purpose : Purpose)
    (newestFirst : s.repository.oldestFirst = false)
    (unusable : s.repository.store.unusable? = some r)
    (listing : s.repository.listing = .ok records) :
    purpose.Answered (.error (.invalid (.keyLength r.name r.key.length)))
      (s.resume env now false (.refresh purpose)) := by
  rw [Store.unusable?, ← list_of_listing newestFirst listing] at unusable
  have failed : (s.install (s.takeListing false)).1 =
      .error (.invalid (.keyLength r.name r.key.length)) := by
    simp [takeListing, install, Snapshot.ofListing, listing, Snapshot.ofRecords_of_find? unusable]
  exact failed ▸ s.answered_resume env now false purpose

/-- All keys of a listing without an unusable one are taken into use. -/
theorem refresh_of_usable (env : Environment) (now : Moment) (purpose : Purpose)
    (usable : ∀ r ∈ records, r.key.length = 32) (listing : s.repository.listing = .ok records) :
    purpose.Answered (.ok records.length) (s.resume env now false (.refresh purpose)) ∧
      (s.resume env now false (.refresh purpose)).2.snapshot.Of records := by
  obtain ⟨keys, taken⟩ := Snapshot.exists_ofRecords usable
  have image := Snapshot.of_ofRecords taken
  have count : (s.install (s.takeListing false)).1 = .ok records.length := by
    simp [takeListing, install, Snapshot.ofListing, listing, taken, image.length_eq]
  have installed : (s.install (s.takeListing false)).2.snapshot = keys := by
    simp [takeListing, install, Snapshot.ofListing, listing, taken]
  have settled : (s.resume env now false (.refresh purpose)).2.snapshot =
      (s.install (s.takeListing false)).2.snapshot :=
    (alike_settleRefresh env now false purpose _ _).snapshot
  rw [settled, installed]
  exact ⟨count ▸ s.answered_resume env now false purpose, image⟩

/-- Whether or not it gets a listing, no refresh succeeds. -/
theorem taken?_of_unusable (newestFirst : s.repository.oldestFirst = false)
    (unusable : s.repository.store.unusable?.isSome) (cancelled : Bool) :
    s.taken? cancelled = none := by
  rcases s.install_eq_ok_or_error (s.takeListing cancelled) with
    ⟨none, -, -⟩ | ⟨records, listed, -, -, keys⟩
  · exact none
  · rw [list_of_listing newestFirst (takeListing_eq_ok listed)] at keys
    have none : s.repository.store.unusable? = none := keys.find?_eq_none
    rw [none] at unusable
    cases unusable

end Service

/-! ## The refresh window -/

/-- A refresh that has failed gives back its claim, if it has one. -/
theorem Purpose.outcome_false (purpose : Purpose) :
    purpose.outcome false = match purpose.claim? with
      | none => .unnoticed
      | some claim => .released claim := by
  cases purpose <;> rfl

/-- A refresh without a claim has no hooks behind it that may take one. -/
theorem Service.claim?_resume_of_unclaimed {env : Environment} {now : Moment} {cancelled : Bool}
    {purpose : Purpose} (unclaimed : purpose.claim? = none) (s : Service) :
    (s.resume env now cancelled (.refresh purpose)).1.claim? = none := by
  cases purpose with
  | plain => rfl
  | forced => rfl
  | update | hook => cases unclaimed

theorem Coordinator.Stale.mono {interval now now' : Nat} {window : Option Nat}
    (h : Stale interval now window) (later : now ≤ now') : Stale interval now' window :=
  fun start begun => Nat.le_trans (h start begun) later

namespace World

variable {env : Environment} {w w' : World} {window : Option Nat} {move : Move} {number : Nat}

theorem order_step (env : Environment) (w : World) (move : Move) :
    (w.step env move).service.repository.oldestFirst = w.service.repository.oldestFirst := by
  have moves := moves_step env w move
  generalize w.step env move = w' at moves
  cases moves with
  | passes _ service alike => exact alike.order
  | refuses _ _ _ service answer alike => exact alike.order
  | begins _ _ _ service operation alike => exact alike.order
  | inserts record service inserted order => exact order
  | resumes number cancelled now operation progress service written mem resumed =>
    rw [settled_service]
    exact resumed.order

theorem order_of_run {Allowed : World → Move → Prop} (run : Run env Allowed w w') :
    w'.service.repository.oldestFirst = w.service.repository.oldestFirst :=
  run.induct (P := fun v => v.service.repository.oldestFirst = w.service.repository.oldestFirst) rfl
    fun v move same _ => (order_step env v move).trans same

/-- While an unusable key is listed, the keys in use stay as they are. -/
theorem snapshot_of_unusable_run (newestFirst : w.service.repository.oldestFirst = false)
    (run : Run env (fun v _ => v.store.unusable?.isSome) w w') :
    w'.service.snapshot = w.service.snapshot := by
  have invariant : w'.service.repository.oldestFirst = false ∧
      w'.service.snapshot = w.service.snapshot := by
    refine run.induct (P := fun v => v.service.repository.oldestFirst = false ∧
      v.service.snapshot = w.service.snapshot) ⟨newestFirst, rfl⟩ ?_
    rintro v move ⟨newestFirst, same⟩ unusable
    refine ⟨(order_step env v move).trans newestFirst, ?_⟩
    rcases v.served_step env move with ⟨-, stays⟩ | ⟨e, records, -, -, listing, keys⟩
    · exact stays.trans same
    · rw [Service.list_of_listing newestFirst listing] at keys
      have none : v.store.unusable? = none := keys.find?_eq_none
      rw [none] at unusable
      cases unusable
  exact invariant.2

/-- A request begins only when no update holds the refresh window. -/
def Separate (w : World) : Move → Prop
  | .begin _ _ _ => w.claims = []
  | _ => True

instance (w : World) : ∀ move : Move, Decidable (w.Separate move)
  | .begin _ _ _ => inferInstanceAs (Decidable (w.claims = []))
  | .resume _ _ _ | .login _ _ _ | .authenticate _ _ _ | .check _ _ | .change _ => .isTrue trivial

/-- The refresh window is as it was, or an update in progress holds it and knows what it was. -/
inductive Lends (window : Option Nat) (w : World) : Prop where
  | free (claims : w.claims = []) (same : w.window = window)
  | held (number now : Nat) (claims : w.claims = [(number, ⟨now, window⟩)])
    (taken : w.window = some now)

namespace Lends

theorem of_eq (h : w.Lends window) (same : w'.window = w.window) (claims : w'.claims = w.claims) :
    w'.Lends window := by
  cases h with
  | free none free => exact .free (claims.trans none) (same.trans free)
  | held number now one taken => exact .held number now (claims.trans one) (same.trans taken)

theorem of_takes {interval now : Nat} {claim? : Option Coordinator.Claim}
    (takes : Takes interval now window claim? w.window)
    (claims : w.claims = claim?.toList.map (number, ·)) : w.Lends window := by
  generalize taken : w.window = window' at takes
  cases takes with
  | keeps => exact .free claims taken
  | takes stale => exact .held number now claims taken

theorem of_unread (h : w.Lends window) (unread : move.elapsed? = none) :
    (w.step env move).Lends window := by
  obtain ⟨same, claims⟩ := window_step_of_unread env w unread
  exact h.of_eq same claims

theorem window_eq (h : w.Lends window) (free : w.claims = []) : w.window = window := by
  cases h with
  | free _ same => exact same
  | held number now claims =>
    rw [free] at claims
    cases claims

/-- A refresh that fails gives back the window if its update holds it. -/
theorem resume (h : w.Lends window) (distinct : w.Distinct) {purpose : Purpose}
    (operation : w.operation? number = some (.refresh purpose)) {cancelled : Bool}
    (failed : w.service.taken? cancelled = none) (now : Moment) :
    (w.step env (.resume number cancelled now)).Lends window := by
  let came := w.service.resume env now cancelled (.refresh purpose)
  have claims : (w.step env (.resume number cancelled now)).claims =
      came.1.claim?.toList.map (number, ·) ++ w.claims.filter fun p => p.1 != number :=
    claims_resume operation
  have takes := Service.takes_resume_refresh env now cancelled purpose w.service
  rw [failed, Option.isSome_none, Purpose.outcome_false, ← window_resume operation] at takes
  cases claimed : purpose.claim? with
  | none =>
    have unclaimed : came.1.claim? = none := Service.claim?_resume_of_unclaimed claimed w.service
    rw [unclaimed, claimed] at takes
    rw [unclaimed, claims_filter_of_unclaimed distinct operation claimed] at claims
    refine h.of_eq ?_ claims
    generalize (w.step env (.resume number cancelled now)).window = window' at takes
    cases takes
    rfl
  | some claim =>
    have mem := (mem_claims_of_operation? distinct operation).mpr claimed
    cases h with
    | free none =>
      rw [none] at mem
      cases mem
    | held number' now' one taken =>
      rw [one, List.mem_singleton] at mem
      cases mem
      -- the claim is the one in flight, and it knows the window that it gives back
      have back : Outcome.settle now.elapsed w.service.window (.released ⟨now', window⟩) = window :=
        if_pos taken
      rw [claimed, back] at takes
      rw [one] at claims
      exact .of_takes takes (by simpa using claims)

end Lends

/-- While an unusable key is listed, the window is lent to one update at most. -/
theorem lends_step (h : w.Lends window) (distinct : w.Distinct)
    (newestFirst : w.service.repository.oldestFirst = false)
    (unusable : w.store.unusable?.isSome) (separate : w.Separate move) :
    (w.step env move).Lends window := by
  cases move with
  | begin request cancelled now =>
    have free : w.claims = [] := separate
    have takes := Service.takes_begin env now cancelled request w.service
    have same : w.service.window = window := h.window_eq free
    rw [same, ← window_begin] at takes
    exact .of_takes takes (by rw [claims_begin, free, List.append_nil])
  | resume number cancelled now =>
    cases operation : w.operation? number with
    | none =>
      rw [step_resume_of_none operation]
      exact h
    | some resumed =>
      by_cases refreshes : ∃ purpose, resumed = .refresh purpose
      · obtain ⟨purpose, rfl⟩ := refreshes
        have failed := Service.taken?_of_unusable newestFirst unusable cancelled
        exact h.resume distinct operation failed now
      · have other : ∀ purpose, resumed ≠ .refresh purpose := not_exists.mp refreshes
        obtain ⟨unclaimed, same⟩ :=
          Service.takes_resume_other env now cancelled other w.service
        refine h.of_eq ((window_resume operation).trans same) ?_
        rw [claims_resume operation, unclaimed,
          claims_filter_of_unclaimed distinct operation (Operation.claim?_eq_none other)]
        rfl
  | login | authenticate | check | change => exact h.of_unread rfl

theorem window_of_unusable_run {service : Service}
    (newestFirst : service.repository.oldestFirst = false)
    (begun : Run env (fun _ _ => True) (start service) w) (idle : w.claims = [])
    (run : Run env (fun v move => v.store.unusable?.isSome ∧ v.Separate move) w w')
    (idle' : w'.claims = []) : w'.window = w.window := by
  have first : w.service.repository.oldestFirst = false := (order_of_run begun).trans newestFirst
  have invariant : w'.Ordered ∧ w'.Distinct ∧ w'.service.repository.oldestFirst = false ∧
      w'.Lends w.window := by
    refine run.induct (P := fun v => v.Ordered ∧ v.Distinct ∧
      v.service.repository.oldestFirst = false ∧ v.Lends w.window) ?_ ?_
    · exact ⟨ordered_of_run begun, distinct_of_run begun, first, .free idle rfl⟩
    · rintro v move ⟨ordered, distinct, newestFirst, lends⟩ ⟨unusable, separate⟩
      exact ⟨ordered_step ordered move, distinct_step distinct ordered move,
        (order_step env v move).trans newestFirst,
        lends_step lends distinct newestFirst unusable separate⟩
  exact invariant.2.2.2.window_eq idle'

/-! ## Behind rotations -/

/-- The record was written by a rotation that has succeeded. -/
def Succeeded (w : World) (e : Written) : Prop :=
  ∃ number answer, e.writer = some number ∧ (number, answer) ∈ w.answers ∧ answer.Rotated

theorem Succeeded.of_answer {e : Written} {number : Nat} {outcome : Rotation.Outcome}
    (writer : e.writer = some number) (answered : (number, .rotation (.ok outcome)) ∈ w.answers) :
    w.Succeeded e := ⟨number, _, writer, answered, trivial⟩

theorem retained_and_trimmed_of_run {m : Nat} {service : Service}
    (newestFirst : service.repository.oldestFirst = false)
    (run : Run env (fun w move => move.KeepsTo env.config m ∧ w.Careful env move)
      (start service) w) : w.Retained m ∧ w.Trimmed m := by
  have invariant : w.Ordered ∧ w.Retained m ∧ w.Trimmed m := by
    refine run.induct (P := fun w => w.Ordered ∧ w.Retained m ∧ w.Trimmed m) ?_ ?_
    · exact ⟨ordered_start service, retained_start m newestFirst, trimmed_start m service⟩
    · rintro w move ⟨ordered, retained, trimmed⟩ ⟨keeps, careful⟩
      exact ⟨ordered_step ordered move, retained_step retained keeps careful,
        trimmed_step trimmed ordered retained move⟩
  exact invariant.2

/-- Once the last of `m` rotations to the bound `m` has succeeded, nothing but their keys is
stored. -/
theorem list_of_rotations {m : Nat} (positive : 1 ≤ m) (retained : w.Retained m)
    (trimmed : w.Trimmed m) {written older : List Written} (history : w.history = written ++ older)
    (length : written.length = m) (succeeded : ∀ e ∈ written, w.Succeeded e) :
    w.store.list = written.map (·.record) := by
  have newest : w.records.take m = written.map (·.record) := by
    rw [records, history, List.map_append, List.take_left' (by rw [List.length_map, length])]
  cases written with
  | nil => exact absurd length (by simpa using (Nat.ne_of_gt positive).symm)
  | cons e rest =>
    -- the rotation to the newest key has deleted whatever the others have left
    obtain ⟨number, answer, writer, answered, rotated⟩ := succeeded e List.mem_cons_self
    rw [← newest]
    exact retained.holds.list_eq
      (trimmed.answers e (rest ++ older) history _ answered writer rotated)

end World

/-- While an unusable key is listed, each refresh that gets a listing fails over the newest one, and
the keys in use stay. As long as updates do not overlap, the refresh window is as it was whenever
none of them holds it: where one would refresh at first, the next ones do as well.

Behind `m` successful rotations to the bound `m` with usable keys, and without any other write in
between, each refresh that gets a listing takes exactly their keys into use. Either no key is
written under a name that is about to be deleted, or the requests that change the store take
turns, or no name is used again. -/
theorem wedged_until_rotated_out (env : Environment) (service : Service)
    (newestFirst : service.repository.oldestFirst = false) :
    (∀ w, Run env (fun _ _ => True) (.start service) w →
      (∀ r, w.store.unusable? = some r → ∀ records, w.service.repository.listing = .ok records →
        ∀ now (purpose : Purpose),
          purpose.Answered (.error (.invalid (.keyLength r.name r.key.length)))
            (w.service.resume env now false (.refresh purpose))) ∧
      (∀ w', Run env (fun v _ => v.store.unusable?.isSome) w w' →
        w'.service.snapshot = w.service.snapshot) ∧
      ∀ w', w.claims = [] →
        Run env (fun v move => v.store.unusable?.isSome ∧ v.Separate move) w w' → w'.claims = [] →
          w'.service.coordinator.lastRefreshed = w.service.coordinator.lastRefreshed ∧
          ∀ now now' cancelled cancelled', now.elapsed ≤ now'.elapsed →
            w.service.StartsRefresh env now cancelled →
              w'.service.StartsRefresh env now' cancelled') ∧
    ∀ m w, 1 ≤ m →
      Run env (fun w move => move.KeepsTo env.config m ∧ w.Careful env move) (.start service) w ∨
        Run env (fun w move => move.KeepsTo env.config m ∧ w.TakesTurns move) (.start service) w ∨
        Run env (fun w move => move.KeepsTo env.config m ∧ w.Fresh env move) (.start service) w →
      ∀ written older, w.history = written ++ older → written.length = m →
        (∀ e ∈ written, w.Succeeded e ∧ e.record.key.length = 32) →
        ∀ records, w.service.repository.listing = .ok records → ∀ now (purpose : Purpose),
          purpose.Answered (.ok m) (w.service.resume env now false (.refresh purpose)) ∧
          (w.service.resume env now false (.refresh purpose)).2.snapshot.Of
            (written.map (·.record)) := by
  refine ⟨?_, ?_⟩
  · intro w run
    have first : w.service.repository.oldestFirst = false :=
      (World.order_of_run run).trans newestFirst
    refine ⟨?_, ?_, ?_⟩
    · intro r unusable records listing now purpose
      exact w.service.refresh_of_unusable env now purpose first unusable listing
    · exact fun w' unusable => World.snapshot_of_unusable_run first unusable
    · intro w' idle unusable idle'
      have same : w'.service.window = w.service.window :=
        World.window_of_unusable_run newestFirst run idle unusable idle'
      refine ⟨same, ?_⟩
      intro now now' cancelled cancelled' later starts
      refine Service.startsRefresh_iff.mpr ?_
      rw [same]
      exact (Service.startsRefresh_iff.mp starts).mono later
  · intro m w positive run written older history length rotations records listing now purpose
    have careful : Run env (fun w move => move.KeepsTo env.config m ∧ w.Careful env move)
        (.start service) w := by
      rcases run with careful | turns | fresh
      · exact careful
      · exact World.careful_of_turns (World.solo_start service) turns
      · exact World.careful_of_fresh (fun _ _ keeps => keeps) (World.named_start service)
          (World.retained_start m newestFirst) fresh
    obtain ⟨retained, trimmed⟩ := World.retained_and_trimmed_of_run newestFirst careful
    have list := World.list_of_rotations positive retained trimmed history length
      fun e he => (rotations e he).1
    have stored : records = written.map (·.record) :=
      (Service.list_of_listing retained.newestFirst listing).trans list
    have usable : ∀ r ∈ records, r.key.length = 32 := by
      rw [stored]
      exact List.forall_mem_map.mpr fun e he => (rotations e he).2
    have refreshed := w.service.refresh_of_usable env now purpose usable listing
    rwa [stored, List.length_map, length] at refreshed

/-! ## Two runs -/

namespace Wedge

open Overlap (environment)

/-- A key of this many octets is put into the store. -/
def insert (name : String) (length : Nat) : Move :=
  .change (.insert ⟨name, List.replicate length 1, Moment.epoch.time⟩)

/-- A rotation begins to a key of 32 octets. -/
def rotate (name : String) (bound : Nat) : Move :=
  .begin (.rotateTo ⟨name, List.replicate 32 1, bound⟩) false .epoch

/-- A key that is too short is listed. -/
def wedged : World := (World.start .initial).after environment [insert "short" 1]

/-- An update fails over it. -/
def failing : List Move := [.begin .update false .epoch, .goOn 0]

/-- A rotation takes its place. -/
def replacing : List Move := [rotate "usable" 1, .goOn 0, .goOn 0, .goOn 0]

/-- Three rotations to three keys overlap. The first one goes on to delete the oldest key when the
others have replaced it by one of the same name. -/
def losing : List Move :=
  [insert "x" 1, insert "y" 1, insert "z" 1, rotate "p" 3, .goOn 0, .goOn 0, rotate "q" 3, .goOn 1,
   .goOn 1, .goOn 1, .goOn 1, rotate "x" 3, .goOn 2, .goOn 2, .goOn 2, .goOn 0]

def lost : World := (World.start .initial).after environment losing

/-- What a rotation has written. -/
def written (name : String) (number : Nat) : Written :=
  ⟨⟨name, List.replicate 32 1, Moment.epoch.time⟩, some number⟩

end Wedge

open Overlap (environment) in
open Wedge in
theorem refreshed_behind_rotation :
    (wedged.service.resume environment .epoch false (.refresh .forced)).1 =
      .ended (.refresh (.error (.invalid (.keyLength "short" 1)))) ∧
    (wedged.after environment failing).service.StartsRefresh environment .epoch false ∧
    ((wedged.after environment replacing).service.resume environment .epoch false
      (.refresh .forced)).1 = .ended (.refresh (.ok 1)) := by
  obtain ⟨wedges, recovers⟩ := wedged_until_rotated_out environment .initial rfl
  have run : Run environment (fun _ _ => True) (.start .initial) wedged :=
    Run.of_admits [insert "short" 1] (by decide_cbv)
  obtain ⟨answered, -, window⟩ := wedges wedged run
  refine ⟨?_, ?_, ?_⟩
  · have unusable : wedged.store.unusable? = some ⟨"short", [1], Moment.epoch.time⟩ := by cbv
    have listing : wedged.service.repository.listing =
        .ok [⟨"short", [1], Moment.epoch.time⟩] := by cbv
    exact answered _ unusable _ listing .epoch .forced
  · have failed : Run environment (fun v move => v.store.unusable?.isSome ∧ v.Separate move) wedged
        (wedged.after environment failing) := Run.of_admits failing (by decide_cbv)
    obtain ⟨-, retried⟩ := window _ (by cbv) failed (by cbv)
    exact retried .epoch .epoch false false (Nat.le_refl _)
      (Service.startsRefresh_of_not_fresh (by cbv))
  · have turns : Run environment (fun w move => move.KeepsTo environment.config 1 ∧
        w.TakesTurns move) (.start .initial) (wedged.after environment replacing) :=
      Run.of_admits (insert "short" 1 :: replacing) (by decide_cbv)
    have history : (wedged.after environment replacing).history =
        [written "usable" 0] ++ [⟨⟨"short", [1], Moment.epoch.time⟩, none⟩] := by cbv
    have answers : (wedged.after environment replacing).answers =
        [(0, .rotation (.ok ⟨"usable", Moment.epoch.time, ["short"]⟩))] := by cbv
    have succeeded : (wedged.after environment replacing).Succeeded (written "usable" 0) :=
      .of_answer rfl (answers ▸ List.mem_cons_self)
    have listing : (wedged.after environment replacing).service.repository.listing =
        .ok [⟨"usable", List.replicate 32 1, Moment.epoch.time⟩] := by cbv
    exact (recovers 1 _ (Nat.le_refl 1) (Or.inr (Or.inl turns)) _ _ history rfl
      (by simpa using ⟨succeeded, rfl⟩) _ listing .epoch .forced).1

open Overlap (environment) in
open Wedge in
/-- Rotations that overlap may leave fewer keys than they have written. -/
theorem not_forall_refreshed_behind_rotations :
    ¬ ∀ (env : Environment) (m : Nat) (service : Service), 1 ≤ m ∧ m ≤ 32 →
      service.repository.oldestFirst = false →
        ∀ w, Run env (fun _ move => move.KeepsTo env.config m) (.start service) w →
          ∀ written older, w.history = written ++ older → written.length = m →
            (∀ e ∈ written, w.Succeeded e ∧ e.record.key.length = 32) →
            ∀ records, w.service.repository.listing = .ok records → ∀ now (purpose : Purpose),
              purpose.Answered (.ok m) (w.service.resume env now false (.refresh purpose)) := by
  intro h
  have run : Run environment (fun _ move => move.KeepsTo environment.config 3) (.start .initial)
      lost := Run.of_admits losing (by decide_cbv)
  have history : lost.history = [written "x" 2, written "q" 1, written "p" 0] ++
      [⟨⟨"z", [1], Moment.epoch.time⟩, none⟩, ⟨⟨"y", [1], Moment.epoch.time⟩, none⟩,
       ⟨⟨"x", [1], Moment.epoch.time⟩, none⟩] := by cbv
  have answers : lost.answers =
      [(0, .rotation (.ok ⟨"p", Moment.epoch.time, ["x"]⟩)),
       (2, .rotation (.ok ⟨"x", Moment.epoch.time, ["z"]⟩)),
       (1, .rotation (.ok ⟨"q", Moment.epoch.time, ["y", "x"]⟩))] := by cbv
  have succeeded : ∀ e ∈ [written "x" 2, written "q" 1, written "p" 0],
      lost.Succeeded e ∧ e.record.key.length = 32 := by
    have answered : ∀ name number pruned,
        (number, .rotation (.ok ⟨name, Moment.epoch.time, pruned⟩)) ∈ lost.answers →
          lost.Succeeded (written name number) ∧ (written name number).record.key.length = 32 :=
      fun _ _ _ mem => ⟨.of_answer rfl mem, rfl⟩
    rw [answers] at answered
    intro e he
    simp only [List.mem_cons, List.not_mem_nil, or_false] at he
    rcases he with rfl | rfl | rfl
    · exact answered "x" 2 ["z"] (by simp)
    · exact answered "q" 1 ["y", "x"] (by simp)
    · exact answered "p" 0 ["x"] (by simp)
  have listing : lost.service.repository.listing =
      .ok [⟨"q", List.replicate 32 1, Moment.epoch.time⟩,
        ⟨"p", List.replicate 32 1, Moment.epoch.time⟩] := by cbv
  have two : (lost.service.resume environment .epoch false (.refresh .plain)).1 =
      .ended (.refresh (.ok 2)) := by cbv
  have three := h environment 3 .initial (by decide) rfl _ run _ _ history rfl succeeded _ listing
    .epoch .plain
  rw [Purpose.Answered, two] at three
  cases three

end Keyring
