import Keyring.Proofs.Aftermath
import Keyring.Proofs.Overlap
import Keyring.Proofs.Sweep
import Keyring.Proofs.Window

/-!
# Rotations that race

Rotations to the same bound that run at once in a service without failures, none of which is given
up, may still hinder each other: two of them have listed the same stale key, and the second one to
delete it finds it gone and stops there.

* `Service.Healthy` is a service without failures; `Service.Paces` lists what a step of a rotation
  does in it (`Service.Resumes.paces`).
* `Move.Races` says which moves make a race, `World.Laps` what they do.
* `World.Race` is what holds of a world in which rotations race (`World.Race.step`).
-/

namespace Keyring

namespace Service

/-! ## Services without failures -/

/-- No failure is set, and listings come newest first. -/
structure Healthy (s : Service) : Prop where
  faults : s.repository.faults = ⟨none, none, none⟩
  failAfterWrite : s.failAfterWrite = .off
  newestFirst : s.repository.oldestFirst = false

variable {env : Environment} {now : Moment} {s t : Service} {rotation : Rotation}
  {answer : Answer} {progress : Progress} {written : Option Record}

namespace Healthy

theorem report (healthy : s.Healthy) (events : List Event) : (s.report events).Healthy :=
  ⟨healthy.faults, healthy.failAfterWrite, healthy.newestFirst⟩

theorem nextDeletion (healthy : s.Healthy) (outcome : Rotation.Outcome) (listed : Nat)
    (names : List String) : (s.nextDeletion outcome listed names).2.Healthy := by
  induction names generalizing s with
  | nil => exact healthy.report _
  | cons name names ih =>
    rw [Service.nextDeletion]
    split
    · exact ih (healthy.report _)
    · exact healthy

theorem listWritten (healthy : s.Healthy) (cancelled : Bool) (plan : Rotation.Plan)
    (time : Instant) : (s.listWritten cancelled plan time).2.Healthy := by
  have off := healthy.failAfterWrite
  simp only [Service.listWritten, Service.report, off, Failpoint.pass]
  cases cancelled with
  | true => exact ⟨healthy.faults, rfl, healthy.newestFirst⟩
  | false => exact ⟨healthy.faults, rfl, healthy.newestFirst⟩

theorem write (healthy : s.Healthy) (name : String) (key : Bytes) (time : Instant) :
    Healthy { s with repository := (s.repository.write name key time).2 } := by
  have kept : (s.repository.write name key time).2.faults = s.repository.faults ∧
      (s.repository.write name key time).2.oldestFirst = s.repository.oldestFirst := by
    unfold Repository.write
    dsimp only
    split
    · exact ⟨rfl, rfl⟩
    · split <;> exact ⟨rfl, rfl⟩
  exact ⟨kept.1.trans healthy.faults, healthy.failAfterWrite, kept.2.trans healthy.newestFirst⟩

theorem delete (healthy : s.Healthy) (name : String) :
    Healthy { s with repository := (s.repository.delete name).2 } := by
  have kept : (s.repository.delete name).2.faults = s.repository.faults ∧
      (s.repository.delete name).2.oldestFirst = s.repository.oldestFirst := by
    unfold Repository.delete
    dsimp only
    split
    · exact ⟨rfl, rfl⟩
    · split <;> exact ⟨rfl, rfl⟩
  exact ⟨kept.1.trans healthy.faults, healthy.failAfterWrite, kept.2.trans healthy.newestFirst⟩

theorem resumeRotation (healthy : s.Healthy) (now : Moment) (cancelled : Bool)
    (rotation : Rotation) : (s.resumeRotation now cancelled rotation).2.Healthy := by
  cases rotation with
  | writing plan =>
    have written := healthy.write plan.name plan.key now.time
    simp only [Service.resumeRotation]
    split
    · rename_i call
      rw [call] at written
      exact written
    · rename_i call
      rw [call] at written
      exact written.listWritten cancelled plan _
  | listing name bound createdAt =>
    simp only [Service.resumeRotation]
    split
    · exact healthy
    · exact healthy.nextDeletion _ _ _
  | deleting outcome listed stale rest =>
    have deleted := healthy.delete stale
    simp only [Service.resumeRotation]
    split
    · exact healthy.report _
    · split
      · rename_i call
        rw [call] at deleted
        exact deleted.report _
      · rename_i call
        rw [call] at deleted
        exact (deleted.report _).nextDeletion _ _ _

theorem resume (healthy : s.Healthy) (env : Environment) (now : Moment) (cancelled : Bool)
    (rotation : Rotation) :
    (s.resume env now cancelled (.rotation .direct rotation)).2.Healthy := by
  have stepped := healthy.resumeRotation now cancelled rotation
  simp only [Service.resume]
  generalize s.resumeRotation now cancelled rotation = step at stepped
  obtain ⟨progress, t⟩ := step
  cases progress <;> exact stepped

theorem deleteFault?_eq_none (healthy : s.Healthy) (name : String) :
    s.repository.deleteFault? name = none := by
  rw [Repository.deleteFault?, healthy.faults]

end Healthy

/-! ## Steps of healthy rotations -/

/-- A healthy rotation that ends has succeeded, or has found a key gone that it was to delete. -/
theorem answer_of_resume (healthy : s.Healthy)
    (free : ∀ plan, rotation = .writing plan → plan.name ∉ s.repository.store.names)
    (h : (s.resume env now false (.rotation .direct rotation)).1 = .ended answer) :
    (∃ outcome, answer = .rotation (.ok outcome)) ∨
      ∃ outcome listed stale rest, rotation = .deleting outcome listed stale rest ∧
        stale ∉ s.repository.store.names ∧
          answer = .rotation (.error (.keyStorage .delete (.notFound stale))) := by
  have came : ∃ result, (s.resumeRotation now false rotation).1 = .ended result ∧
      answer = .rotation result := by
    simp only [resume] at h
    generalize s.resumeRotation now false rotation = step at h
    obtain ⟨progress, t⟩ := step
    cases progress with
    | awaiting rotation => cases h
    | ended result =>
      cases h
      exact ⟨result, rfl, rfl⟩
  obtain ⟨result, ended, rfl⟩ := came
  cases rotation with
  | writing plan =>
    have fresh : ¬ s.repository.store.contains plan.name = true :=
      fun taken => free plan rfl (Store.contains_iff_mem_names.mp taken)
    have unhindered : s.hindrance? false (.writing plan) = none := by
      simp only [hindrance?, healthy.faults, healthy.failAfterWrite, if_neg fresh, Failpoint.pass]
      rfl
    rw [progress_writing, unhindered] at ended
    cases ended
  | listing name bound createdAt =>
    have listing : s.repository.listing = .ok s.repository.store.list := by
      simp only [Repository.listing, healthy.faults, healthy.newestFirst]
      rfl
    simp only [resumeRotation, Bool.false_eq_true, if_false, listing] at ended
    exact Or.inl ⟨_, congrArg Answer.rotation (ok_of_nextDeletion ended)⟩
  | deleting outcome listed stale rest =>
    have answered := s.repository.answer_delete stale
    rw [healthy.deleteFault?_eq_none] at answered
    simp only [resumeRotation, Bool.false_eq_true, if_false] at ended
    split at ended
    · rename_i e repository call
      cases ended
      rw [call] at answered
      dsimp only at answered
      split at answered
      · cases answered
      · rename_i absent
        cases answered
        refine Or.inr ⟨outcome, listed, stale, rest, rfl, ?_, rfl⟩
        exact fun stored => absent (Store.contains_iff_mem_names.mpr stored)
    · exact Or.inl ⟨_, congrArg Answer.rotation (ok_of_nextDeletion ended)⟩

/-- What a step of a rotation comes to and does in a healthy service. -/
inductive Paces (now : Moment) (s t : Service) : Rotation → Progress → Option Record → Prop where
  | writes (plan : Rotation.Plan)
    (inserted : s.repository.store.insert ⟨plan.name, plan.key, now.time⟩ = .ok t.repository.store) :
    Paces now s t (.writing plan)
      (.awaiting (.rotation .direct (.listing plan.name plan.bound now.time)))
      (some ⟨plan.name, plan.key, now.time⟩)
  | lists (name : String) (bound : Nat) (createdAt : Instant) (progress : Progress)
    (store : t.repository.store = s.repository.store)
    (behind : Prunes .direct name (s.repository.store.names.drop bound) progress)
    (succeeds : ∀ answer, progress = .ended answer → ∃ outcome, answer = .rotation (.ok outcome)) :
    Paces now s t (.listing name bound createdAt) progress none
  | deletes (outcome : Rotation.Outcome) (listed : Nat) (stale : String) (rest : List String)
    (progress : Progress)
    (deleted : s.repository.store.delete stale = .ok t.repository.store)
    (behind : Prunes .direct outcome.name rest progress)
    (succeeds : ∀ answer, progress = .ended answer → ∃ outcome, answer = .rotation (.ok outcome)) :
    Paces now s t (.deleting outcome listed stale rest) progress none
  /-- The next key to be deleted is gone. -/
  | misses (outcome : Rotation.Outcome) (listed : Nat) (stale : String) (rest : List String)
    (gone : stale ∉ s.repository.store.names)
    (store : t.repository.store = s.repository.store) :
    Paces now s t (.deleting outcome listed stale rest)
      (.ended (.rotation (.error (.keyStorage .delete (.notFound stale))))) none

theorem Resumes.paces
    (resumed : Resumes now s t (.rotation .direct rotation) progress written)
    (newestFirst : s.repository.oldestFirst = false)
    (honest : ∀ answer, progress = .ended answer → (∃ outcome, answer = .rotation (.ok outcome)) ∨
      ∃ outcome listed stale rest, rotation = .deleting outcome listed stale rest ∧
        stale ∉ s.repository.store.names ∧
          answer = .rotation (.error (.keyStorage .delete (.notFound stale)))) :
    Paces now s t rotation progress written := by
  cases resumed with
  | ends _ answer alike unrotated =>
    rcases honest answer rfl with ⟨outcome, rfl⟩ | ⟨outcome, listed, stale, rest, rfl, gone, rfl⟩
    · exact absurd trivial unrotated
    · exact .misses outcome listed stale rest gone alike.store
  | rotationWrites caller plan progress inserted order snapshot behind =>
    rcases behind with ⟨answer, rfl, unrotated⟩ | rfl
    · rcases honest answer rfl with ⟨outcome, rfl⟩ | ⟨outcome, listed, stale, rest, other, -⟩
      · exact absurd trivial unrotated
      · cases other
    · exact .writes plan inserted
  | rotationLists caller name bound createdAt progress records alike listing behind =>
    rw [list_of_listing newestFirst listing, List.map_drop] at behind
    refine .lists name bound createdAt progress alike.store behind fun answer ended => ?_
    rcases honest answer ended with succeeded | ⟨outcome, listed, stale, rest, other, -⟩
    · exact succeeded
    · cases other
  | rotationDeletes caller outcome listed stale rest progress deleted order snapshot behind =>
    refine .deletes outcome listed stale rest progress deleted behind fun answer ended => ?_
    rcases honest answer ended with succeeded | ⟨outcome, listed, stale, rest, same, gone, -⟩
    · exact succeeded
    · cases same
      have absent : s.repository.store.contains stale = false :=
        Bool.eq_false_iff.mpr fun stored => gone (Store.contains_iff_mem_names.mp stored)
      rw [Store.delete_eq_error_iff.mpr ⟨absent, rfl⟩] at deleted
      cases deleted

end Service

/-! ## Worlds in which rotations race -/

namespace Store

theorem names_of_insert {s t : Store} {r : Record} (h : s.insert r = .ok t) :
    t.names = r.name :: s.names := by
  rw [names, list_of_insert h]
  rfl

theorem mem_names_of_delete {s t : Store} {name : String} (h : s.delete name = .ok t)
    (other : String) : other ∈ t.names ↔ other ∈ s.names ∧ other ≠ name := by
  rw [names, list_of_delete h, names]
  constructor
  · intro mem
    obtain ⟨r, hr, rfl⟩ := List.mem_map.mp mem
    obtain ⟨stored, different⟩ := List.mem_filter.mp hr
    exact ⟨List.mem_map_of_mem stored, bne_iff_ne.mp different⟩
  · rintro ⟨mem, different⟩
    obtain ⟨r, hr, rfl⟩ := List.mem_map.mp mem
    exact List.mem_map_of_mem (List.mem_filter.mpr ⟨hr, bne_iff_ne.mpr different⟩)

end Store

/-- The name that an operation is to write a key under. -/
def Operation.planned? : Operation → Option String
  | .rotation _ (.writing plan) => some plan.name
  | _ => none

namespace Service

variable {now : Moment} {s t : Service} {rotation : Rotation} {caller : Caller} {own : String}
  {names all doomed : List String} {spared : Option String} {progress : Progress}
  {next : Operation} {written : Option Record}

/-- A rotation that goes on to delete has passed over its own name at most. -/
theorem Prunes.split (h : Prunes caller own names (.awaiting next)) :
    (∃ rotation, next = .rotation caller rotation) ∧ next.planned? = none ∧ next.doomed ≠ [] ∧
      ∃ passed, names = passed ++ next.doomed ∧ ∀ name ∈ passed, name = own := by
  cases h with
  | next outcome listed passed stale rest named passed_own other split =>
    exact ⟨⟨_, rfl⟩, rfl, List.cons_ne_nil _ _, passed, split, passed_own⟩

/-- A rotation goes on as long as there is a name to be deleted other than its own. -/
theorem Prunes.exists_next {name : String} (h : Prunes caller own names progress)
    (mem : name ∈ names) (other : name ≠ own) : ∃ next, progress = .awaiting next := by
  cases h with
  | done answer rest => exact absurd (rest name mem) other
  | next => exact ⟨_, rfl⟩

theorem Prunes.thorough (h : Prunes caller own names (.awaiting next))
    (thorough : Thorough all t.repository.store.names (some own) names) :
    Thorough all t.repository.store.names next.own? next.doomed := by
  obtain ⟨-, -, -, passed, split, mine⟩ := h.split
  rw [h.own?.1]
  rw [split] at thorough
  exact thorough.of_append fun name passed => congrArg some (mine name passed).symm

namespace Paces

/-- What a rotation is that goes on. -/
theorem goes_on (paced : Paces now s t rotation (.awaiting next) written) :
    (∃ r, next = .rotation .direct r) ∧ next.planned? = none ∧
      ((∃ r, written = some r ∧ next.own? = some r.name) ∨
        written = none ∧ next.own? = (Operation.rotation .direct rotation).own?) := by
  cases paced with
  | writes plan inserted => exact ⟨⟨_, rfl⟩, rfl, Or.inl ⟨_, rfl, rfl⟩⟩
  | lists name bound createdAt _ store behind =>
    obtain ⟨direct, planned, -⟩ := behind.split
    exact ⟨direct, planned, Or.inr ⟨rfl, behind.own?.1⟩⟩
  | deletes outcome listed stale rest _ deleted behind =>
    obtain ⟨direct, planned, -⟩ := behind.split
    exact ⟨direct, planned, Or.inr ⟨rfl, behind.own?.1⟩⟩

/-- The lists of the other rotations stay thorough. -/
theorem thorough_other (paced : Paces now s t rotation progress written)
    (fresh : ∀ plan, rotation = .writing plan → plan.name ∉ all)
    (known : ∀ name ∈ s.repository.store.names, name ∈ all)
    (thorough : Thorough all s.repository.store.names spared doomed) :
    Thorough (written.toList.map (·.name) ++ all) t.repository.store.names spared doomed := by
  cases paced with
  | writes plan inserted =>
    rw [Store.names_of_insert inserted]
    exact thorough.cons (fresh plan rfl) known
  | lists _ _ _ _ store | misses _ _ _ _ _ store =>
    rw [store]
    exact thorough
  | deletes _ _ _ _ _ deleted =>
    refine thorough.of_subset fun name mem => ?_
    exact ((Store.mem_names_of_delete deleted name).mp mem).1

/-- The list of the rotation itself stays thorough, and is so once it has one. -/
theorem thorough (paced : Paces now s t rotation (.awaiting next) written) (distinct : all.Nodup)
    (sublist : s.repository.store.names.Sublist all)
    (thorough : Thorough all s.repository.store.names (Operation.rotation .direct rotation).own?
      (Operation.rotation .direct rotation).doomed) :
    Thorough (written.toList.map (·.name) ++ all) t.repository.store.names next.own?
      next.doomed := by
  cases paced with
  | writes plan inserted => exact .nil _ _ _
  | lists name bound createdAt _ store behind =>
    refine behind.thorough ?_
    rw [store]
    exact .drop distinct sublist _ bound
  | deletes outcome listed stale rest _ deleted behind =>
    exact behind.thorough (thorough.of_delete (Store.mem_names_of_delete deleted))

end Paces

end Service

namespace World

variable {env : Environment} {w : World} {m : Nat} {move : Move} {number : Nat}
  {progress : Progress} {service : Service} {written : Option Record}

/-- The names of all records that were put in, from the newest to the oldest. -/
def names (w : World) : List String := w.records.map (·.name)

/-- The names that are taken, or are about to be. -/
def reserved (w : World) : List String := w.pending.filterMap (·.2.planned?) ++ w.names

end World

/-- What happens when rotations to the bound `m` race: they begin, each with a name of its own, or go
on, and none is given up. -/
def Move.Races (m : Nat) (w : World) : Move → Prop
  | .begin (.rotateTo plan) cancelled _ =>
    cancelled = false ∧ plan.Valid ∧ plan.bound = m ∧ plan.name ∉ w.reserved
  | .resume _ cancelled _ => cancelled = false
  | _ => False

instance (plan : Rotation.Plan) : Decidable plan.Valid :=
  decidable_of_iff (plan.key ≠ [] ∧ plan.name ≠ "" ∧ 1 ≤ plan.bound ∧ plan.bound ≤ 32)
    ⟨fun ⟨key, name, bound⟩ => ⟨key, name, bound⟩, fun h => ⟨h.key, h.name, h.bound⟩⟩

instance (m : Nat) (w : World) : ∀ move : Move, Decidable (move.Races m w)
  | .begin request cancelled _ =>
    match request with
    | .rotateTo plan => decidable_of_iff
      (cancelled = false ∧ plan.Valid ∧ plan.bound = m ∧ plan.name ∉ w.reserved) Iff.rfl
    | .refresh | .forceRefresh | .update | .rotate _ | .trigger _ _ | .afterResponse | .write _ _
    | .list | .delete _ => .isFalse id
  | .resume _ cancelled _ => decidable_of_iff (cancelled = false) Iff.rfl
  | .login _ _ _ | .authenticate _ _ _ | .check _ _ | .change _ => .isFalse id

theorem Move.Races.rotates {m : Nat} {w : World} {move : Move} (h : move.Races m w) :
    move.Rotates m := by
  cases move with
  | begin request =>
    cases request with
    | rotateTo plan => exact h.2.2.1
    | _ => exact h.elim
  | resume => trivial
  | _ => exact h.elim

namespace World

variable {env : Environment} {w : World} {m : Nat} {move : Move} {number : Nat}
  {progress : Progress} {service : Service} {written : Option Record}

/-- What a move does while rotations race. -/
inductive Laps (w : World) : Move → World → Prop where
  | idles (move : Move) : Laps w move w
  | begins (plan : Rotation.Plan) (now : Moment) (valid : plan.Valid)
    (unused : plan.name ∉ w.reserved) :
    Laps w (.begin (.rotateTo plan) false now)
      { w with
        pending := (w.begun, .rotation .direct (.writing plan)) :: w.pending
        begun := w.begun + 1 }
  | resumes (number : Nat) (now : Moment) (rotation : Rotation) (progress : Progress)
    (service : Service) (written : Option Record)
    (mem : (number, .rotation .direct rotation) ∈ w.pending) (healthy : service.Healthy)
    (paced : Service.Paces now w.service service rotation progress written) :
    Laps w (.resume number false now) (w.settled number progress service written)

/-- What holds of a world in which rotations to the bound `m` race. -/
structure Race (m : Nat) (w : World) : Prop where
  ordered : w.Ordered
  distinct : w.Distinct
  retained : w.Retained m
  trimmed : w.Trimmed m
  healthy : w.service.Healthy
  calls : ∀ p ∈ w.pending, ∃ rotation, p.2 = .rotation .direct rotation
  /-- No name is given twice. -/
  nodup : w.names.Nodup
  unwritten : ∀ p ∈ w.pending, ∀ name, p.2.planned? = some name → name ∉ w.names
  apart : ∀ p ∈ w.pending, ∀ q ∈ w.pending, ∀ name, p.2.planned? = some name →
    q.2.planned? = some name → p = q
  owned : ∀ p ∈ w.pending, ∀ name, p.2.own? = some name →
    ∃ e ∈ w.history, e.writer = some p.1 ∧ e.record.name = name
  thorough : ∀ p ∈ w.pending, Thorough w.names w.store.names p.2.own? p.2.doomed

theorem race_start (m : Nat) (healthy : service.Healthy) : (start service).Race m where
  ordered := ordered_start service
  distinct := by simp [Distinct, start]
  retained := retained_start m healthy.newestFirst
  trimmed := trimmed_start m service
  healthy := healthy
  calls := by simp [start]
  nodup := by
    rw [names, records_start]
    exact service.repository.store.nodup_names
  unwritten := by simp [start]
  apart := by simp [start]
  owned := by simp [start]
  thorough := by simp [start]

namespace Race

theorem sublist (race : w.Race m) : w.store.names.Sublist w.names :=
  race.retained.holds.sublist.map _

/-- The steps of racing rotations. -/
theorem laps (race : w.Race m) (env : Environment) (races : move.Races m w) :
    Laps w move (w.step env move) := by
  cases move with
  | begin request cancelled now =>
    cases request with
    | rotateTo plan =>
      obtain ⟨rfl, valid, -, unused⟩ := races
      have begun : w.service.begin env now false (.rotateTo plan) =
          (.awaiting (.rotation .direct (.writing plan)), w.service) := by
        simp only [Service.begin, Service.beginRotation_of_valid valid]
        rfl
      rw [step, World.begin, begun]
      exact .begins plan now valid unused
    | _ => exact races.elim
  | resume number cancelled now =>
    obtain rfl : cancelled = false := races
    cases found : w.operation? number with
    | none =>
      rw [step_resume_of_none found]
      exact .idles _
    | some operation =>
      have mem := mem_pending_of_operation? found
      obtain ⟨rotation, same⟩ := race.calls _ mem
      obtain rfl : operation = .rotation .direct rotation := same
      obtain ⟨written, resumed, stepped⟩ := exists_step_resume_eq_settled found env false now
      have free : ∀ plan, rotation = .writing plan → plan.name ∉ w.store.names := by
        rintro plan rfl taken
        exact race.unwritten _ mem plan.name rfl (race.sublist.subset taken)
      have paced := resumed.paces race.healthy.newestFirst fun answer ended =>
        Service.answer_of_resume race.healthy free ended
      rw [stepped]
      exact .resumes number now rotation _ _ written mem (race.healthy.resume env now false rotation)
        paced
  | _ => exact races.elim

/-- A name that is about to be written is no name yet. -/
theorem fresh (race : w.Race m) (laps : Laps w move (w.step env move)) : w.Fresh env move := by
  refine ⟨fun e he => ?_⟩
  unfold entered at he
  generalize w.step env move = w' at laps he
  cases laps with
  | idles | begins => simp at he
  | resumes number now rotation progress service written mem healthy paced =>
    have history : (w.settled number progress service written).history =
        written.toList.map (⟨·, some number⟩) ++ w.history := rfl
    rw [history, List.length_append, Nat.add_sub_cancel, List.take_left] at he
    cases paced with
    | writes plan inserted =>
      rw [List.mem_singleton.mp he]
      exact race.unwritten _ mem plan.name rfl
    | lists | deletes | misses => cases he

theorem careful (race : w.Race m) (laps : Laps w move (w.step env move)) : w.Careful env move :=
  Named.careful (fun p hp name doomed => (race.thorough p hp).subset name doomed) (race.fresh laps)

/-- A rotation that starts is one more, and nothing else changes. -/
theorem calls_step (race : w.Race m) (laps : Laps w move (w.step env move)) :
    ∀ p ∈ (w.step env move).pending, ∃ rotation, p.2 = .rotation .direct rotation := by
  generalize w.step env move = w' at laps
  cases laps with
  | idles => exact race.calls
  | begins plan => exact List.forall_mem_cons.mpr ⟨⟨_, rfl⟩, race.calls⟩
  | resumes number now rotation progress service written mem healthy paced =>
    intro p hp
    rcases mem_pending_settled hp with ⟨hp, -⟩ | ⟨next, rfl, rfl⟩
    · exact race.calls p hp
    · exact paced.goes_on.1

theorem healthy_step (race : w.Race m) (laps : Laps w move (w.step env move)) :
    (w.step env move).service.Healthy := by
  generalize w.step env move = w' at laps
  cases laps with
  | idles | begins => exact race.healthy
  | resumes number now rotation progress service written mem healthy paced =>
    rw [settled_service]
    exact healthy

theorem nodup_step (race : w.Race m) (laps : Laps w move (w.step env move)) :
    (w.step env move).names.Nodup := by
  generalize w.step env move = w' at laps
  cases laps with
  | idles | begins => exact race.nodup
  | resumes number now rotation progress service written mem healthy paced =>
    rw [names, records_settled, List.map_append]
    cases paced with
    | writes plan inserted =>
      exact List.nodup_cons.mpr ⟨race.unwritten _ mem plan.name rfl, race.nodup⟩
    | lists | deletes | misses => exact race.nodup

theorem unwritten_step (race : w.Race m) (laps : Laps w move (w.step env move)) :
    ∀ p ∈ (w.step env move).pending, ∀ name, p.2.planned? = some name →
      name ∉ (w.step env move).names := by
  generalize w.step env move = w' at laps
  cases laps with
  | idles => exact race.unwritten
  | begins plan now valid unused =>
    refine List.forall_mem_cons.mpr ⟨?_, race.unwritten⟩
    intro name planned
    cases planned
    exact fun known => unused (List.mem_append_right _ known)
  | resumes number now rotation progress service written mem healthy paced =>
    intro p hp name planned known
    rw [names, records_settled, List.map_append, List.mem_append] at known
    rcases mem_pending_settled hp with ⟨before, other⟩ | ⟨next, rfl, rfl⟩
    · rcases known with new | known
      · cases paced with
        | writes plan inserted =>
          obtain rfl : name = plan.name := List.mem_singleton.mp new
          exact other (congrArg Prod.fst (race.apart p before _ mem plan.name planned rfl))
        | lists | deletes | misses => cases new
      · exact race.unwritten p before name planned known
    · rw [paced.goes_on.2.1] at planned
      cases planned

theorem apart_step (race : w.Race m) (laps : Laps w move (w.step env move)) :
    ∀ p ∈ (w.step env move).pending, ∀ q ∈ (w.step env move).pending, ∀ name,
      p.2.planned? = some name → q.2.planned? = some name → p = q := by
  generalize w.step env move = w' at laps
  cases laps with
  | idles => exact race.apart
  | begins plan now valid unused =>
    have new {p : Nat × Operation} (hp : p ∈ w.pending) : p.2.planned? ≠ some plan.name :=
      fun planned => unused (List.mem_append_left _ (List.mem_filterMap.mpr ⟨p, hp, planned⟩))
    intro p hp q hq name planned planned'
    rcases List.mem_cons.mp hp with rfl | hp <;> rcases List.mem_cons.mp hq with rfl | hq
    · rfl
    · cases planned
      exact absurd planned' (new hq)
    · cases planned'
      exact absurd planned (new hp)
    · exact race.apart p hp q hq name planned planned'
  | resumes number now rotation progress service written mem healthy paced =>
    have goes {p : Nat × Operation} (hp : p ∈ (w.settled number progress service written).pending)
        {name : String} (planned : p.2.planned? = some name) : p ∈ w.pending := by
      rcases mem_pending_settled hp with ⟨hp, -⟩ | ⟨next, rfl, rfl⟩
      · exact hp
      · rw [paced.goes_on.2.1] at planned
        cases planned
    intro p hp q hq name planned planned'
    exact race.apart p (goes hp planned) q (goes hq planned') name planned planned'

theorem owned_step (race : w.Race m) (laps : Laps w move (w.step env move)) :
    ∀ p ∈ (w.step env move).pending, ∀ name, p.2.own? = some name →
      ∃ e ∈ (w.step env move).history, e.writer = some p.1 ∧ e.record.name = name := by
  generalize w.step env move = w' at laps
  cases laps with
  | idles => exact race.owned
  | begins plan => exact List.forall_mem_cons.mpr ⟨(fun name own => nomatch own), race.owned⟩
  | resumes number now rotation progress service written mem healthy paced =>
    intro p hp name own
    have kept (q : Nat × Operation) (hq : q ∈ w.pending) (own : q.2.own? = some name) :
        ∃ e ∈ (w.settled number progress service written).history,
          e.writer = some q.1 ∧ e.record.name = name := by
      obtain ⟨e, he, found⟩ := race.owned q hq name own
      exact ⟨e, List.mem_append_right _ he, found⟩
    rcases mem_pending_settled hp with ⟨hp, -⟩ | ⟨next, rfl, rfl⟩
    · exact kept p hp own
    · rcases paced.goes_on.2.2 with ⟨r, rfl, mine⟩ | ⟨rfl, same⟩
      · rw [mine] at own
        cases own
        exact ⟨⟨r, some number⟩, List.mem_append_left _ (List.mem_singleton_self _), rfl, rfl⟩
      · exact kept (number, .rotation .direct rotation) mem (same ▸ own)

theorem thorough_step (race : w.Race m) (laps : Laps w move (w.step env move)) :
    ∀ p ∈ (w.step env move).pending,
      Thorough (w.step env move).names (w.step env move).store.names p.2.own? p.2.doomed := by
  generalize w.step env move = w' at laps
  cases laps with
  | idles => exact race.thorough
  | begins plan => exact List.forall_mem_cons.mpr ⟨.nil _ _ _, race.thorough⟩
  | resumes number now rotation progress service written mem healthy paced =>
    intro p hp
    rw [names, records_settled, List.map_append, store, settled_service]
    rcases mem_pending_settled hp with ⟨hp, -⟩ | ⟨next, rfl, rfl⟩
    · refine paced.thorough_other ?_ (fun _ mem => race.sublist.subset mem) (race.thorough p hp)
      rintro plan rfl
      exact race.unwritten _ mem plan.name rfl
    · exact paced.thorough race.nodup race.sublist (race.thorough _ mem)

theorem step (race : w.Race m) (env : Environment) (races : move.Races m w) :
    (w.step env move).Race m := by
  have laps := race.laps env races
  exact {
    ordered := ordered_step race.ordered move
    distinct := distinct_step race.distinct race.ordered move
    retained := retained_step race.retained (races.rotates.keepsTo _) (race.careful laps)
    trimmed := trimmed_step race.trimmed race.ordered race.retained move
    healthy := race.healthy_step laps
    calls := race.calls_step laps
    nodup := race.nodup_step laps
    unwritten := race.unwritten_step laps
    apart := race.apart_step laps
    owned := race.owned_step laps
    thorough := race.thorough_step laps }

end Race

end World

end Keyring
