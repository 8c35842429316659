import Keyring.Proofs.Effect
import Keyring.Proofs.World

/-!
# What a rotation leaves behind

A rotation may fail or be given up at each of its calls, and nothing is rolled back. As long as
nothing else changes the store, the way in which it ends settles what it leaves there.

* `Rotation.Alone` relates a plan to what its rotation may have come to, whatever failures are set and
  whenever its caller gives up.
* `Rotation.Stage` says what is stored while a rotation awaits a call, `Rotation.Left` what is stored
  once it has ended (`stage_of_alone`, `left_of_alone`).
* `Service.hindrance?` is what keeps a call from being made.
* `records_behind_rotation` is the result about whole rotations.
-/

namespace Keyring

/-- Striking a name out of records with distinct names takes one record out. -/
theorem filter_name_ne {before behind : List Record} {r : Record}
    (distinct : ((before ++ r :: behind).map (·.name)).Nodup) :
    (before ++ r :: behind).filter (fun q => q.name != r.name) = before ++ behind := by
  rw [List.map_append, List.map_cons, List.nodup_append, List.nodup_cons] at distinct
  obtain ⟨-, ⟨later, -⟩, apart⟩ := distinct
  have kept : before.filter (fun q => q.name != r.name) = before := by
    refine List.filter_eq_self.mpr fun q hq => bne_iff_ne.mpr ?_
    exact apart q.name (List.mem_map_of_mem hq) r.name List.mem_cons_self
  have kept' : behind.filter (fun q => q.name != r.name) = behind := by
    refine List.filter_eq_self.mpr fun q hq => bne_iff_ne.mpr fun same => later ?_
    exact same ▸ List.mem_map_of_mem hq
  rw [List.filter_append, List.filter_cons_of_neg (by simp), kept, kept']

namespace Rotation

/-- The plan keeps the rules of rotations. -/
structure Plan.Valid (plan : Plan) : Prop where
  key : plan.key ≠ []
  name : plan.name ≠ ""
  bound : 1 ≤ plan.bound ∧ plan.bound ≤ 32

/-- The records once the new one has been written. -/
def Plan.enter (plan : Plan) (time : Instant) (records : List Record) : List Record :=
  ⟨plan.name, plan.key, time⟩ :: records

/-- The records without the first `count` of those past the bound. -/
def Plan.strike (plan : Plan) (count : Nat) (records : List Record) : List Record :=
  records.take plan.bound ++ records.drop (plan.bound + count)

/-- The names of the first `count` records past the bound. -/
def Plan.struck (plan : Plan) (count : Nat) (records : List Record) : List String :=
  ((records.drop plan.bound).take count).map (·.name)

/-- A rotation that is alone, and the service: it has begun in the service `s`, and between its steps
the service changes in any way that leaves the store and the order of listings as they are. -/
inductive Alone (plan : Plan) (s : Service) : Progress → Service → Prop where
  | begins (cancelled : Bool) :
    Alone plan s (s.beginRotation plan cancelled).1 (s.beginRotation plan cancelled).2
  | resumes {rotation : Rotation} {t u : Service} (now : Moment) (cancelled : Bool)
    (alone : Alone plan s (.awaiting rotation) t)
    (store : u.repository.store = t.repository.store)
    (order : u.repository.oldestFirst = s.repository.oldestFirst) :
    Alone plan s (u.resumeRotation now cancelled rotation).1
      (u.resumeRotation now cancelled rotation).2

/-- What is stored while a rotation awaits a call, if `records` were at first. -/
inductive Stage (plan : Plan) (records : List Record) : Rotation → List Record → Prop where
  | writing : Stage plan records (.writing plan) records
  | listing (time : Instant) (fresh : plan.name ∉ records.map (·.name)) :
    Stage plan records (.listing plan.name plan.bound time) (plan.enter time records)
  /-- `count` records are deleted, and `stale` is to be the next one. -/
  | deleting (time : Instant) (fresh : plan.name ∉ records.map (·.name)) (count : Nat)
    (stale : Record) (rest : List Record)
    (behind : (plan.enter time records).drop (plan.bound + count) = stale :: rest) :
    Stage plan records
      (.deleting ⟨plan.name, time, plan.struck count (plan.enter time records)⟩
        (plan.enter time records).length stale.name (rest.map (·.name)))
      (plan.strike count (plan.enter time records))

/-- What a rotation leaves, if `records` were stored at first. -/
inductive Left (plan : Plan) (records : List Record) : Except Error Outcome → List Record → Prop where
  | refused (e : Invalid) (broken : ¬ plan.Valid) : Left plan records (.error (.invalid e)) records
  | unwritten (valid : plan.Valid) (e : StoreError) :
    Left plan records (.error (.keyStorage .write e)) records
  | unlisted (valid : plan.Valid) (time : Instant) (e : StoreError) :
    Left plan records (.error (.keyStorage .list e)) (plan.enter time records)
  /-- Of the records past the bound, `count` are deleted, and not all. -/
  | undeleted (valid : plan.Valid) (time : Instant) (count : Nat) (e : StoreError)
    (more : plan.bound + count < (plan.enter time records).length) :
    Left plan records (.error (.keyStorage .delete e)) (plan.strike count (plan.enter time records))
  | completed (valid : plan.Valid) (time : Instant) :
    Left plan records
      (.ok ⟨plan.name, time, ((plan.enter time records).drop plan.bound).map (·.name)⟩)
      ((plan.enter time records).take plan.bound)

/-- Behind a listing of `records`, when `count` of those past the bound are deleted: the rotation has
ended, or goes on with the next one. -/
def Plan.prune (plan : Plan) (time : Instant) (count : Nat) (records : List Record) : Progress :=
  match records.drop (plan.bound + count) with
  | [] => .ended (.ok ⟨plan.name, time, plan.struck count records⟩)
  | stale :: rest =>
    .awaiting (.deleting ⟨plan.name, time, plan.struck count records⟩ records.length stale.name
      (rest.map (·.name)))

variable {plan : Plan} {records : List Record} {time : Instant} {count : Nat} {stale : Record}
  {rest : List Record}

/-- A rotation that was not refused and has written leaves its record in the store. -/
theorem Left.mem {answer : Except Error Outcome} {stored : List Record}
    (left : Left plan records answer stored) (taken : ∀ e, answer ≠ .error (.invalid e))
    (written : ∀ e, answer ≠ .error (.keyStorage .write e)) :
    ∃ time, ⟨plan.name, plan.key, time⟩ ∈ stored := by
  have first (valid : plan.Valid) (time : Instant) :
      ⟨plan.name, plan.key, time⟩ ∈ (plan.enter time records).take plan.bound := by
    rw [Plan.enter, List.take_cons valid.bound.1]
    exact List.mem_cons_self
  cases left with
  | refused e => exact absurd rfl (taken e)
  | unwritten _ e => exact absurd rfl (written e)
  | unlisted _ time => exact ⟨time, List.mem_cons_self⟩
  | undeleted valid time => exact ⟨time, List.mem_append_left _ (first valid time)⟩
  | completed valid time => exact ⟨time, first valid time⟩

theorem Plan.strike_zero (plan : Plan) (records : List Record) : plan.strike 0 records = records :=
  List.take_append_drop plan.bound records

theorem Plan.drop_succ (behind : records.drop (plan.bound + count) = stale :: rest) :
    records.drop (plan.bound + (count + 1)) = rest := by
  rw [← Nat.add_assoc, ← List.drop_drop, behind]
  rfl

/-- The next deletion takes the next record out. -/
theorem Plan.filter_strike (distinct : (records.map (·.name)).Nodup)
    (behind : records.drop (plan.bound + count) = stale :: rest) :
    (plan.strike count records).filter (fun q => q.name != stale.name) =
      plan.strike (count + 1) records := by
  have sublist : (plan.strike count records).Sublist records := by
    have shorter := List.take_sublist_take_left (l := records) (Nat.le_add_right plan.bound count)
    have kept := shorter.append_right (records.drop (plan.bound + count))
    rw [List.take_append_drop] at kept
    exact kept
  rw [strike, behind] at sublist ⊢
  rw [strike, drop_succ behind]
  exact filter_name_ne (distinct.sublist (sublist.map _))

theorem Plan.struck_succ (behind : records.drop (plan.bound + count) = stale :: rest) :
    plan.struck (count + 1) records = plan.struck count records ++ [stale.name] := by
  have next : (records.drop plan.bound)[count]? = some stale := by
    rw [List.getElem?_drop, ← List.head?_drop, behind]
    rfl
  rw [struck, List.take_add_one, next, List.map_append]
  rfl

/-- The new record is not past the bound. -/
theorem Plan.Valid.not_mem_drop (valid : plan.Valid) (fresh : plan.name ∉ records.map (·.name))
    (time : Instant) (count : Nat) :
    plan.name ∉ ((plan.enter time records).drop (plan.bound + count)).map (·.name) := by
  obtain ⟨bound, hbound⟩ := Nat.exists_eq_add_of_le valid.bound.1
  rw [enter, hbound, Nat.add_assoc, Nat.add_comm 1, List.drop_succ_cons]
  intro past
  obtain ⟨r, hr, name⟩ := List.mem_map.mp past
  exact fresh (name ▸ List.mem_map_of_mem (List.mem_of_mem_drop hr))

end Rotation

namespace Service

open Rotation

/-- The failure that a step of a rotation meets: one that is set from outside, a name that is taken,
or a caller who has given up. A write is made even then. -/
def hindrance? (s : Service) (cancelled : Bool) : Rotation → Option Error
  | .writing plan =>
    if let some e := s.repository.faults.write then some (.keyStorage .write e)
    else if s.repository.store.contains plan.name then
      some (.keyStorage .write (.conflict plan.name))
    else if s.failAfterWrite.pass.1 then
      some (.keyStorage .list (.internal "injected failure after key write" none))
    else if cancelled then some (.keyStorage .list (.cancelled .list))
    else none
  | .listing _ _ _ =>
    (if cancelled then some (.cancelled .list) else s.repository.faults.list).map (.keyStorage .list)
  | .deleting _ _ stale _ =>
    (if cancelled then some (.cancelled .delete) else s.repository.deleteFault? stale).map
      (.keyStorage .delete)

variable {plan : Plan} {records : List Record} {s t u : Service} {rotation : Rotation}
  {now : Moment} {cancelled : Bool}

/-! ## Steps -/

/-- Behind a listing in which its own name is not past the bound, a rotation passes over no name. -/
theorem nextDeletion_drop (s : Service) (plan : Plan) (time : Instant) (count : Nat)
    (other : plan.name ∉ (records.drop (plan.bound + count)).map (·.name)) :
    (s.nextDeletion ⟨plan.name, time, plan.struck count records⟩ records.length
      ((records.drop (plan.bound + count)).map (·.name))).1 = plan.prune time count records := by
  unfold Plan.prune
  cases behind : records.drop (plan.bound + count) with
  | nil => rfl
  | cons stale rest =>
    rw [behind] at other
    have different : ¬ stale.name = plan.name := fun same => other (same ▸ List.mem_cons_self)
    rw [List.map_cons, nextDeletion, if_neg different]

/-- A step comes to `next`, unless something keeps it from being made. -/
def comesTo (next : Rotation.Progress) : Option Error → Rotation.Progress
  | some e => .ended (.error e)
  | none => next

theorem comesTo_eq_iff {next : Rotation.Progress} {e : Error} (goes : next ≠ .ended (.error e))
    {hindrance : Option Error} :
    comesTo next hindrance = .ended (.error e) ↔ hindrance = some e := by
  cases hindrance with
  | some cause => simp [comesTo]
  | none => simpa [comesTo] using goes

theorem progress_writing (s : Service) (now : Moment) (cancelled : Bool) (plan : Plan) :
    (s.resumeRotation now cancelled (.writing plan)).1 =
      comesTo (.awaiting (.listing plan.name plan.bound now.time))
        (s.hindrance? cancelled (.writing plan)) := by
  have answered := s.repository.answer_write plan.name plan.key now.time
  simp only [resumeRotation, hindrance?]
  generalize s.repository.write plan.name plan.key now.time = call at answered
  obtain ⟨answer, repository⟩ := call
  cases fault : s.repository.faults.write with
  | some e =>
    rw [fault] at answered
    cases answered
    rfl
  | none =>
    rw [fault] at answered
    dsimp only at answered ⊢
    split at answered
    · rename_i taken
      cases answered
      rw [if_pos taken]
      rfl
    · rename_i free
      cases answered
      rw [if_neg free]
      cases hpass : s.failAfterWrite.pass with
      | mk fails failpoint =>
        simp only [listWritten, report, hpass]
        cases fails with
        | true => rfl
        | false => cases cancelled <;> rfl

theorem progress_listing (newestFirst : s.repository.oldestFirst = false) (now : Moment)
    (cancelled : Bool) (plan : Plan) (time : Instant)
    (other : plan.name ∉ (s.repository.store.list.drop plan.bound).map (·.name)) :
    (s.resumeRotation now cancelled (.listing plan.name plan.bound time)).1 =
      comesTo (plan.prune time 0 s.repository.store.list)
        (s.hindrance? cancelled (.listing plan.name plan.bound time)) := by
  have behind : (s.nextDeletion ⟨plan.name, time, []⟩ s.repository.store.list.length
      ((s.repository.store.list.drop plan.bound).map (·.name))).1 =
        plan.prune time 0 s.repository.store.list := s.nextDeletion_drop plan time 0 other
  simp only [resumeRotation, hindrance?, Repository.listing, newestFirst]
  cases cancelled with
  | true => rfl
  | false =>
    cases s.repository.faults.list with
    | some e => rfl
    | none => exact behind

/-- The next deletion of a rotation in a store that it has to itself. -/
theorem progress_deleting {listed : List Record} {count : Nat} {stale : Record}
    {rest : List Record} (behind : listed.drop (plan.bound + count) = stale :: rest)
    (stored : s.repository.store.list = plan.strike count listed) (now : Moment)
    (cancelled : Bool) (time : Instant)
    (other : plan.name ∉ (listed.drop (plan.bound + (count + 1))).map (·.name)) :
    (s.resumeRotation now cancelled (.deleting ⟨plan.name, time, plan.struck count listed⟩
        listed.length stale.name (rest.map (·.name)))).1 =
      comesTo (plan.prune time (count + 1) listed)
        (s.hindrance? cancelled (.deleting ⟨plan.name, time, plan.struck count listed⟩
          listed.length stale.name (rest.map (·.name)))) := by
  have known : s.repository.store.contains stale.name = true := by
    rw [Store.contains_iff_mem_names, Store.names, stored, Plan.strike, behind]
    simp
  have answered := s.repository.answer_delete stale.name
  rw [known] at answered
  have rest_eq : listed.drop (plan.bound + (count + 1)) = rest := Plan.drop_succ behind
  simp only [resumeRotation, hindrance?]
  cases cancelled with
  | true => rfl
  | false =>
    generalize s.repository.delete stale.name = call at answered
    obtain ⟨answer, repository⟩ := call
    cases fault : s.repository.deleteFault? stale.name with
    | some e =>
      rw [fault] at answered
      cases answered
      rfl
    | none =>
      rw [fault] at answered
      cases answered
      rw [← rest_eq, ← Plan.struck_succ behind]
      exact nextDeletion_drop _ plan time (count + 1) other

/-! ## What is stored behind a step -/

theorem beginRotation_of_not_valid (broken : ¬ plan.Valid) (s : Service) (cancelled : Bool) :
    ∃ e, s.beginRotation plan cancelled = (.ended (.error (.invalid e)), s) := by
  unfold beginRotation checkRetention
  split
  · rename_i e refused
    split at refused
    · cases refused
    · cases refused
      exact ⟨_, rfl⟩
  · rename_i kept
    split at kept
    · rename_i bound
      split
      · exact ⟨_, rfl⟩
      · rename_i key
        split
        · exact ⟨_, rfl⟩
        · rename_i name
          refine absurd ⟨?_, ?_, bound⟩ broken
          · simpa using key
          · simpa using name
    · cases kept

theorem beginRotation_of_valid (valid : plan.Valid) (s : Service) (cancelled : Bool) :
    s.beginRotation plan cancelled =
      if cancelled then (.ended (.error (.keyStorage .write (.cancelled .write))), s)
      else (.awaiting (.writing plan), s) := by
  have key : ¬ plan.key.isEmpty = true := by simpa using valid.key
  have name : ¬ plan.name = "" := valid.name
  simp only [beginRotation, checkRetention, if_pos valid.bound, if_neg key, if_neg name]

/-- What is stored fits what the rotation has come to. -/
def Stands (plan : Plan) (records : List Record) : Rotation.Progress → List Record → Prop
  | .awaiting rotation, stored => plan.Valid ∧ Stage plan records rotation stored
  | .ended answer, stored => Left plan records answer stored

theorem stands_beginRotation (plan : Plan) (s : Service) (cancelled : Bool) :
    Stands plan s.repository.store.list (s.beginRotation plan cancelled).1
      (s.beginRotation plan cancelled).2.repository.store.list := by
  by_cases valid : plan.Valid
  · rw [beginRotation_of_valid valid]
    cases cancelled with
    | true => exact .unwritten valid _
    | false => exact ⟨valid, .writing⟩
  · obtain ⟨e, begun⟩ := beginRotation_of_not_valid valid s cancelled
    rw [begun]
    exact .refused e valid

theorem progress_listWritten (cancelled : Bool) (plan : Plan) (time : Instant) (s : Service) :
    (∃ e, (s.listWritten cancelled plan time).1 = .ended (.error (.keyStorage .list e))) ∨
      (s.listWritten cancelled plan time).1 = .awaiting (.listing plan.name plan.bound time) := by
  unfold listWritten
  dsimp only
  split
  · exact Or.inl ⟨_, rfl⟩
  · split
    · exact Or.inl ⟨_, rfl⟩
    · exact Or.inr rfl

theorem stands_writing (valid : plan.Valid) (s : Service) (now : Moment) (cancelled : Bool) :
    Stands plan s.repository.store.list (s.resumeRotation now cancelled (.writing plan)).1
      (s.resumeRotation now cancelled (.writing plan)).2.repository.store.list := by
  simp only [resumeRotation]
  split
  · rename_i e repository written
    have store : repository.store = s.repository.store := (Repository.write_eq_error written).1
    rw [store]
    exact .unwritten valid e
  · rename_i record repository written
    obtain ⟨rfl, inserted, -⟩ := Repository.write_eq_ok written
    have fresh := Store.not_mem_names_of_insert inserted
    have alike := alike_listWritten cancelled plan now.time { s with repository }
    have list : repository.store.list = plan.enter now.time s.repository.store.list :=
      Store.list_of_insert inserted
    have progress := progress_listWritten cancelled plan now.time { s with repository }
    dsimp only
    rw [alike.store]
    show Stands _ _ _ repository.store.list
    rw [list]
    rcases progress with ⟨e, ended⟩ | awaiting
    · rw [ended]
      exact .unlisted valid now.time e
    · rw [awaiting]
      exact ⟨valid, .listing now.time fresh⟩

/-- A rotation goes on with whatever is to be deleted next. -/
theorem stands_prune (valid : plan.Valid) (time : Instant)
    (fresh : plan.name ∉ records.map (·.name)) (count : Nat) :
    Stands plan records (plan.prune time count (plan.enter time records))
      (plan.strike count (plan.enter time records)) := by
  unfold Plan.prune
  split
  · rename_i behind
    have all : ((plan.enter time records).drop plan.bound).length ≤ count := by
      have short := List.drop_eq_nil_iff.mp behind
      rw [List.length_drop]
      omega
    rw [Plan.strike, behind, List.append_nil, Plan.struck, List.take_of_length_le all]
    exact .completed valid time
  · rename_i stale rest behind
    exact ⟨valid, .deleting time fresh count stale rest behind⟩

theorem store_listing (s : Service) (now : Moment) (cancelled : Bool) (name : String) (bound : Nat)
    (time : Instant) :
    (s.resumeRotation now cancelled (.listing name bound time)).2.repository.store =
      s.repository.store := by
  simp only [resumeRotation]
  split
  · rfl
  · exact (alike_nextDeletion _ _ _ s).store

theorem stands_listing (valid : plan.Valid) {time : Instant}
    (fresh : plan.name ∉ records.map (·.name)) (newestFirst : s.repository.oldestFirst = false)
    (stored : s.repository.store.list = plan.enter time records) (now : Moment)
    (cancelled : Bool) :
    Stands plan records
      (s.resumeRotation now cancelled (.listing plan.name plan.bound time)).1
      (s.resumeRotation now cancelled (.listing plan.name plan.bound time)).2.repository.store.list
      := by
  have other := valid.not_mem_drop fresh time 0
  rw [← stored] at other
  rw [progress_listing newestFirst now cancelled plan time other, store_listing, stored]
  cases met : s.hindrance? cancelled (.listing plan.name plan.bound time) with
  | some e =>
    obtain ⟨cause, -, rfl⟩ := Option.map_eq_some_iff.mp met
    exact .unlisted valid time cause
  | none =>
    have pruned := stands_prune valid time fresh 0
    rw [Plan.strike_zero] at pruned
    exact pruned

/-- A deletion takes its record out, unless something keeps it from being made. -/
theorem list_deleting (s : Service) (now : Moment) (cancelled : Bool) (outcome : Outcome)
    (listed : Nat) (stale : String) (rest : List String) (known : stale ∈ s.repository.store.names) :
    (s.resumeRotation now cancelled (.deleting outcome listed stale rest)).2.repository.store.list =
      match s.hindrance? cancelled (.deleting outcome listed stale rest) with
      | some _ => s.repository.store.list
      | none => s.repository.store.list.filter fun r => r.name != stale := by
  have answered := s.repository.answer_delete stale
  rw [Store.contains_iff_mem_names.mpr known] at answered
  simp only [resumeRotation, hindrance?]
  cases cancelled with
  | true => rfl
  | false =>
    cases call : s.repository.delete stale with
    | mk answer repository =>
      rw [call] at answered
      cases fault : s.repository.deleteFault? stale with
      | some e =>
        rw [fault] at answered
        cases answered
        have store := (Repository.delete_eq_error call).1
        exact congrArg Store.list store
      | none =>
        rw [fault] at answered
        cases answered
        have deleted := (Repository.delete_eq_ok call).1
        have alike := alike_nextDeletion { outcome with pruned := outcome.pruned ++ [stale] } listed
          rest (report { s with repository } [.keyPruned stale])
        refine (congrArg Store.list alike.store).trans ?_
        exact Store.list_of_delete deleted

theorem stands_deleting (valid : plan.Valid) {time : Instant}
    (fresh : plan.name ∉ records.map (·.name)) (distinct : (records.map (·.name)).Nodup)
    {count : Nat} {stale : Record} {rest : List Record}
    (behind : (plan.enter time records).drop (plan.bound + count) = stale :: rest)
    (stored : s.repository.store.list = plan.strike count (plan.enter time records)) (now : Moment)
    (cancelled : Bool) :
    let outcome : Outcome := ⟨plan.name, time, plan.struck count (plan.enter time records)⟩
    let listed := (plan.enter time records).length
    let step := s.resumeRotation now cancelled
      (.deleting outcome listed stale.name (rest.map (·.name)))
    Stands plan records step.1 step.2.repository.store.list := by
  intro outcome listed step
  have other := valid.not_mem_drop fresh time (count + 1)
  have entered : ((plan.enter time records).map (·.name)).Nodup := List.nodup_cons.mpr ⟨fresh, distinct⟩
  have known : stale.name ∈ s.repository.store.names := by
    rw [Store.names, stored, Plan.strike, behind]
    simp
  have more : plan.bound + count < (plan.enter time records).length := by
    refine Nat.lt_of_not_le fun short => ?_
    rw [List.drop_eq_nil_of_le short] at behind
    cases behind
  have progress : step.1 = _ := progress_deleting behind stored now cancelled time other
  have list : step.2.repository.store.list = _ :=
    s.list_deleting now cancelled outcome listed stale.name (rest.map (·.name)) known
  rw [progress, list]
  cases met : s.hindrance? cancelled (.deleting outcome listed stale.name (rest.map (·.name))) with
  | some e =>
    obtain ⟨cause, -, rfl⟩ := Option.map_eq_some_iff.mp met
    dsimp only
    rw [stored]
    exact .undeleted valid time count cause more
  | none =>
    dsimp only
    rw [stored, Plan.filter_strike entered behind]
    exact stands_prune valid time fresh (count + 1)

theorem stands_resumeRotation (valid : plan.Valid) (distinct : (records.map (·.name)).Nodup)
    (newestFirst : s.repository.oldestFirst = false)
    (stage : Stage plan records rotation s.repository.store.list) (now : Moment)
    (cancelled : Bool) :
    Stands plan records (s.resumeRotation now cancelled rotation).1
      (s.resumeRotation now cancelled rotation).2.repository.store.list := by
  generalize stored : s.repository.store.list = list at stage
  cases stage with
  | writing =>
    rw [← stored]
    exact stands_writing valid s now cancelled
  | listing time fresh => exact stands_listing valid fresh newestFirst stored now cancelled
  | deleting time fresh count stale rest behind =>
    exact stands_deleting valid fresh distinct behind stored now cancelled

theorem stands_of_alone {progress : Rotation.Progress}
    (newestFirst : s.repository.oldestFirst = false) (alone : Alone plan s progress t) :
    Stands plan s.repository.store.list progress t.repository.store.list := by
  induction alone with
  | begins cancelled => exact stands_beginRotation plan s cancelled
  | resumes now cancelled alone store order ih =>
    obtain ⟨valid, stage⟩ := ih
    rw [← store] at stage
    exact stands_resumeRotation valid s.repository.store.nodup_names (order.trans newestFirst) stage
      now cancelled

/-- A rotation goes on without a failure unless something keeps its call from being made. -/
theorem failed_iff_hindrance (valid : plan.Valid) (newestFirst : s.repository.oldestFirst = false)
    (stage : Stage plan records rotation s.repository.store.list) (now : Moment)
    (cancelled : Bool) (e : Error) :
    (s.resumeRotation now cancelled rotation).1 = .ended (.error e) ↔
      s.hindrance? cancelled rotation = some e := by
  have pruned (time : Instant) (count : Nat) (records : List Record) :
      plan.prune time count records ≠ .ended (.error e) := by
    unfold Plan.prune
    split <;> exact fun h => nomatch h
  generalize stored : s.repository.store.list = list at stage
  cases stage with
  | writing =>
    rw [progress_writing]
    refine comesTo_eq_iff ?_
    intro ended
    cases ended
  | listing time fresh =>
    have other := valid.not_mem_drop fresh time 0
    rw [← stored] at other
    rw [progress_listing newestFirst now cancelled plan time other]
    exact comesTo_eq_iff (pruned time 0 _)
  | deleting time fresh count stale rest behind =>
    have other := valid.not_mem_drop fresh time (count + 1)
    rw [progress_deleting behind stored now cancelled time other]
    exact comesTo_eq_iff (pruned time (count + 1) _)

end Service

/-- What a rotation leaves in a store that nothing else changes. A plan that breaks a rule is refused
before any call. Then what is stored is settled by the call at which the rotation is, and it fails
exactly if something keeps that call from being made. Once it has ended, its answer settles what is
stored; behind the write the new record is there in any case. -/
theorem records_behind_rotation (plan : Rotation.Plan) (s : Service)
    (newestFirst : s.repository.oldestFirst = false) :
    (¬ plan.Valid → ∀ cancelled,
      ∃ e, s.beginRotation plan cancelled = (.ended (.error (.invalid e)), s)) ∧
    (plan.Valid → ∀ cancelled, s.beginRotation plan cancelled =
      if cancelled then (.ended (.error (.keyStorage .write (.cancelled .write))), s)
      else (.awaiting (.writing plan), s)) ∧
    (∀ rotation t, Rotation.Alone plan s (.awaiting rotation) t →
      Rotation.Stage plan s.repository.store.list rotation t.repository.store.list ∧
      ∀ u : Service, u.repository.store = t.repository.store → u.repository.oldestFirst = false →
        ∀ now cancelled e, (u.resumeRotation now cancelled rotation).1 = .ended (.error e) ↔
          u.hindrance? cancelled rotation = some e) ∧
    ∀ answer t, Rotation.Alone plan s (.ended answer) t →
      Rotation.Left plan s.repository.store.list answer t.repository.store.list ∧
      ((∀ e, answer ≠ .error (.invalid e)) → (∀ e, answer ≠ .error (.keyStorage .write e)) →
        ∃ time, ⟨plan.name, plan.key, time⟩ ∈ t.repository.store.list) := by
  refine ⟨?_, ?_, ?_, ?_⟩
  · exact fun broken cancelled => Service.beginRotation_of_not_valid broken s cancelled
  · exact fun valid cancelled => Service.beginRotation_of_valid valid s cancelled
  · intro rotation t alone
    obtain ⟨valid, stage⟩ := Service.stands_of_alone newestFirst alone
    refine ⟨stage, ?_⟩
    intro u store order now cancelled e
    rw [← store] at stage
    exact Service.failed_iff_hindrance valid order stage now cancelled e
  · intro answer t alone
    have left : Rotation.Left plan s.repository.store.list answer t.repository.store.list :=
      Service.stands_of_alone newestFirst alone
    exact ⟨left, left.mem⟩

/-! ## A deletion that fails -/

namespace Aftermath

/-- A key is to be written, and no other one is to be kept. -/
def plan : Rotation.Plan := ⟨"c", [0], 1⟩

/-- Two keys are stored, and the older one of them cannot be deleted. -/
def stubborn : Service :=
  let older := (Change.insert ⟨"a", [0], Moment.epoch.time⟩).apply .initial
  let both := (Change.insert ⟨"b", [0], Moment.epoch.time⟩).apply older
  (Change.faults ⟨none, none, some (some "a", .timeout)⟩).apply both

end Aftermath

open Aftermath in
theorem records_behind_failed_deletion :
    stubborn.repository.oldestFirst = false ∧
      ∃ t, Rotation.Alone plan stubborn (.ended (.error (.keyStorage .delete .timeout))) t ∧
        Rotation.Left plan stubborn.repository.store.list (.error (.keyStorage .delete .timeout))
          t.repository.store.list ∧
        t.repository.store.names = ["c", "a"] := by
  have next {rotation : Rotation} {t : Service} {progress : Rotation.Progress}
      (alone : Rotation.Alone plan stubborn (.awaiting rotation) t)
      (order : t.repository.oldestFirst = false)
      (came : (t.resumeRotation .epoch false rotation).1 = progress) :
      Rotation.Alone plan stubborn progress (t.resumeRotation .epoch false rotation).2 :=
    came ▸ .resumes .epoch false alone rfl order
  have begun : Rotation.Alone plan stubborn (.awaiting (.writing plan)) stubborn := .begins false
  have written : Rotation.Alone plan stubborn
      (.awaiting (.listing "c" 1 Moment.epoch.time)) _ := next begun rfl (by cbv)
  have listed : Rotation.Alone plan stubborn
      (.awaiting (.deleting ⟨"c", Moment.epoch.time, []⟩ 3 "b" ["a"])) _ :=
    next written (by cbv) (by cbv)
  have deleted : Rotation.Alone plan stubborn
      (.awaiting (.deleting ⟨"c", Moment.epoch.time, ["b"]⟩ 3 "a" [])) _ :=
    next listed (by cbv) (by cbv)
  have failed : Rotation.Alone plan stubborn (.ended (.error (.keyStorage .delete .timeout))) _ :=
    next deleted (by cbv) (by cbv)
  obtain ⟨-, -, -, left⟩ := records_behind_rotation plan stubborn rfl
  exact ⟨rfl, _, failed, (left _ _ failed).1, by cbv⟩

end Keyring
