import Keyring.Proofs.Retention

/-!
# Overlapping rotations

Rotations to the same bound that overlap in any way keep the newest keys, and the last of them leaves
nothing else once it has succeeded. A rotation deletes by name, so all this is about keys whose names
are not taken again while a deletion of the name is under way.

* `World.Trimmed` says what is stored besides the newest keys once the last writer has seen a listing
  (`trimmed_step`).
* `newest_keys_of_overlapping_rotations` is the result about runs. Without its condition on names a
  key may be lost at once: `not_forall_newest_kept`.
-/

namespace Keyring

/-! ## What is stored besides the newest records -/

namespace Store

variable {m : Nat} {records newest : List Record} {s t : Store} {own : String}
  {names names' : List String}

/-- Whatever is stored besides the records `newest` has one of the names. -/
def Within (newest : List Record) (names : List String) (s : Store) : Prop :=
  ∀ r ∈ s.list, r ∈ newest ∨ r.name ∈ names

theorem Holds.list_eq (h : s.Holds m records) (within : s.Within (records.take m) []) :
    s.list = records.take m := by
  obtain ⟨behind, split⟩ := h.kept
  have distinct : (records.take m ++ behind).Nodup := split ▸ s.nodup_names.of_map
  cases behind with
  | nil => rw [← split, List.append_nil]
  | cons r behind =>
    have stored : r ∈ s.list := by
      rw [← split]
      simp
    have newest : r ∈ records.take m := (within r stored).resolve_right List.not_mem_nil
    exact absurd rfl ((List.nodup_append.mp distinct).2.2 r newest r List.mem_cons_self)

namespace Within

theorem of_subset (h : s.Within newest names) (subset : ∀ r ∈ t.list, r ∈ s.list) :
    t.Within newest names := fun r hr => h r (subset r hr)

theorem of_delete {name : String} (h : s.Within newest (name :: names))
    (deleted : s.delete name = .ok t) : t.Within newest names := by
  intro r hr
  rw [list_of_delete deleted, List.mem_filter] at hr
  obtain ⟨stored, other⟩ := hr
  rcases h r stored with hr | hr
  · exact Or.inl hr
  · exact Or.inr ((List.mem_cons.mp hr).resolve_left (by simpa using other))

end Within

theorem Holds.within_drop (h : s.Holds m records) :
    s.Within (records.take m) ((s.list.drop m).map (·.name)) :=
  fun _ hr => (h.mem_take_or_mem_drop hr).imp_right (List.mem_map_of_mem ·)

end Store

/-! ## Steps of the last writer -/

namespace Service

variable {now : Moment} {s t : Service} {operation next : Operation} {progress : Progress}
  {written : Option Record} {m : Nat} {records newest : List Record} {caller : Caller}
  {own : String} {names : List String}

/-- What the progress of an operation promises about the store: what it does not go on to delete is
one of the records `newest`. -/
structure Trims (newest : List Record) (store : Store) (progress : Progress) : Prop where
  awaiting : ∀ next, progress = .awaiting next → next.doomed ≠ [] → store.Within newest next.doomed
  ended : ∀ answer, progress = .ended answer → answer.Rotated → store.Within newest []

theorem Trims.of_ended {store : Store} {answer : Answer}
    (h : answer.Rotated → store.Within newest []) : Trims newest store (.ended answer) where
  awaiting _ awaiting := by cases awaiting
  ended _ ended := by
    cases ended
    exact h

theorem Trims.of_awaiting {store : Store}
    (h : next.doomed ≠ [] → store.Within newest next.doomed) :
    Trims newest store (.awaiting next) where
  awaiting _ awaiting := by
    cases awaiting
    exact h
  ended _ ended := by cases ended

/-- Names that a rotation passes over are its own, and its own record is one of the newest. -/
theorem Prunes.trims (h : Prunes caller own names progress) {store : Store}
    (within : store.Within newest names) (mine : ∀ r ∈ store.list, r.name = own → r ∈ newest) :
    Trims newest store progress := by
  cases h with
  | done answer rest =>
    refine .of_ended fun _ r hr => ?_
    rcases within r hr with hr' | hname
    · exact Or.inl hr'
    · exact Or.inl (mine r hr (rest _ hname))
  | next outcome listed passed stale rest named passed_own other split =>
    refine .of_awaiting fun _ r hr => ?_
    rcases within r hr with hr' | hname
    · exact Or.inl hr'
    · rw [split] at hname
      rcases List.mem_append.mp hname with hname | hname
      · exact Or.inl (mine r hr (passed_own _ hname))
      · exact Or.inr hname

/-- A step that writes does not promise anything yet. -/
theorem Resumes.trims_of_written {r : Record} (h : Resumes now s t operation progress (some r)) :
    Trims newest t.repository.store progress := by
  cases h with
  | rotationWrites caller plan progress inserted order snapshot behind =>
    obtain ⟨answer, rfl, unrotated⟩ | rfl := behind
    · exact .of_ended fun rotated => absurd rotated unrotated
    · exact .of_awaiting fun doomed => absurd rfl doomed
  | writes name key answer inserted order snapshot unrotated =>
    exact .of_ended fun rotated => absurd rotated unrotated

/-- The operation that wrote the newest record keeps its promise. -/
theorem Resumes.trims (h : Resumes now s t operation progress none)
    (newestFirst : s.repository.oldestFirst = false)
    (holds : s.repository.store.Holds m records) (bound : operation.PrunesTo m) {r : Record}
    {older : List Record} (newest : records = r :: older) (mine : operation.own? = some r.name)
    (trims : operation.doomed ≠ [] →
      s.repository.store.Within (records.take m) operation.doomed) :
    Trims (records.take m) t.repository.store progress := by
  have recorded : 1 ≤ m → r ∈ records.take m := by
    intro positive
    rw [newest, List.take_cons (by omega)]
    exact List.mem_cons_self
  have own_newest : 1 ≤ m → ∀ q ∈ s.repository.store.list, q.name = r.name →
      q ∈ records.take m := by
    intro positive q hq hname
    rw [Store.eq_of_name_eq hq (holds.mem_list (recorded positive)) hname]
    exact recorded positive
  cases h with
  | ends operation answer alike unrotated =>
    exact .of_ended fun rotated => absurd rotated unrotated
  | refreshFails | installs | deletes => cases mine
  | rotationLists caller name bound' createdAt progress listed alike listing behind =>
    obtain ⟨rfl, positive⟩ := bound
    cases mine
    rw [alike.store]
    rw [list_of_listing newestFirst listing] at behind
    exact behind.trims holds.within_drop (own_newest positive)
  | rotationDeletes caller outcome listed stale rest progress deleted order snapshot behind =>
    have name : outcome.name = r.name := Option.some.inj mine
    have within := (trims (List.cons_ne_nil _ _)).of_delete deleted
    refine behind.trims within fun q hq hname => own_newest bound q ?_ (hname.trans name)
    rw [Store.list_of_delete deleted] at hq
    exact (List.mem_filter.mp hq).1

theorem Resumes.list_subset (h : Resumes now s t operation progress none) :
    ∀ r ∈ t.repository.store.list, r ∈ s.repository.store.list := by
  cases h with
  | ends _ _ alike | refreshFails _ _ alike | rotationLists _ _ _ _ _ _ alike =>
    rw [alike.store]
    exact fun _ hr => hr
  | installs _ _ _ _ store =>
    rw [store]
    exact fun _ hr => hr
  | rotationDeletes _ _ _ _ _ _ deleted | deletes _ _ deleted =>
    rw [Store.list_of_delete deleted]
    exact fun _ hr => (List.mem_filter.mp hr).1

end Service

/-! ## Runs -/

/-- What happens when rotations to the bound `m` overlap: they begin, go on or are given up, and
failures are set. -/
def Move.Rotates (m : Nat) : Move → Prop
  | .begin (.rotateTo plan) _ _ => plan.bound = m
  | .resume _ _ _ => True
  | .change (.insert _) => False
  | .change _ => True
  | _ => False

instance (m : Nat) : ∀ move : Move, Decidable (move.Rotates m)
  | .begin request _ _ =>
    match request with
    | .rotateTo plan => inferInstanceAs (Decidable (plan.bound = m))
    | .refresh | .forceRefresh | .update | .rotate _ | .trigger _ _ | .afterResponse | .write _ _
    | .list | .delete _ => .isFalse id
  | .resume _ _ _ => .isTrue trivial
  | .login _ _ _ | .authenticate _ _ _ | .check _ _ | .change (.insert _) => .isFalse id
  | .change (.faults _) | .change (.failBeforeList _) | .change (.failAfterWrite _)
  | .change (.failKeys _) | .change (.register _) => .isTrue trivial

theorem Move.Rotates.keepsTo {m : Nat} {move : Move} (h : move.Rotates m) (config : Config) :
    move.KeepsTo config m := by
  cases move with
  | begin request =>
    cases request with
    | rotateTo plan => exact h
    | _ => exact h.elim
  | _ => trivial

namespace World

variable {env : Environment} {w : World} {m : Nat}

/-- Once the writer of the newest record has seen a listing, what is stored besides the newest
records is what it is still to delete. -/
structure Trimmed (m : Nat) (w : World) : Prop where
  pending : ∀ e older, w.history = e :: older → ∀ p ∈ w.pending, e.writer = some p.1 →
    p.2.doomed ≠ [] → w.store.Within (w.records.take m) p.2.doomed
  answers : ∀ e older, w.history = e :: older → ∀ a ∈ w.answers, e.writer = some a.1 →
    a.2.Rotated → w.store.Within (w.records.take m) []

theorem trimmed_start (m : Nat) (service : Service) : (start service).Trimmed m where
  pending := by simp [start]
  answers := by simp [start]

section Settled

variable {number : Nat} {now : Moment} {operation : Operation} {progress : Progress}
  {service : Service} {written : Option Record}

theorem Trimmed.settled_written {r : Record} (ordered : w.Ordered)
    (mem : (number, operation) ∈ w.pending)
    (resumed : Service.Resumes now w.service service operation progress (some r)) :
    (w.settled number progress service (some r)).Trimmed m := by
  have trims : Service.Trims ((r :: w.records).take m) service.repository.store progress :=
    resumed.trims_of_written
  refine ⟨?_, ?_⟩
  · intro e older head p hp writer doomed
    cases head
    rcases mem_pending_settled hp with ⟨-, other⟩ | ⟨next, awaiting, rfl⟩
    · exact absurd (Option.some.inj writer).symm other
    · rw [store, settled_service]
      exact trims.awaiting next awaiting doomed
  · intro e older head a ha writer rotated
    cases head
    rcases mem_answers_settled ha with ha | ⟨answer, ended, rfl⟩
    · exact absurd (Option.some.inj writer) (ordered.apart _ mem a ha)
    · rw [store, settled_service]
      exact trims.ended answer ended rotated

theorem Trimmed.settled (h : w.Trimmed m) (ordered : w.Ordered) (retained : w.Retained m)
    (mem : (number, operation) ∈ w.pending)
    (resumed : Service.Resumes now w.service service operation progress none) :
    (w.settled number progress service none).Trimmed m := by
  have fewer := resumed.list_subset
  have trims : ∀ e older, w.history = e :: older → e.writer = some number →
      Service.Trims (w.records.take m) service.repository.store progress := by
    intro e older head writer
    have records : w.records = e.record :: older.map (·.record) := by rw [World.records, head]; rfl
    have mine := ordered.own e (head ▸ List.mem_cons_self) _ mem writer
    exact resumed.trims retained.newestFirst retained.holds (retained.harmless _ mem).bound records
      mine (h.pending e older head _ mem writer)
  refine ⟨?_, ?_⟩
  · intro e older head p hp writer doomed
    rw [store, settled_service]
    rcases mem_pending_settled hp with ⟨hp, -⟩ | ⟨next, awaiting, rfl⟩
    · exact (h.pending e older head p hp writer doomed).of_subset fewer
    · exact (trims e older head writer).awaiting next awaiting doomed
  · intro e older head a ha writer rotated
    rw [store, settled_service]
    rcases mem_answers_settled ha with ha | ⟨answer, ended, rfl⟩
    · exact (h.answers e older head a ha writer rotated).of_subset fewer
    · exact (trims e older head writer).ended answer ended rotated

end Settled

theorem Trimmed.of_alike {service : Service} (h : w.Trimmed m) (alike : w.service.Alike service) :
    { w with service }.Trimmed m where
  pending e older head p hp writer doomed := by
    rw [store, alike.store]
    exact h.pending e older head p hp writer doomed
  answers e older head a ha writer rotated := by
    rw [store, alike.store]
    exact h.answers e older head a ha writer rotated

theorem trimmed_step (h : w.Trimmed m) (ordered : w.Ordered) (retained : w.Retained m)
    (move : Move) : (w.step env move).Trimmed m := by
  have moves := moves_step env w move
  generalize w.step env move = w' at moves
  cases moves with
  | passes _ service alike => exact h.of_alike alike
  | refuses request cancelled now service answer alike =>
    have same := h.of_alike alike
    refine ⟨same.pending, ?_⟩
    intro e older head
    refine List.forall_mem_cons.mpr ⟨fun writer => ?_, same.answers e older head⟩
    have early := ordered.writers_lt e (head ▸ List.mem_cons_self) _ writer
    exact absurd early (Nat.lt_irrefl _)
  | begins request cancelled now service operation alike starts =>
    have same := h.of_alike alike
    refine ⟨?_, same.answers⟩
    intro e older head
    refine List.forall_mem_cons.mpr ⟨fun writer => ?_, same.pending e older head⟩
    have early := ordered.writers_lt e (head ▸ List.mem_cons_self) _ writer
    exact absurd early (Nat.lt_irrefl _)
  | resumes number cancelled now operation progress service written mem resumed =>
    cases written with
    | none => exact h.settled ordered retained mem resumed
    | some r => exact Trimmed.settled_written ordered mem resumed
  | inserts record service inserted order snapshot =>
    refine ⟨?_, ?_⟩
    · intro e older head p hp writer
      cases head
      cases writer
    · intro e older head a ha writer
      cases head
      cases writer

/-- No request ever deletes the record that it wrote. -/
theorem own_name_stays (ordered : w.Ordered) {number : Nat} {e : Written} (he : e ∈ w.history)
    (writer : e.writer = some number) (stored : e.record.name ∈ w.store.names) (cancelled : Bool)
    (now : Moment) :
    e.record.name ∈ (w.step env (.resume number cancelled now)).store.names := by
  have moves := moves_step env w (.resume number cancelled now)
  generalize w.step env (.resume number cancelled now) = w' at moves
  cases moves with
  | passes _ service alike =>
    rw [store, alike.store]
    exact stored
  | resumes _ _ _ operation progress service written mem resumed =>
    have own := ordered.own e he _ mem writer
    have spares := ordered.spares _ mem
    rw [store, settled_service]
    cases resumed with
    | ends _ _ alike | refreshFails _ _ alike | rotationLists _ _ _ _ _ _ alike =>
      exact alike.store ▸ stored
    | installs _ _ _ _ store => exact store ▸ stored
    | rotationWrites _ _ _ inserted | writes _ _ _ inserted =>
      rw [Store.names, Store.list_of_insert inserted]
      exact List.mem_cons_of_mem _ stored
    | rotationDeletes caller outcome listed stale rest progress deleted =>
      have other : e.record.name ≠ stale := by
        intro h
        exact spares _ own (congrArg some h.symm)
      obtain ⟨r, hr, name⟩ := List.mem_map.mp stored
      rw [Store.names, Store.list_of_delete deleted, ← name]
      refine List.mem_map_of_mem (List.mem_filter.mpr ⟨hr, ?_⟩)
      simpa [name] using other
    | deletes => cases own

end World

/-- Overlapping rotations to the bound `m`: none deletes the key that it wrote, and as long as no key
is written under a name that is about to be deleted, or none under a name that was used before, the `m`
newest keys are stored, and nothing else once the rotation to the newest key has succeeded. -/
theorem newest_keys_of_overlapping_rotations (env : Environment) (m : Nat) (service : Service)
    (newestFirst : service.repository.oldestFirst = false) :
    (∀ w, Run env (fun _ move => move.Rotates m) (.start service) w →
      ∀ e ∈ w.history, ∀ number, e.writer = some number → e.record.name ∈ w.store.names →
        ∀ cancelled now,
          e.record.name ∈ (w.step env (.resume number cancelled now)).store.names) ∧
    ∀ w, Run env (fun w move => move.Rotates m ∧ w.Careful env move) (.start service) w ∨
        Run env (fun w move => move.Rotates m ∧ w.Fresh env move) (.start service) w →
      w.records.take m <+: w.store.list ∧
        ∀ e older, w.history = e :: older → ∀ number, e.writer = some number →
          ∀ outcome, (number, .rotation (.ok outcome)) ∈ w.answers →
            w.store.list = w.records.take m := by
  refine ⟨?_, ?_⟩
  · intro w run e he number writer stored cancelled now
    exact World.own_name_stays (World.ordered_of_run run) he writer stored cancelled now
  · intro w run
    have careful := run.elim id (World.careful_of_fresh (fun _ _ rotates => rotates.keepsTo _)
      (World.named_start service) (World.retained_start m newestFirst))
    -- each clause of the invariant needs the ones before it at the world before the move
    have invariant : w.Ordered ∧ w.Retained m ∧ w.Trimmed m := by
      refine careful.induct (P := fun w => w.Ordered ∧ w.Retained m ∧ w.Trimmed m) ?_ ?_
      · exact ⟨World.ordered_start service, World.retained_start m newestFirst,
          World.trimmed_start m service⟩
      · rintro w move ⟨ordered, retained, trimmed⟩ ⟨rotates, careful⟩
        exact ⟨World.ordered_step ordered move,
          World.retained_step retained (rotates.keepsTo _) careful,
          World.trimmed_step trimmed ordered retained move⟩
    obtain ⟨-, retained, trimmed⟩ := invariant
    refine ⟨retained.holds.kept, ?_⟩
    intro e older head number writer outcome answered
    exact retained.holds.list_eq (trimmed.answers e older head _ answered writer trivial)

/-! ## Two runs -/

namespace Overlap

def environment : Environment :=
  .plain .keepsThree fun _ => ""

/-- A rotation to one key of this name begins. -/
def rotate (name : String) : Move := .begin (.rotateTo ⟨name, [0], 1⟩) false .epoch

/-- Each of two rotations lists the keys when both have written. -/
def crossing : List Move :=
  [rotate "a", rotate "b", .goOn 0, .goOn 1, .goOn 1, .goOn 0, .goOn 1]

/-- A rotation lists the key `a` as stale and stops; two others take its place, the last of them under
the same name; then the first rotation goes on. -/
def reusing : List Move :=
  [rotate "a", .goOn 0, .goOn 0, rotate "b", .goOn 1, .goOn 1, rotate "c", .goOn 2, .goOn 2, .goOn 2,
   .goOn 2, rotate "a", .goOn 3, .goOn 3, .goOn 3, .goOn 1]

end Overlap

open Overlap in
theorem newest_key_of_crossing_rotations :
    Service.initial.repository.oldestFirst = false ∧
      ((World.start .initial).after environment crossing).store.list =
        ((World.start .initial).after environment crossing).records.take 1 := by
  refine ⟨rfl, ?_⟩
  obtain ⟨-, retained⟩ := newest_keys_of_overlapping_rotations environment 1 .initial rfl
  obtain ⟨-, trimmed⟩ := retained _ (Or.inl (Run.of_admits crossing (by decide_cbv)))
  have answers : ((World.start .initial).after environment crossing).answers.head? =
      some (1, .rotation (.ok ⟨"b", Moment.epoch.time, ["a"]⟩)) := by cbv
  have history : ((World.start .initial).after environment crossing).history =
      [⟨⟨"b", [0], Moment.epoch.time⟩, some 1⟩, ⟨⟨"a", [0], Moment.epoch.time⟩, some 0⟩] := by cbv
  exact trimmed _ _ history 1 rfl _ (List.mem_of_head? answers)

open Overlap in
/-- With names that are taken again the newest key may be lost. -/
theorem not_forall_newest_kept :
    ¬ ∀ (env : Environment) (m : Nat) (service : Service), 1 ≤ m ∧ m ≤ 32 →
      service.repository.oldestFirst = false →
        ∀ w, Run env (fun _ move => move.Rotates m) (.start service) w →
          w.records.take m <+: w.store.list := by
  intro h
  have kept := h environment 1 .initial (by decide) rfl _
    (Run.of_admits reusing (by decide_cbv))
  have store : ((World.start .initial).after environment reusing).store.list = [] := by cbv
  have records : ((World.start .initial).after environment reusing).records.take 1 =
      [⟨"a", [0], Moment.epoch.time⟩] := by cbv
  rw [store, records, List.prefix_nil] at kept
  cases kept

end Keyring
