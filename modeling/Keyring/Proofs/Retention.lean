import Mathlib.Data.List.Nodup
import Keyring.Proofs.Moves

/-!
# The newest keys are kept

Rotations to the same bound may overlap in any way, and each may fail or be given up at any of its
calls. What a rotation deletes it knows from a listing that may be outdated by then; still the newest
keys are kept, unless a key is written under a name that an operation is about to delete.

* `Store.Holds` says that a store holds the newest of the records that were put in.
* `World.Retained` says so of a world, and that no operation in progress will delete one of them.
  `Retained.of_moves` is about one move, whichever world it leads to.
* `careful_of_fresh`: names that are never used again are not about to be deleted.
-/

namespace Keyring

/-! ## Stores with the newest records -/

namespace Store

variable {m : Nat} {records newest : List Record} {s t : Store}

/-- Of the records that were put in, newest first, the first `m` are stored, and nothing but records
that were put in. -/
structure Holds (m : Nat) (records : List Record) (s : Store) : Prop where
  sublist : s.list.Sublist records
  kept : records.take m <+: s.list

theorem eq_of_name_eq {a b : Record} (ha : a ∈ s.list) (hb : b ∈ s.list) (h : a.name = b.name) :
    a = b :=
  List.inj_on_of_nodup_map s.nodup_names ha hb h

theorem holds_list (m : Nat) (s : Store) : s.Holds m s.list := ⟨.refl _, List.take_prefix _ _⟩

namespace Holds

theorem mem_list {r : Record} (h : s.Holds m records) (hr : r ∈ records.take m) : r ∈ s.list :=
  h.kept.subset hr

theorem insert {r : Record} (h : s.Holds m records) (inserted : s.insert r = .ok t) :
    t.Holds m (r :: records) := by
  have list : t.list = r :: s.list := list_of_insert inserted
  refine ⟨list ▸ h.sublist.cons_cons r, ?_⟩
  cases m with
  | zero => exact List.nil_prefix
  | succ m =>
    have shorter : records.take m <+: records.take (m + 1) :=
      List.take_prefix_take_left (Nat.le_succ m)
    rw [list, List.take_succ_cons]
    exact List.cons_prefix_cons.mpr ⟨rfl, shorter.trans h.kept⟩

/-- A deletion of any other name leaves the newest records alone. -/
theorem delete {name : String} (h : s.Holds m records) (deleted : s.delete name = .ok t)
    (spared : ∀ r ∈ records.take m, r.name ≠ name) : t.Holds m records := by
  have list : t.list = s.list.filter fun r => r.name != name := list_of_delete deleted
  have newest : (records.take m).filter (fun r => r.name != name) = records.take m :=
    List.filter_eq_self.mpr fun r hr => by simpa using spared r hr
  refine ⟨?_, ?_⟩
  · rw [list]
    exact List.filter_sublist.trans h.sublist
  · rw [list, ← newest]
    exact h.kept.filter _

/-- Each record that is stored is one of the newest, or is listed behind the first `m`. -/
theorem mem_take_or_mem_drop {r : Record} (h : s.Holds m records) (hr : r ∈ s.list) :
    r ∈ records.take m ∨ r ∈ s.list.drop m := by
  obtain ⟨behind, split⟩ := h.kept
  by_cases all : records.length ≤ m
  · rw [List.take_of_length_le all]
    exact Or.inl (h.sublist.subset hr)
  · have length : (records.take m).length = m := by
      rw [List.length_take]
      omega
    rw [← split] at hr ⊢
    rw [List.drop_left' length]
    exact List.mem_append.mp hr

theorem not_mem_names_drop {r : Record} (h : s.Holds m records) (hr : r ∈ records.take m) :
    r.name ∉ (s.list.drop m).map (·.name) := by
  have distinct : ((s.list.take m ++ s.list.drop m).map (·.name)).Nodup := by
    rw [List.take_append_drop]
    exact s.nodup_names
  have first : r ∈ s.list.take m := by
    refine List.IsPrefix.subset ?_ hr
    exact List.prefix_take_iff.mpr ⟨h.kept, List.length_take_le m records⟩
  rw [List.map_append, List.nodup_append] at distinct
  intro behind
  exact distinct.2.2 _ (List.mem_map_of_mem first) _ behind rfl

end Holds

end Store

/-! ## Operations that spare the newest records -/

namespace Operation

/-- Whether an operation, if it deletes, deletes what is past the first `m` of a listing. -/
def PrunesTo (m : Nat) : Operation → Prop
  | .rotation _ (.writing plan) => plan.bound = m ∧ 1 ≤ m
  | .rotation _ (.listing _ bound _) => bound = m ∧ 1 ≤ m
  | .rotation _ (.deleting _ _ _ _) => 1 ≤ m
  | .delete _ => False
  | _ => True

/-- An operation that keeps to the bound, and will delete none of the records `newest`. -/
structure Harmless (m : Nat) (newest : List Record) (operation : Operation) : Prop where
  bound : operation.PrunesTo m
  spared : ∀ r ∈ newest, r.name ∉ operation.doomed

/-- A new record that no operation will delete can take its place among the newest. -/
theorem Harmless.cons {m : Nat} {operation : Operation} {records : List Record}
    {r : Record}
    (h : operation.Harmless m (records.take m)) (fresh : r.name ∉ operation.doomed) :
    operation.Harmless m ((r :: records).take m) := by
  refine ⟨h.bound, ?_⟩
  intro q hq
  cases m with
  | zero => cases hq
  | succ m =>
    rcases List.mem_cons.mp hq with rfl | hq
    · exact fresh
    · exact h.spared q (List.take_subset_take_left _ (Nat.le_succ m) hq)

end Operation

/-- A request that prunes to the bound `m`, if at all. -/
def Request.KeepsTo (config : Config) (m : Nat) : Request → Prop
  | .rotateTo plan => plan.bound = m
  | .rotate _ | .trigger _ _ => config.maxBackups = m
  | .delete _ => False
  | _ => True

instance (config : Config) (m : Nat) : ∀ request : Request, Decidable (request.KeepsTo config m)
  | .rotateTo plan => inferInstanceAs (Decidable (plan.bound = m))
  | .rotate _ | .trigger _ _ => inferInstanceAs (Decidable (config.maxBackups = m))
  | .delete _ => .isFalse id
  | .refresh | .forceRefresh | .update | .afterResponse | .write _ _ | .list => .isTrue trivial

namespace Service

variable {config : Config} {now : Moment} {s t : Service} {operation next : Operation}
  {request : Request} {progress : Progress} {written : Option Record} {m : Nat}
  {records newest : List Record} {caller : Caller} {own : String} {names : List String}

theorem Starts.harmless (h : Starts config request operation) (keeps : request.KeepsTo config m)
    (newest : List Record) : operation.Harmless m newest := by
  cases h with
  | refresh | write | list => exact ⟨trivial, fun _ _ => List.not_mem_nil⟩
  | rotateTo plan bound => exact ⟨⟨keeps, keeps ▸ bound⟩, fun _ _ => List.not_mem_nil⟩
  | rotate access plan bound positive | trigger _ _ plan bound positive =>
    exact ⟨⟨bound.trans keeps, keeps ▸ bound ▸ positive⟩, fun _ _ => List.not_mem_nil⟩
  | delete name => exact keeps.elim

theorem Starts.doomed_eq_nil (h : Starts config request operation)
    (keeps : request.KeepsTo config m) : operation.doomed = [] := by
  cases h with
  | delete name => exact keeps.elim
  | _ => rfl

theorem Prunes.doomed_subset (h : Prunes caller own names (.awaiting next)) :
    ∀ name ∈ next.doomed, name ∈ names := by
  cases h with
  | next outcome listed passed stale rest named passed_own other split =>
    rw [split]
    exact fun name hname => List.mem_append_right passed hname

theorem Prunes.prunesTo (h : Prunes caller own names (.awaiting next)) (positive : 1 ≤ m) :
    next.PrunesTo m := by
  cases h with
  | next => exact positive

theorem Alike.holds (h : s.Alike t) (holds : s.repository.store.Holds m records) :
    t.repository.store.Holds m records := by
  rw [h.store]
  exact holds

/-- The listing is the list of the store. -/
theorem list_of_listing (newestFirst : s.repository.oldestFirst = false)
    (h : s.repository.listing = .ok records) : records = s.repository.store.list := by
  unfold Repository.listing at h
  rw [newestFirst] at h
  split at h
  · cases h
  · cases h
    rfl

/-- An operation goes on to delete what it was to delete before, or what is listed past the bound; if
it has just written a record, it does not delete yet. -/
theorem Resumes.doomed (h : Resumes now s t operation (.awaiting next) written)
    (newestFirst : s.repository.oldestFirst = false) (bound : operation.PrunesTo m) :
    next.PrunesTo m ∧ (next.doomed = [] ∨ written = none ∧ ∀ name ∈ next.doomed,
      name ∈ operation.doomed ∨ name ∈ (s.repository.store.list.drop m).map (·.name)) := by
  cases h with
  | refreshFails purpose progress alike behind =>
    obtain ⟨p, rfl⟩ := behind _ rfl
    exact ⟨trivial, Or.inl rfl⟩
  | installs purpose progress records keys store order behind =>
    obtain ⟨p, rfl⟩ := behind _ rfl
    exact ⟨trivial, Or.inl rfl⟩
  | rotationWrites caller plan progress inserted order snapshot behind =>
    obtain ⟨answer, ended, -⟩ | awaiting := behind
    · cases ended
    · cases awaiting
      exact ⟨bound, Or.inl rfl⟩
  | rotationLists caller name _ createdAt progress listed alike listing behind =>
    obtain ⟨rfl, positive⟩ := bound
    obtain rfl := list_of_listing newestFirst listing
    refine ⟨behind.prunesTo positive, Or.inr ⟨rfl, fun name doomed => Or.inr ?_⟩⟩
    exact behind.doomed_subset name doomed
  | rotationDeletes caller outcome listed stale rest progress deleted order snapshot behind =>
    refine ⟨behind.prunesTo bound, Or.inr ⟨rfl, fun name doomed => Or.inl ?_⟩⟩
    exact List.mem_cons_of_mem _ (behind.doomed_subset name doomed)

/-- What an operation goes on to delete is past the newest records. -/
theorem Resumes.harmless (h : Resumes now s t operation (.awaiting next) written)
    (newestFirst : s.repository.oldestFirst = false)
    (holds : s.repository.store.Holds m records)
    (harmless : operation.Harmless m (records.take m)) :
    next.Harmless m ((written.toList ++ records).take m) := by
  obtain ⟨bound, doomless | ⟨rfl, listed⟩⟩ := h.doomed newestFirst harmless.bound
  · refine ⟨bound, fun r _ => ?_⟩
    rw [doomless]
    exact List.not_mem_nil
  · refine ⟨bound, fun r hr doomed => ?_⟩
    rcases listed _ doomed with before | past
    · exact harmless.spared r hr before
    · exact holds.not_mem_names_drop hr past

/-- What an operation goes on to delete was written. -/
theorem Resumes.named (h : Resumes now s t operation (.awaiting next) written)
    (newestFirst : s.repository.oldestFirst = false)
    (holds : s.repository.store.Holds m records) (bound : operation.PrunesTo m)
    (named : ∀ name ∈ operation.doomed, name ∈ records.map (·.name)) :
    ∀ name ∈ next.doomed, name ∈ records.map (·.name) := by
  intro name doomed
  obtain ⟨-, doomless | ⟨-, listed⟩⟩ := h.doomed newestFirst bound
  · rw [doomless] at doomed
    cases doomed
  · rcases listed name doomed with before | past
    · exact named name before
    · obtain ⟨r, hr, rfl⟩ := List.mem_map.mp past
      exact List.mem_map_of_mem (holds.sublist.subset (List.mem_of_mem_drop hr))

/-- A harmless operation leaves the newest records in the store, the one that it writes among
them. -/
theorem Resumes.holds (h : Resumes now s t operation progress written)
    (holds : s.repository.store.Holds m records)
    (harmless : operation.Harmless m (records.take m)) :
    t.repository.store.Holds m (written.toList ++ records) := by
  cases h with
  | ends _ _ alike | refreshFails _ _ alike | rotationLists _ _ _ _ _ _ alike =>
    exact alike.holds holds
  | installs _ _ _ _ store =>
    rw [store]
    exact holds
  | rotationWrites _ _ _ inserted | writes _ _ _ inserted => exact holds.insert inserted
  | rotationDeletes caller outcome listed stale rest progress deleted =>
    refine holds.delete deleted fun r hr hname => harmless.spared r hr ?_
    rw [hname]
    exact List.mem_cons_self
  | deletes => exact harmless.bound.elim

theorem Resumes.order (h : Resumes now s t operation progress written) :
    t.repository.oldestFirst = s.repository.oldestFirst := by
  cases h with
  | ends _ _ alike | refreshFails _ _ alike | rotationLists _ _ _ _ _ _ alike => exact alike.order
  | installs _ _ _ _ _ order => exact order
  | rotationWrites _ _ _ _ order | writes _ _ _ _ order => exact order
  | rotationDeletes _ _ _ _ _ _ _ order | deletes _ _ _ order => exact order

end Service

/-! ## Runs -/

/-- A move that starts no request but one that prunes to the bound `m`, if at all. -/
def Move.KeepsTo (config : Config) (m : Nat) : Move → Prop
  | .begin request _ _ => request.KeepsTo config m
  | _ => True

instance (config : Config) (m : Nat) : ∀ move : Move, Decidable (move.KeepsTo config m)
  | .begin request _ _ => inferInstanceAs (Decidable (request.KeepsTo config m))
  | .resume _ _ _ | .login _ _ _ | .authenticate _ _ _ | .check _ _ | .change _ => .isTrue trivial

namespace World

variable {env : Environment} {Allowed : World → Move → Prop} {w : World} {m : Nat}

/-- What a move enters into the history. -/
def entered (env : Environment) (w : World) (move : Move) : List Written :=
  (w.step env move).history.take ((w.step env move).history.length - w.history.length)

/-- No record is put in under a name that an operation in progress is still to delete. -/
structure Careful (env : Environment) (w : World) (move : Move) : Prop where
  fresh : ∀ e ∈ w.entered env move, ∀ p ∈ w.pending, e.record.name ∉ p.2.doomed

theorem careful_iff {move : Move} : w.Careful env move ↔
    ((w.entered env move).all fun e => w.pending.all fun p =>
      !p.2.doomed.contains e.record.name) = true := by
  simp only [List.all_eq_true, Bool.not_eq_true', List.contains_eq_mem, decide_eq_false_iff_not]
  exact ⟨Careful.fresh, Careful.mk⟩

instance (env : Environment) (w : World) (move : Move) : Decidable (w.Careful env move) :=
  decidable_of_iff _ careful_iff.symm

theorem Careful.not_mem_doomed {move : Move} {e : Written} (h : w.Careful env move)
    (history : (w.step env move).history = e :: w.history) :
    ∀ p ∈ w.pending, e.record.name ∉ p.2.doomed := by
  refine h.fresh e ?_
  rw [entered, history, List.length_cons, Nat.add_sub_cancel_left]
  exact List.mem_singleton_self e

/-- The newest `m` records are stored, and no operation in progress will delete one of them. -/
structure Retained (m : Nat) (w : World) : Prop where
  newestFirst : w.service.repository.oldestFirst = false
  holds : w.store.Holds m w.records
  harmless : ∀ p ∈ w.pending, p.2.Harmless m (w.records.take m)

theorem records_start (service : Service) :
    (start service).records = service.repository.store.list := by
  simp [records, start, Function.comp_def]

theorem retained_start (m : Nat) {service : Service}
    (newestFirst : service.repository.oldestFirst = false) : (start service).Retained m where
  newestFirst := newestFirst
  holds := by
    rw [records_start]
    exact Store.holds_list m _
  harmless := by simp [start]

/-- A move that keeps to the bound retains the newest records if the record that it puts in has a
name that no operation in progress is to delete. -/
theorem Retained.of_moves {move : Move} {w' : World} (h : w.Retained m) (moves : Moves env w move w')
    (keeps : move.KeepsTo env.config m)
    (fresh : ∀ e, w'.history = e :: w.history → ∀ p ∈ w.pending, e.record.name ∉ p.2.doomed) :
    w'.Retained m := by
  cases moves with
  | passes _ service alike =>
    exact ⟨alike.order.trans h.newestFirst, alike.holds h.holds, h.harmless⟩
  | refuses request cancelled now service answer alike =>
    exact ⟨alike.order.trans h.newestFirst, alike.holds h.holds, h.harmless⟩
  | begins request cancelled now service operation alike starts =>
    refine ⟨alike.order.trans h.newestFirst, alike.holds h.holds, ?_⟩
    exact List.forall_mem_cons.mpr ⟨starts.harmless keeps _, h.harmless⟩
  | resumes number cancelled now operation progress service written mem resumed =>
    have harmless := h.harmless _ mem
    refine ⟨?_, ?_, ?_⟩
    · rw [settled_service]
      exact resumed.order.trans h.newestFirst
    · rw [store, settled_service, records_settled]
      exact resumed.holds h.holds harmless
    · intro p hp
      rw [records_settled]
      rcases mem_pending_settled hp with ⟨other, -⟩ | ⟨next, rfl, rfl⟩
      -- to any other operation a record that was just written is new, so its name has to be, too
      · cases written with
        | none => exact h.harmless p other
        | some r => exact (h.harmless p other).cons (fresh _ rfl p other)
      · exact resumed.harmless h.newestFirst h.holds harmless
  | inserts record service inserted order snapshot =>
    refine ⟨order.trans h.newestFirst, h.holds.insert inserted, ?_⟩
    exact fun p hp => (h.harmless p hp).cons (fresh _ rfl p hp)

/-- A move that keeps to the bound and is careful about names retains the newest records. -/
theorem retained_step {move : Move} (h : w.Retained m) (keeps : move.KeepsTo env.config m)
    (careful : w.Careful env move) : (w.step env move).Retained m :=
  h.of_moves (moves_step env w move) keeps fun _ => careful.not_mem_doomed

/-! ## Names that are not used again -/

/-- No record is put in under the name of an earlier one. -/
structure Fresh (env : Environment) (w : World) (move : Move) : Prop where
  unused : ∀ e ∈ w.entered env move, e.record.name ∉ w.records.map (·.name)

instance (env : Environment) (w : World) (move : Move) : Decidable (w.Fresh env move) :=
  decidable_of_iff (∀ e ∈ w.entered env move, e.record.name ∉ w.records.map (·.name))
    ⟨Fresh.mk, Fresh.unused⟩

/-- What an operation is still to delete was written once. -/
def Named (w : World) : Prop :=
  ∀ p ∈ w.pending, ∀ name ∈ p.2.doomed, name ∈ w.records.map (·.name)

theorem named_start (service : Service) : (start service).Named := by simp [Named, start]

theorem Named.careful {move : Move} (h : w.Named) (fresh : w.Fresh env move) :
    w.Careful env move :=
  ⟨fun e he p hp doomed => fresh.unused e he (h p hp _ doomed)⟩

theorem Named.of_moves {move : Move} {w' : World} (h : w.Named) (retained : w.Retained m)
    (moves : Moves env w move w') (keeps : move.KeepsTo env.config m) : w'.Named := by
  cases moves with
  | passes | refuses => exact h
  | begins request cancelled now service operation alike starts =>
    refine List.forall_mem_cons.mpr ⟨fun name doomed => ?_, h⟩
    rw [starts.doomed_eq_nil keeps] at doomed
    cases doomed
  | inserts record =>
    exact fun p hp name doomed => List.mem_cons_of_mem _ (h p hp name doomed)
  | resumes number cancelled now operation progress service written mem resumed =>
    intro p hp name doomed
    rw [records_settled, List.map_append]
    refine List.mem_append_right _ ?_
    rcases mem_pending_settled hp with ⟨other, -⟩ | ⟨next, rfl, rfl⟩
    · exact h p other name doomed
    · exact resumed.named retained.newestFirst retained.holds (retained.harmless _ mem).bound
        (h _ mem) name doomed

/-- With names that are not used again every move is careful. -/
theorem careful_of_fresh {Allowed : World → Move → Prop} {u : World}
    (keeps : ∀ w move, Allowed w move → move.KeepsTo env.config m) (named : u.Named)
    (retained : u.Retained m)
    (run : Run env (fun w move => Allowed w move ∧ w.Fresh env move) u w) :
    Run env (fun w move => Allowed w move ∧ w.Careful env move) u w := by
  -- a fresh name is none that is still to be deleted only because those are names of the history
  have invariant : w.Named ∧ w.Retained m ∧
      Run env (fun w move => Allowed w move ∧ w.Careful env move) u w := by
    refine run.induct (P := fun w => w.Named ∧ w.Retained m ∧
      Run env (fun w move => Allowed w move ∧ w.Careful env move) u w) ?_ ?_
    · exact ⟨named, retained, .refl u⟩
    · rintro w move ⟨named, retained, run⟩ ⟨allowed, fresh⟩
      have careful := named.careful fresh
      have bounded := keeps w move allowed
      exact ⟨named.of_moves retained (moves_step env w move) bounded,
        retained_step retained bounded careful, run.next ⟨allowed, careful⟩⟩
  exact invariant.2.2

end World

end Keyring
