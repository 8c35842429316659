import Keyring.Proofs.Racing

/-!
# What racing rotations leave over

Rotations that race may fail and so leave more keys than the bound. But whoever hinders another
rotation has the rest of its list on its own one, apart from the key that it has written itself. So no
key past the bound is left over that was there before them all.

* `World.Exposed` says that a name has to be taken out, `World.Covered` that a rotation in progress
  will get as far as the name.
* `World.Swept` is the invariant: each old key that is exposed is covered (`swept_step`).
-/

namespace Keyring

namespace World

variable {env : Environment} {w : World} {m : Nat} {move : Move} {number : Nat}
  {progress : Progress} {service : Service} {written : Option Record}

/-! ## Keys that no rotation has written -/

/-- A record of this name was there before all rotations. -/
def Foreign (w : World) (name : String) : Prop :=
  ∃ e ∈ w.history, e.writer = none ∧ e.record.name = name

/-- The rotation that wrote the newest record has seen a listing. -/
def Listed (w : World) : Prop :=
  ∃ e older number, w.history = e :: older ∧ e.writer = some number ∧
    ∀ p ∈ w.pending, p.1 = number → p.2.doomed ≠ []

/-- A name that some rotation has to take out: a newer one is gone, or it is past the bound of a
rotation that has listed it. -/
def Exposed (m : Nat) (w : World) (name : String) : Prop :=
  (∃ newer ∈ w.names, newer ∉ w.store.names ∧ place w.names name < place w.names newer) ∨
    (w.Listed ∧ name ∉ w.names.take m)

/-- Some rotation in progress will get as far as the name. -/
def Covered (w : World) (name : String) : Prop :=
  ∃ p ∈ w.pending, Covers w.names w.store.names p.2.doomed name

/-- Each record that no rotation has written, and that has to be taken out, is about to be. -/
def Swept (m : Nat) (w : World) : Prop :=
  ∀ name ∈ w.store.names, w.Foreign name → w.Exposed m name → w.Covered name

theorem Foreign.mem_names {name : String} (foreign : w.Foreign name) : name ∈ w.names := by
  obtain ⟨e, he, -, rfl⟩ := foreign
  exact List.mem_map_of_mem (List.mem_map_of_mem he)

theorem Race.own?_ne (race : w.Race m) {name : String} (foreign : w.Foreign name)
    {p : Nat × Operation} (hp : p ∈ w.pending) : p.2.own? ≠ some name := by
  intro own
  obtain ⟨e, he, unwritten, rfl⟩ := foreign
  obtain ⟨e', he', written, same⟩ := race.owned p hp _ own
  have distinct : (w.history.map fun e => e.record.name).Nodup := by
    have nodup := race.nodup
    rw [names, records, List.map_map] at nodup
    exact nodup
  rw [List.inj_on_of_nodup_map distinct he' he same, unwritten] at written
  cases written

theorem mem_pending_settled_of_ne {p : Nat × Operation} (hp : p ∈ w.pending)
    (other : p.1 ≠ number) : p ∈ (w.settled number progress service written).pending := by
  have kept : p ∈ (w.remove number).pending := List.mem_filter.mpr ⟨hp, by simpa using other⟩
  cases progress with
  | ended answer => exact kept
  | awaiting next => exact List.mem_cons_of_mem _ kept

@[simp] theorem names_settled : (w.settled number progress service written).names =
    written.toList.map (·.name) ++ w.names := by
  rw [names, records_settled, List.map_append]
  rfl

@[simp] theorem store_settled :
    (w.settled number progress service written).store = service.repository.store := by
  rw [store, settled_service]

section Steps

variable {now : Moment} {rotation : Rotation} {name : String}

/-- Of two requests in progress with one number there is only one. -/
theorem Race.eq_of_number_eq (race : w.Race m) {operation : Operation}
    (mem : (number, operation) ∈ w.pending) {p : Nat × Operation} (hp : p ∈ w.pending)
    (same : p.1 = number) : p = (number, operation) :=
  race.distinct p hp (number, operation) mem same

/-- Whoever deletes a key gets as far as any older one that no rotation has written, if all between
them is stored. -/
theorem Race.covered_of_delete (race : w.Race m) {outcome : Rotation.Outcome} {listed : Nat}
    {stale : String} {rest : List String}
    (mem : (number, .rotation .direct (.deleting outcome listed stale rest)) ∈ w.pending)
    (deleted : w.store.delete stale = .ok service.repository.store)
    (behind : Service.Prunes .direct outcome.name rest progress)
    (stored : name ∈ service.repository.store.names) (foreign : w.Foreign name)
    (older : place w.names name ≤ place w.names stale)
    (intact : ∀ other ∈ w.names, place w.names name ≤ place w.names other →
      place w.names other ≤ place w.names stale → other ∈ w.store.names) :
    (w.settled number progress service none).Covered name := by
  have gone := Store.mem_names_of_delete deleted
  have thorough := race.thorough _ mem
  have other : outcome.name ≠ name := fun own => race.own?_ne foreign mem (congrArg some own)
  have listed : name ∈ rest := by
    obtain ⟨before, different⟩ := (gone name).mp stored
    have doomed := (thorough.complete stale rfl name before older).resolve_right
      (race.own?_ne foreign mem)
    exact (List.mem_cons.mp doomed).resolve_left different
  obtain ⟨next, rfl⟩ := behind.exists_next listed other.symm
  obtain ⟨-, -, -, passed, split, mine⟩ := behind.split
  refine ⟨(number, next), List.mem_cons_self, ?_⟩
  rw [store_settled, names_settled]
  have doomed : Thorough w.names w.store.names (some outcome.name)
      (stale :: (passed ++ next.doomed)) := split ▸ thorough
  exact doomed.covers_of_delete (fun own passed => congrArg some (mine own passed).symm) gone
    stored (race.own?_ne foreign mem) older intact

/-- A key that is about to be taken out stays so, until it is. -/
theorem Race.covered_settled (race : w.Race m)
    (mem : (number, .rotation .direct rotation) ∈ w.pending)
    (paced : Service.Paces now w.service service rotation progress written)
    (stored : name ∈ service.repository.store.names) (foreign : w.Foreign name)
    (covered : w.Covered name) : (w.settled number progress service written).Covered name := by
  obtain ⟨p, hp, covers⟩ := covered
  have thorough := race.thorough p hp
  -- a rotation without a list covers nothing
  have other (doomless : (Operation.rotation .direct rotation).doomed = []) : p.1 ≠ number := by
    intro same
    obtain rfl := race.eq_of_number_eq mem hp same
    have listed := covers.mem
    rw [doomless] at listed
    cases listed
  cases paced with
  | writes plan inserted =>
    refine ⟨p, mem_pending_settled_of_ne hp (other rfl), ?_⟩
    rw [store_settled, names_settled, Store.names_of_insert inserted]
    exact covers.cons thorough (race.unwritten _ mem plan.name rfl)
  | lists _ _ _ _ same =>
    refine ⟨p, mem_pending_settled_of_ne hp (other rfl), ?_⟩
    rw [store_settled, names_settled, same]
    exact covers
  | misses outcome listed stale rest gone same =>
    have other : p.1 ≠ number := by
      intro same
      obtain rfl := race.eq_of_number_eq mem hp same
      exact gone (covers.first_mem thorough rfl).1
    refine ⟨p, mem_pending_settled_of_ne hp other, ?_⟩
    rw [store_settled, names_settled, same]
    exact covers
  | deletes outcome listed stale rest progress deleted behind =>
    by_cases reached : place w.names name ≤ place w.names stale ∧
        ∃ first ∈ p.2.doomed.head?, place w.names stale ≤ place w.names first
    · obtain ⟨older, first, hfirst, le⟩ := reached
      refine race.covered_of_delete mem deleted behind stored foreign older ?_
      exact fun between known above below =>
        covers.intact first hfirst between known above (below.trans le)
    · have other : p.1 ≠ number := by
        intro same
        obtain rfl := race.eq_of_number_eq mem hp same
        exact reached ⟨(covers.first_mem thorough rfl).2, stale, rfl, Nat.le_refl _⟩
      refine ⟨p, mem_pending_settled_of_ne hp other, ?_⟩
      rw [store_settled, names_settled]
      refine covers.of_delete (Store.mem_names_of_delete deleted) ?_
      exact fun first hfirst older le => reached ⟨older, first, hfirst, le⟩

/-- A rotation that lists the keys covers all that it does not keep and that no rotation has written,
unless a newer key is gone. -/
theorem Race.covered_of_listing (race : w.Race m) {own : String} {bound : Nat} {createdAt : Instant}
    (mem : (number, .rotation .direct (.listing own bound createdAt)) ∈ w.pending)
    (same : service.repository.store = w.store)
    (behind : Service.Prunes .direct own (w.store.names.drop bound) progress)
    (stored : name ∈ w.store.names) (foreign : w.Foreign name) (past : name ∉ w.names.take m)
    (intact : ∀ newer ∈ w.names, place w.names name ≤ place w.names newer →
      newer ∈ w.store.names) :
    (w.settled number progress service none).Covered name := by
  obtain ⟨rfl, -⟩ : bound = m ∧ 1 ≤ m := (race.retained.harmless _ mem).bound
  have other : own ≠ name := fun same => race.own?_ne foreign mem (congrArg some same)
  have listed : name ∈ w.store.names.drop bound := by
    obtain ⟨r, hr, rfl⟩ := List.mem_map.mp stored
    rcases race.retained.holds.mem_take_or_mem_drop hr with newest | behind
    · refine absurd ?_ past
      rw [names, ← List.map_take]
      exact List.mem_map_of_mem newest
    · rw [Store.names, ← List.map_drop]
      exact List.mem_map_of_mem behind
  obtain ⟨next, rfl⟩ := behind.exists_next listed other.symm
  obtain ⟨-, -, -, passed, split, mine⟩ := behind.split
  refine ⟨(number, next), List.mem_cons_self, ?_⟩
  rw [store_settled, names_settled, same]
  refine ⟨?_, fun _ _ newer known above _ => intact newer known above⟩
  rw [split] at listed
  exact (List.mem_append.mp listed).resolve_left fun passed => other (mine name passed).symm

/-- A step that writes no record leaves a foreign one where it was, if it is still stored then. -/
theorem Race.mem_stored (race : w.Race m)
    (mem : (number, .rotation .direct rotation) ∈ w.pending)
    (paced : Service.Paces now w.service service rotation progress written)
    (stored : name ∈ service.repository.store.names) (known : name ∈ w.names) :
    name ∈ w.store.names := by
  cases paced with
  | writes plan inserted =>
    rw [Store.names_of_insert inserted] at stored
    refine (List.mem_cons.mp stored).resolve_left ?_
    rintro rfl
    exact race.unwritten _ mem plan.name rfl known
  | lists _ _ _ _ same | misses _ _ _ _ _ same =>
    rw [same] at stored
    exact stored
  | deletes _ _ _ _ _ deleted => exact ((Store.mem_names_of_delete deleted name).mp stored).1

/-- Only a rotation without a list can see its first listing. -/
theorem Race.listed_of_settled (race : w.Race m) {operation : Operation}
    (mem : (number, operation) ∈ w.pending) (doomed : operation.doomed ≠ [])
    (listed : (w.settled number progress service none).Listed) : w.Listed := by
  obtain ⟨e, older, writer, head, writes, seen⟩ := listed
  refine ⟨e, older, writer, head, writes, ?_⟩
  intro p hp same
  by_cases mine : p.1 = number
  · rw [race.eq_of_number_eq mem hp mine]
    exact doomed
  · exact seen p (mem_pending_settled_of_ne hp mine) same

/-- A key that has to be taken out since a step is covered since then. -/
theorem Race.exposed_settled (race : w.Race m)
    (mem : (number, .rotation .direct rotation) ∈ w.pending)
    (paced : Service.Paces now w.service service rotation progress written)
    (stored : name ∈ service.repository.store.names) (foreign : w.Foreign name)
    (exposed : (w.settled number progress service written).Exposed m name) :
    w.Exposed m name ∨ (w.settled number progress service written).Covered name := by
  have before := race.mem_stored mem paced stored foreign.mem_names
  unfold Exposed at exposed
  rw [names_settled, store_settled] at exposed
  by_cases intact : ∀ newer ∈ w.names, place w.names name < place w.names newer →
    newer ∈ w.store.names
  · have up : ∀ newer ∈ w.names, place w.names name ≤ place w.names newer →
        newer ∈ w.store.names := by
      intro newer known le
      rcases Nat.lt_or_eq_of_le le with lt | same
      · exact intact newer known lt
      · exact eq_of_place_eq foreign.mem_names same ▸ before
    cases paced with
    | writes plan inserted =>
      have new := race.unwritten _ mem plan.name rfl
      rcases exposed with ⟨newer, known, gone, later⟩ | ⟨listed, -⟩
      · rw [Store.names_of_insert inserted, List.mem_cons, not_or] at gone
        have known := (List.mem_cons.mp known).resolve_left gone.1
        have lt : place w.names name < place w.names newer := by
          rw [← place_cons_of_mem new foreign.mem_names, ← place_cons_of_mem new known]
          exact later
        exact absurd (intact newer known lt) gone.2
      · obtain ⟨e, older, writer, head, writes, seen⟩ := listed
        cases head
        cases writes
        exact absurd rfl (seen (number, _) List.mem_cons_self rfl)
    | lists own bound createdAt progress same behind =>
      rcases exposed with ⟨newer, known, gone, later⟩ | ⟨-, past⟩
      · rw [same] at gone
        exact absurd (intact newer known later) gone
      · exact Or.inr (race.covered_of_listing mem same behind before foreign past up)
    | misses outcome listed stale rest gone same =>
      rcases exposed with ⟨newer, known, gone, later⟩ | ⟨seen, past⟩
      · rw [same] at gone
        exact absurd (intact newer known later) gone
      · exact Or.inl (Or.inr ⟨race.listed_of_settled mem (List.cons_ne_nil _ _) seen, past⟩)
    | deletes outcome listed stale rest progress deleted behind =>
      rcases exposed with ⟨newer, known, gone, later⟩ | ⟨seen, past⟩
      · have taken : newer = stale := by
          by_contra other
          exact gone ((Store.mem_names_of_delete deleted newer).mpr
            ⟨intact newer known later, other⟩)
        subst taken
        refine Or.inr (race.covered_of_delete mem deleted behind stored foreign later.le ?_)
        exact fun other known above _ => up other known above
      · exact Or.inl (Or.inr ⟨race.listed_of_settled mem (List.cons_ne_nil _ _) seen, past⟩)
  · push Not at intact
    obtain ⟨newer, known, later, gone⟩ := intact
    exact Or.inl (Or.inl ⟨newer, known, gone, later⟩)

end Steps

theorem swept_start (m : Nat) (service : Service) : (start service).Swept m := by
  intro name stored foreign exposed
  rcases exposed with ⟨newer, known, gone, -⟩ | ⟨⟨e, older, number, head, writer, -⟩, -⟩
  · rw [names, records_start] at known
    exact absurd known gone
  · have mem : e ∈ (start service).history := head ▸ List.mem_cons_self
    obtain ⟨r, -, rfl⟩ := List.mem_map.mp mem
    cases writer

theorem swept_step (swept : w.Swept m) (race : w.Race m)
    (laps : Laps w move (w.step env move)) : (w.step env move).Swept m := by
  generalize w.step env move = w' at laps
  cases laps with
  | idles => exact swept
  | begins plan now valid unused =>
    intro name stored foreign exposed
    have before : w.Exposed m name := by
      refine exposed.imp_right ?_
      rintro ⟨⟨e, older, number, head, writer, seen⟩, past⟩
      exact ⟨⟨e, older, number, head, writer, fun p hp => seen p (List.mem_cons_of_mem _ hp)⟩, past⟩
    obtain ⟨p, hp, covers⟩ := swept name stored foreign before
    exact ⟨p, List.mem_cons_of_mem _ hp, covers⟩
  | resumes number now rotation progress service written mem healthy paced =>
    intro name stored foreign exposed
    rw [store_settled] at stored
    have foreign : w.Foreign name := by
      obtain ⟨e, he, unwritten, named⟩ := foreign
      rcases mem_history_settled he with he | ⟨r, -, rfl⟩
      · exact ⟨e, he, unwritten, named⟩
      · cases unwritten
    rcases race.exposed_settled mem paced stored foreign exposed with exposed | covered
    · have before := race.mem_stored mem paced stored foreign.mem_names
      exact race.covered_settled mem paced stored foreign (swept name before foreign exposed)
    · exact covered

end World

end Keyring
