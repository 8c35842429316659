import Mathlib.Data.Option.Basic
import Keyring.Proofs.Debounce
import Keyring.Proofs.Leftovers

/-!
# Who deletes the stale keys

Rotations that race delete each stale key once, and a rotation that comes too late for one fails. The
log of a race holds each name that was taken out of the store, with the number of the request whose step
did so.

* `World.Raced` relates the worlds of a race to their logs.
* `World.Served` says what has become of the requests that have begun, `World.Logged` that the log
  accounts for all keys that are gone and for all failures.
* `keys_behind_racing_rotations` is the result about whole races. That all the rotations succeed, or
  leave no more keys than the bound, does not follow: `not_forall_racing_rotations_succeed`.
-/

namespace Keyring

/-- The answer to a rotation that raced: it has succeeded, or another one has deleted a key before
it. -/
inductive Answer.LateAtMost (number : Nat) (deleted : List (Nat × String)) : Answer → Prop where
  | succeeds (outcome : Rotation.Outcome) : LateAtMost number deleted (.rotation (.ok outcome))
  | late (other : Nat) (name : String) (elsewhere : other ≠ number)
    (gone : (other, name) ∈ deleted) :
    LateAtMost number deleted (.rotation (.error (.keyStorage .delete (.notFound name))))

theorem Answer.LateAtMost.append {number : Nat} {deleted : List (Nat × String)} {answer : Answer}
    (raced : answer.LateAtMost number deleted) (newer : List (Nat × String)) :
    answer.LateAtMost number (newer ++ deleted) := by
  cases raced with
  | succeeds outcome => exact .succeeds outcome
  | late other name elsewhere gone =>
    exact .late other name elsewhere (List.mem_append_right _ gone)

/-- What a rotation goes on to delete is stored, or was on its list behind the next name. -/
theorem Service.Paces.doomed {now : Moment} {s t : Service} {rotation : Rotation} {next : Operation}
    {written : Option Record} (paced : Paces now s t rotation (.awaiting next) written)
    {name : String} (doomed : name ∈ next.doomed) :
    name ∈ t.repository.store.names ∨
      name ∈ (Operation.rotation .direct rotation).doomed.tail := by
  cases paced with
  | writes => cases doomed
  | lists own bound createdAt _ same behind =>
    rw [same]
    exact Or.inl (List.mem_of_mem_drop (behind.doomed_subset name doomed))
  | deletes outcome listed stale rest _ deleted behind =>
    exact Or.inr (behind.doomed_subset name doomed)

/-- No name stands twice on a thorough list. -/
theorem Thorough.not_mem_tail {names stored doomed : List String} {spared : Option String}
    (thorough : Thorough names stored spared doomed) {first : String}
    (h : first ∈ doomed.head?) : first ∉ doomed.tail := by
  obtain ⟨rest, rfl⟩ := List.head?_eq_some_iff.mp h
  intro again
  exact Nat.lt_irrefl _ ((List.pairwise_cons.mp thorough.sorted).1 first again)

namespace World

variable {env : Environment} {w : World} {m : Nat} {move : Move} {number : Nat}
  {progress : Progress} {service : Service} {written : Option Record}
  {deleted : List (Nat × String)}

/-! ## Races -/

/-- The names that a move takes out of the store on the way to the world `w'`, each with the number
of the request that goes on. -/
def deletions (w w' : World) : Move → List (Nat × String)
  | .resume number _ _ =>
    (w.store.names.filter fun name => !w'.store.names.contains name).map (number, ·)
  | _ => []

theorem mem_deletions {w' : World} {d : Nat × String} : d ∈ w.deletions w' move ↔
    (∃ cancelled now, move = .resume d.1 cancelled now) ∧
      d.2 ∈ w.store.names ∧ d.2 ∉ w'.store.names := by
  cases move with
  | resume number cancelled now =>
    simp only [deletions, List.mem_map, List.mem_filter, Bool.not_eq_true',
      List.contains_eq_mem, decide_eq_false_iff_not]
    constructor
    · rintro ⟨name, gone, rfl⟩
      exact ⟨⟨cancelled, now, rfl⟩, gone⟩
    · rintro ⟨⟨_, _, same⟩, gone⟩
      cases same
      exact ⟨d.2, gone, rfl⟩
  | _ => simp [deletions]

/-- The worlds of a race of rotations to the bound `m`, with the log of what was deleted. -/
inductive Raced (env : Environment) (m : Nat) (service : Service) :
    World → List (Nat × String) → Prop where
  | start : Raced env m service (start service) []
  | next {w : World} {deleted : List (Nat × String)} {move : Move} :
    Raced env m service w deleted → move.Races m w →
      Raced env m service (w.step env move) (w.deletions (w.step env move) move ++ deleted)

/-- Moves of a race, made one after the other, make a race. -/
theorem Raced.of_admits {w : World} (raced : Raced env m service w deleted) (moves : List Move)
    (h : Steps.Admits (step env) (fun w move => move.Races m w) w moves) :
    ∃ more, Raced env m service (w.after env moves) more := by
  induction moves generalizing w deleted with
  | nil => exact ⟨deleted, raced⟩
  | cons move moves ih => exact ih (raced.next h.1) h.2

/-! ## What has become of the requests -/

/-- Each request that has begun is in progress or has its answer, and has written its key unless it
is about to; nothing else was put in since the start. -/
structure Served (service : Service) (w : World) : Prop where
  history : ∃ entered, w.history = entered ++ (start service).history ∧
    (∀ e ∈ entered, ∃ number, e.writer = some number) ∧ (entered.map (·.writer)).Nodup
  wrote : ∀ number < w.begun, (∃ e ∈ w.history, e.writer = some number) ∨
    ∃ plan, (number, .rotation .direct (.writing plan)) ∈ w.pending
  served : ∀ number < w.begun, (∃ answer, (number, answer) ∈ w.answers) ∨
    ∃ operation, (number, operation) ∈ w.pending

theorem served_start (service : Service) : (start service).Served service where
  history := ⟨[], rfl, by simp, .nil⟩
  wrote := by simp [start]
  served := by simp [start]

theorem mem_answers_settled_of_mem {a : Nat × Answer} (ha : a ∈ w.answers) :
    a ∈ (w.settled number progress service written).answers := by
  cases progress with
  | ended answer => exact List.mem_cons_of_mem _ ha
  | awaiting next => exact ha

/-- A request that has made a step is in progress or has its answer. -/
theorem served_settled : (∃ answer, (number, answer) ∈
      (w.settled number progress service written).answers) ∨
    ∃ operation, (number, operation) ∈ (w.settled number progress service written).pending := by
  cases progress with
  | ended answer => exact Or.inl ⟨answer, List.mem_cons_self⟩
  | awaiting next => exact Or.inr ⟨next, List.mem_cons_self⟩

theorem Served.step {first : Service} (h : w.Served first) (race : w.Race m)
    (laps : Laps w move (w.step env move)) : (w.step env move).Served first := by
  generalize w.step env move = w' at laps
  cases laps with
  | idles => exact h
  | begins plan now valid unused =>
    refine ⟨h.history, ?_, ?_⟩
    · intro number lt
      rcases Nat.lt_succ_iff_lt_or_eq.mp lt with lt | rfl
      · refine (h.wrote number lt).imp_right ?_
        exact fun ⟨plan, mem⟩ => ⟨plan, List.mem_cons_of_mem _ mem⟩
      · exact Or.inr ⟨plan, List.mem_cons_self⟩
    · intro number lt
      rcases Nat.lt_succ_iff_lt_or_eq.mp lt with lt | rfl
      · refine (h.served number lt).imp_right ?_
        exact fun ⟨operation, mem⟩ => ⟨operation, List.mem_cons_of_mem _ mem⟩
      · exact Or.inr ⟨_, List.mem_cons_self⟩
  | resumes resumed now rotation progress service written mem healthy paced =>
    refine ⟨?_, ?_, ?_⟩
    · obtain ⟨entered, history, writers, distinct⟩ := h.history
      refine ⟨written.toList.map (⟨·, some resumed⟩) ++ entered, ?_, ?_, ?_⟩
      · rw [List.append_assoc, ← history]
        rfl
      · intro e he
        rcases List.mem_append.mp he with he | he
        · obtain ⟨r, -, rfl⟩ := List.mem_map.mp he
          exact ⟨resumed, rfl⟩
        · exact writers e he
      · cases paced with
        | writes plan inserted =>
          refine List.nodup_cons.mpr ⟨fun again => ?_, distinct⟩
          -- a rotation that is about to write has not written yet
          obtain ⟨e, he, writer⟩ := List.mem_map.mp again
          have own := race.ordered.own e (history ▸ List.mem_append_left _ he) _ mem writer
          cases own
        | lists | deletes | misses => exact distinct
    · intro number lt
      rw [settled_begun] at lt
      rcases h.wrote number lt with ⟨e, he, writer⟩ | ⟨plan, planned⟩
      · exact Or.inl ⟨e, List.mem_append_right _ he, writer⟩
      · by_cases mine : number = resumed
        · subst mine
          have same := race.eq_of_number_eq mem planned rfl
          cases same
          cases paced with
          | writes =>
            exact Or.inl ⟨_, List.mem_append_left _ (List.mem_singleton_self _), rfl⟩
        · exact Or.inr ⟨plan, mem_pending_settled_of_ne planned mine⟩
    · intro number lt
      rw [settled_begun] at lt
      by_cases mine : number = resumed
      · exact mine ▸ served_settled
      · rcases h.served number lt with ⟨answer, answered⟩ | ⟨operation, mem⟩
        · exact Or.inl ⟨answer, mem_answers_settled_of_mem answered⟩
        · exact Or.inr ⟨operation, mem_pending_settled_of_ne mem mine⟩

/-! ## What the log accounts for -/

/-- The log accounts for each key that is gone, and for each failure. -/
structure Logged (deleted : List (Nat × String)) (w : World) : Prop where
  complete : ∀ name ∈ w.names, name ∉ w.store.names → ∃ number, (number, name) ∈ deleted
  gone : ∀ d ∈ deleted, d.2 ∈ w.names ∧ d.2 ∉ w.store.names
  begun : ∀ d ∈ deleted, d.1 < w.begun
  /-- No rotation is still to delete what it has deleted. -/
  once : ∀ d ∈ deleted, ∀ p ∈ w.pending, p.1 = d.1 → d.2 ∉ p.2.doomed
  answers : ∀ a ∈ w.answers, a.2.LateAtMost a.1 deleted

theorem logged_start (service : Service) : (start service).Logged [] where
  complete name known gone := by
    rw [names, records_start] at known
    exact absurd known gone
  gone := by simp
  begun := by simp
  once := by simp
  answers := by simp [start]

namespace Logged

/-- A move that leaves the store as it is adds nothing to the log. -/
theorem of_store_eq {w' : World} (h : w.Logged deleted) (names : w'.names = w.names)
    (store : w'.store = w.store) (begun : w.begun ≤ w'.begun)
    (once : ∀ d ∈ deleted, ∀ p ∈ w'.pending, p.1 = d.1 → d.2 ∉ p.2.doomed)
    (answers : ∀ a ∈ w'.answers, a.2.LateAtMost a.1 deleted) (move : Move) :
    w'.Logged (w.deletions w' move ++ deleted) := by
  have nothing : w.deletions w' move = [] := by
    refine List.eq_nil_iff_forall_not_mem.mpr fun d hd => ?_
    obtain ⟨-, stored, gone⟩ := mem_deletions.mp hd
    exact gone (store ▸ stored)
  rw [nothing, List.nil_append]
  refine ⟨?_, ?_, ?_, once, answers⟩
  · rw [names, store]
    exact h.complete
  · rw [names, store]
    exact h.gone
  · exact fun d hd => (h.begun d hd).trans_le begun

section Settled

variable {now : Moment} {rotation : Rotation}

/-- A key that is in the log stays away, since no name is given twice. -/
theorem gone_settled (h : w.Logged deleted) (race : w.Race m)
    (mem : (number, .rotation .direct rotation) ∈ w.pending)
    (paced : Service.Paces now w.service service rotation progress written) :
    ∀ d ∈ w.deletions (w.settled number progress service written) (.resume number false now) ++
        deleted,
      d.2 ∈ (w.settled number progress service written).names ∧
        d.2 ∉ (w.settled number progress service written).store.names := by
  intro d hd
  rw [names_settled]
  rcases List.mem_append.mp hd with new | old
  · obtain ⟨-, stored, gone⟩ := mem_deletions.mp new
    exact ⟨List.mem_append_right _ (race.sublist.subset stored), gone⟩
  · obtain ⟨known, gone⟩ := h.gone d old
    refine ⟨List.mem_append_right _ known, fun stored => gone ?_⟩
    rw [store_settled] at stored
    exact race.mem_stored mem paced stored known

theorem complete_settled (h : w.Logged deleted)
    (paced : Service.Paces now w.service service rotation progress written) {name : String}
    (known : name ∈ (w.settled number progress service written).names)
    (gone : name ∉ (w.settled number progress service written).store.names) :
    ∃ other, (other, name) ∈
      w.deletions (w.settled number progress service written) (.resume number false now) ++
        deleted := by
  by_cases stored : name ∈ w.store.names
  · refine ⟨number, List.mem_append_left _ ?_⟩
    exact mem_deletions.mpr ⟨⟨false, now, rfl⟩, stored, gone⟩
  · rw [names_settled] at known
    rcases List.mem_append.mp known with new | known
    · cases paced with
      | writes plan inserted =>
        rw [store_settled, Store.names_of_insert inserted, List.mem_cons, not_or] at gone
        exact absurd (List.mem_singleton.mp new) gone.1
      | lists | deletes | misses => cases new
    · obtain ⟨other, logged⟩ := h.complete name known stored
      exact ⟨other, List.mem_append_right _ logged⟩

/-- A rotation that has deleted a key has it no more on its list. -/
theorem once_settled (h : w.Logged deleted) (race : w.Race m)
    (mem : (number, .rotation .direct rotation) ∈ w.pending)
    (paced : Service.Paces now w.service service rotation progress written) :
    ∀ d ∈ w.deletions (w.settled number progress service written) (.resume number false now) ++
        deleted,
      ∀ p ∈ (w.settled number progress service written).pending, p.1 = d.1 → d.2 ∉ p.2.doomed := by
  intro d hd p hp same doomed
  have gone := (h.gone_settled race mem paced d hd).2
  rcases mem_pending_settled hp with ⟨before, other⟩ | ⟨next, rfl, rfl⟩
  · rcases List.mem_append.mp hd with new | old
    · obtain ⟨⟨_, _, resumed⟩, -⟩ := mem_deletions.mp new
      cases resumed
      exact other same
    · exact h.once d old p before same doomed
  · rw [store_settled] at gone
    have behind := (paced.doomed doomed).resolve_left gone
    rcases List.mem_append.mp hd with new | old
    · obtain ⟨-, stored, -⟩ := mem_deletions.mp new
      -- the step has taken the name out, so it was the first one on the list
      cases paced with
      | writes | lists => cases behind
      | deletes outcome listed stale rest progress taken =>
        have first : d.2 = stale := by
          by_contra other
          exact gone ((Store.mem_names_of_delete taken d.2).mpr ⟨stored, other⟩)
        exact (race.thorough _ mem).not_mem_tail (congrArg some first.symm) behind
    · exact h.once d old _ mem same (List.mem_of_mem_tail behind)

/-- A rotation that fails has found a key gone that another one has deleted. -/
theorem answers_settled (h : w.Logged deleted) (race : w.Race m)
    (mem : (number, .rotation .direct rotation) ∈ w.pending)
    (paced : Service.Paces now w.service service rotation progress written) :
    ∀ a ∈ (w.settled number progress service written).answers, a.2.LateAtMost a.1
      (w.deletions (w.settled number progress service written) (.resume number false now) ++
        deleted) := by
  intro a ha
  rcases mem_answers_settled ha with ha | ⟨answer, rfl, rfl⟩
  · exact (h.answers a ha).append _
  · cases paced with
    | lists _ _ _ _ _ _ succeeds | deletes _ _ _ _ _ _ _ succeeds =>
      obtain ⟨outcome, rfl⟩ := succeeds answer rfl
      exact .succeeds outcome
    | misses outcome listed stale rest gone =>
      have known := (race.thorough _ mem).subset stale List.mem_cons_self
      obtain ⟨other, logged⟩ := h.complete stale known gone
      refine .late other stale ?_ (List.mem_append_right _ logged)
      rintro rfl
      exact h.once _ logged _ mem rfl List.mem_cons_self

end Settled

theorem step (h : w.Logged deleted) (race : w.Race m) (laps : Laps w move (w.step env move)) :
    (w.step env move).Logged (w.deletions (w.step env move) move ++ deleted) := by
  generalize w.step env move = w' at laps
  cases laps with
  | idles => exact h.of_store_eq rfl rfl (Nat.le_refl _) h.once h.answers move
  | begins plan now valid unused =>
    refine h.of_store_eq ?_ ?_ ?_ ?_ ?_ _
    · rfl
    · rfl
    · exact Nat.le_succ w.begun
    · exact fun d hd => List.forall_mem_cons.mpr ⟨fun _ => List.not_mem_nil, h.once d hd⟩
    · exact h.answers
  | resumes number now rotation progress service written mem healthy paced =>
    refine ⟨?_, h.gone_settled race mem paced, ?_, h.once_settled race mem paced,
      h.answers_settled race mem paced⟩
    · exact fun name known gone => h.complete_settled paced known gone
    · intro d hd
      rw [settled_begun]
      rcases List.mem_append.mp hd with new | old
      · obtain ⟨⟨_, _, resumed⟩, -⟩ := mem_deletions.mp new
        cases resumed
        exact race.ordered.pending_lt _ mem
      · exact h.begun d old

end Logged

/-! ## Whole races -/

/-- What holds in each world of a race. -/
theorem invariants_of_raced {first : Service} (healthy : first.Healthy)
    (raced : Raced env m first w deleted) :
    w.Race m ∧ w.Swept m ∧ w.Served first ∧ w.Logged deleted := by
  induction raced with
  | start =>
    exact ⟨race_start m healthy, swept_start m first, served_start first, logged_start first⟩
  | next raced races ih =>
    obtain ⟨race, swept, served, logged⟩ := ih
    have laps := race.laps env races
    exact ⟨race.step env races, swept_step swept race laps, served.step race laps,
      logged.step race laps⟩

/-- A request that goes on gets its answer or comes closer to it. -/
theorem resume_lowers_rank (distinct : w.Distinct) {operation : Operation}
    (mem : (number, operation) ∈ w.pending) (cancelled : Bool) (now : Moment) :
    (∃ answer, (number, answer) ∈ (w.step env (.resume number cancelled now)).answers) ∨
      ∃ next, (number, next) ∈ (w.step env (.resume number cancelled now)).pending ∧
        Prod.Lex (· < ·) (· < ·) next.rank operation.rank := by
  obtain ⟨written, -, stepped⟩ :=
    exists_step_resume_eq_settled (operation?_of_mem distinct mem) env cancelled now
  rw [stepped]
  cases progress : (w.service.resume env now cancelled operation).1 with
  | ended answer => exact Or.inl ⟨answer, List.mem_cons_self⟩
  | awaiting next => exact Or.inr ⟨next, List.mem_cons_self, Service.rank_lt_of_resume progress⟩

/-- Once all requests have ended, each of them has put a record in. -/
theorem Served.exists_entered {first : Service} (served : w.Served first) (ended : w.pending = [])
    {entered : List Written} (history : w.history = entered ++ (start first).history)
    (lt : number < w.begun) : ∃ e ∈ entered, e.writer = some number := by
  rcases served.wrote number lt with ⟨e, he, writer⟩ | ⟨plan, planned⟩
  · rw [history] at he
    rcases List.mem_append.mp he with he | he
    · exact ⟨e, he, writer⟩
    · obtain ⟨r, -, rfl⟩ := List.mem_map.mp he
      cases writer
  · rw [ended] at planned
    cases planned

/-- Once all requests have ended, there is one record more for each of them. -/
theorem length_records_of_pending_eq_nil {first : Service} (served : w.Served first)
    (ordered : w.Ordered) (ended : w.pending = []) :
    w.records.length = first.repository.store.list.length + w.begun := by
  obtain ⟨entered, history, writers, distinct⟩ := served.history
  have numbers : (entered.map (·.writer)).Perm ((List.range w.begun).map some) := by
    refine (List.perm_ext_iff_of_nodup distinct ?_).mpr fun writer => ?_
    · exact List.nodup_range.map (Option.some_injective _)
    · constructor
      · intro mem
        obtain ⟨e, he, rfl⟩ := List.mem_map.mp mem
        obtain ⟨number, writer⟩ := writers e he
        have lt := ordered.writers_lt e (history ▸ List.mem_append_left _ he) number writer
        rw [writer]
        exact List.mem_map_of_mem (List.mem_range.mpr lt)
      · intro mem
        obtain ⟨number, lt, rfl⟩ := List.mem_map.mp mem
        obtain ⟨e, he, writer⟩ := served.exists_entered ended history (List.mem_range.mp lt)
        exact writer ▸ List.mem_map_of_mem he
  have count : entered.length = w.begun := by
    have lengths := numbers.length_eq
    rwa [List.length_map, List.length_map, List.length_range] at lengths
  rw [records, List.length_map, history, List.length_append, count, start, List.length_map]
  exact Nat.add_comm _ _

/-- Once all requests have ended, what is left besides the newest keys is of requests. -/
theorem left_of_pending_eq_nil {first : Service} (race : w.Race m) (swept : w.Swept m)
    (served : w.Served first) (ended : w.pending = []) (begun : 0 < w.begun) {r : Record}
    (stored : r ∈ w.store.list) :
    r ∈ w.records.take m ∨ ∃ number, ⟨r, some number⟩ ∈ w.history := by
  have known : r ∈ w.records := race.retained.holds.sublist.subset stored
  obtain ⟨⟨r, writer⟩, he, rfl⟩ := List.mem_map.mp known
  cases writer with
  | some number => exact Or.inr ⟨number, he⟩
  | none =>
    refine Or.inl ?_
    by_contra past
    have listed : w.Listed := by
      obtain ⟨entered, history, writers, -⟩ := served.history
      cases entered with
      | nil =>
        obtain ⟨e, he, -⟩ := served.exists_entered ended history begun
        cases he
      | cons e entered =>
        obtain ⟨number, writer⟩ := writers e List.mem_cons_self
        refine ⟨e, _, number, history, writer, ?_⟩
        rw [ended]
        exact fun p hp => absurd hp List.not_mem_nil
    have exposed : w.Exposed m r.name := by
      refine Or.inr ⟨listed, fun newest => past ?_⟩
      rw [names, ← List.map_take] at newest
      obtain ⟨q, hq, same⟩ := List.mem_map.mp newest
      have kept := race.retained.holds.mem_list hq
      exact Store.eq_of_name_eq kept stored same ▸ hq
    obtain ⟨p, hp, -⟩ := swept r.name (List.mem_map_of_mem stored) ⟨_, he, rfl, rfl⟩ exposed
    rw [ended] at hp
    cases hp

end World

/-- Rotations to the bound `m` that race, in a service without failures and each with a name of its
own. Each step brings a rotation closer to its answer. Its key is written before that, and it succeeds
unless another rotation has deleted a stale key before it. At any time the `m` newest keys are stored.
Nothing else is, once the rotation to the newest one has succeeded; and once all have ended, nothing
else is but keys of these rotations. -/
theorem keys_behind_racing_rotations (env : Environment) (m : Nat) (service : Service)
    (healthy : service.Healthy) (w : World) (deleted : List (Nat × String))
    (raced : World.Raced env m service w deleted) :
    (∀ p ∈ w.pending, ∀ now,
      (∃ answer, (p.1, answer) ∈ (w.step env (.resume p.1 false now)).answers) ∨
        ∃ next, (p.1, next) ∈ (w.step env (.resume p.1 false now)).pending ∧
          Prod.Lex (· < ·) (· < ·) next.rank p.2.rank) ∧
    (∀ a ∈ w.answers, a.2.LateAtMost a.1 deleted ∧ ∃ e ∈ w.history, e.writer = some a.1) ∧
    w.records.take m <+: w.store.list ∧
    (∀ e older, w.history = e :: older → ∀ number, e.writer = some number →
      ∀ outcome, (number, .rotation (.ok outcome)) ∈ w.answers →
        w.store.list = w.records.take m) ∧
    (w.pending = [] →
      (∀ number < w.begun, ∃ answer, (number, answer) ∈ w.answers) ∧
      w.records.length = service.repository.store.list.length + w.begun ∧
      (0 < w.begun → ∀ r ∈ w.store.list,
        r ∈ w.records.take m ∨ ∃ number, ⟨r, some number⟩ ∈ w.history)) := by
  obtain ⟨race, swept, served, logged⟩ := World.invariants_of_raced healthy raced
  refine ⟨?_, ?_, race.retained.holds.kept, ?_, ?_⟩
  · exact fun p hp now => World.resume_lowers_rank race.distinct hp false now
  · intro a ha
    refine ⟨logged.answers a ha, ?_⟩
    rcases served.wrote a.1 (race.ordered.answers_lt a ha) with wrote | ⟨plan, planned⟩
    · exact wrote
    · exact absurd rfl (race.ordered.apart _ planned a ha)
  · intro e older head number writer outcome answered
    exact race.retained.holds.list_eq (race.trimmed.answers e older head _ answered writer trivial)
  · intro ended
    refine ⟨?_, World.length_records_of_pending_eq_nil served race.ordered ended, ?_⟩
    · intro number lt
      rcases served.served number lt with answered | ⟨operation, mem⟩
      · exact answered
      · rw [ended] at mem
        cases mem
    · exact fun begun r stored => World.left_of_pending_eq_nil race swept served ended begun stored

/-! ## Four rotations -/

namespace Racing

open Overlap (rotate)

/-- Four rotations to one key write, and then each of them lists the keys. The first one to write is
the last one to list; it deletes two keys and passes over its own, and the other three come too
late. -/
def race : List Move :=
  [rotate "c", .goOn 0, rotate "z", .goOn 1, rotate "y", .goOn 2, rotate "x", .goOn 3, .goOn 1,
   .goOn 2, .goOn 3, .goOn 0, .goOn 0, .goOn 0, .goOn 1, .goOn 2, .goOn 3]

/-- The world at the end of the race. -/
def finish : World := (World.start .initial).after Overlap.environment race

theorem healthy_initial : Service.initial.Healthy := ⟨rfl, rfl, rfl⟩

theorem raced_finish : ∃ deleted, World.Raced Overlap.environment 1 .initial finish deleted :=
  World.Raced.start.of_admits race (by decide_cbv)

theorem answer_finish : (3, .rotation (.error (.keyStorage .delete (.notFound "y")))) ∈
    finish.answers := by
  refine List.mem_of_head? ?_
  cbv

theorem pending_finish : finish.pending = [] := by cbv

theorem list_finish : finish.store.list =
    [⟨"x", [0], Moment.epoch.time⟩, ⟨"c", [0], Moment.epoch.time⟩] := by cbv

end Racing

open Racing in
theorem keys_behind_four_racing_rotations :
    Service.initial.Healthy ∧ ∃ deleted, World.Raced Overlap.environment 1 .initial finish deleted ∧
      (∃ other, other ≠ 3 ∧ (other, "y") ∈ deleted) ∧
        ∃ number, ⟨⟨"c", [0], Moment.epoch.time⟩, some number⟩ ∈ finish.history := by
  obtain ⟨deleted, raced⟩ := raced_finish
  obtain ⟨-, answers, -, -, ended⟩ :=
    keys_behind_racing_rotations Overlap.environment 1 .initial healthy_initial finish deleted raced
  obtain ⟨-, -, left⟩ := ended pending_finish
  have late : ∃ other, other ≠ 3 ∧ (other, "y") ∈ deleted := by
    cases (answers _ answer_finish).1 with
    | late other name elsewhere gone => exact ⟨other, elsewhere, gone⟩
  have stored : ⟨"c", [0], Moment.epoch.time⟩ ∈ finish.store.list := by
    rw [list_finish]
    exact List.mem_of_getLast? rfl
  have past : ⟨"c", [0], Moment.epoch.time⟩ ∉ finish.records.take 1 := by
    have newest : finish.records.take 1 = [⟨"x", [0], Moment.epoch.time⟩] := by cbv
    rw [newest]
    decide
  exact ⟨healthy_initial, deleted, raced, late, (left (by decide_cbv) _ stored).resolve_left past⟩

open Racing in
/-- Rotations that race may fail, and leave more keys than the bound. -/
theorem not_forall_racing_rotations_succeed :
    (¬ ∀ (env : Environment) (m : Nat) (service : Service), service.Healthy →
      ∀ w deleted, World.Raced env m service w deleted → w.pending = [] →
        ∀ a ∈ w.answers, ∃ outcome, a.2 = .rotation (.ok outcome)) ∧
    ¬ ∀ (env : Environment) (m : Nat) (service : Service), service.Healthy →
      ∀ w deleted, World.Raced env m service w deleted → w.pending = [] → 0 < w.begun →
        w.store.list = w.records.take m := by
  obtain ⟨deleted, raced⟩ := raced_finish
  refine ⟨fun succeed => ?_, fun newest => ?_⟩
  · obtain ⟨outcome, succeeded⟩ :=
      succeed _ 1 _ healthy_initial _ _ raced pending_finish _ answer_finish
    cases succeeded
  · have same := newest _ 1 _ healthy_initial _ _ raced pending_finish (by decide_cbv)
    have short : finish.store.list.length ≤ 1 := same ▸ List.length_take_le 1 _
    rw [list_finish] at short
    exact absurd short (by decide)

end Keyring
