import Keyring.Proofs.Effect
import Keyring.Proofs.World

/-!
# What a move does to a world

A move begins a request, lets one go on, puts a record into the store from outside, or leaves the
store and the keys in use alone. The history grows by a record exactly if the store takes one in.

* `Moves` lists what a move may do (`moves_step`).
* `Ordered` is what holds of the numbers of requests in every run (`ordered_of_run`): none is given
  twice, and a request that has written a record and goes on knows the record's name.
-/

namespace Keyring

/-! ## Names that an operation knows -/

namespace Operation

/-- The name of the record that a rotation has written. -/
def own? : Operation → Option String
  | .rotation _ (.listing name _ _) => some name
  | .rotation _ (.deleting outcome _ _ _) => some outcome.name
  | _ => none

/-- The names that are still to be deleted, the next one first. -/
def doomed : Operation → List String
  | .rotation _ (.deleting _ _ stale rest) => stale :: rest
  | .delete name => [name]
  | _ => []

/-- The next name to be deleted is not the operation's own. -/
def Spares (operation : Operation) : Prop :=
  ∀ name, operation.own? = some name → operation.doomed.head? ≠ some name

end Operation

namespace Service

variable {env : Environment} {now : Moment} {s t : Service} {operation next : Operation}
  {progress : Progress} {written : Option Record}

theorem Starts.own? {config : Config} {request : Request} (h : Starts config request operation) :
    operation.own? = none := by
  cases h <;> rfl

theorem Prunes.own? {caller : Caller} {own : String} {names : List String}
    (h : Prunes caller own names (.awaiting next)) : next.own? = some own ∧ next.Spares := by
  cases h with
  | next outcome listed passed stale rest named passed_own other split =>
    refine ⟨congrArg some named, ?_⟩
    intro name hname hstale
    cases hname
    cases hstale
    exact other named

/-- An operation keeps the name of the record that it wrote, and does not delete it next. -/
theorem Resumes.own? (h : Resumes now s t operation (.awaiting next) written) :
    next.Spares ∧ (∀ name, operation.own? = some name → next.own? = some name) ∧
      ∀ r, written = some r → next.own? = some r.name := by
  cases h with
  | refreshFails purpose progress alike behind =>
    obtain ⟨p, rfl⟩ := behind _ rfl
    refine ⟨?_, ?_, ?_⟩ <;> intro _ h <;> cases h
  | installs purpose progress records keys store order behind =>
    obtain ⟨p, rfl⟩ := behind _ rfl
    refine ⟨?_, ?_, ?_⟩ <;> intro _ h <;> cases h
  | rotationWrites caller plan progress inserted order snapshot behind =>
    obtain ⟨answer, ended, -⟩ | awaiting := behind
    · cases ended
    · cases awaiting
      refine ⟨?_, ?_, ?_⟩
      · intro _ _ h
        cases h
      · intro _ h
        cases h
      · intro r h
        cases h
        rfl
  | rotationLists caller name bound createdAt progress records alike listing behind =>
    obtain ⟨own, spares⟩ := behind.own?
    refine ⟨spares, ?_, fun _ h => absurd h.symm (by simp)⟩
    intro name h
    cases h
    exact own
  | rotationDeletes caller outcome listed stale rest progress deleted order snapshot behind =>
    obtain ⟨own, spares⟩ := behind.own?
    refine ⟨spares, ?_, fun _ h => absurd h.symm (by simp)⟩
    intro name h
    cases h
    exact own

theorem Resumes.written_of_refresh {purpose : Purpose}
    (h : Resumes now s t (.refresh purpose) progress written) : written = none := by
  cases h <;> rfl

theorem Resumes.next_eq (h : Resumes now s t operation progress written) :
    (written = none ∧ t.repository.store.next = s.repository.store.next) ∨
      ∃ r, written = some r ∧ s.repository.store.insert r = .ok t.repository.store := by
  cases h with
  | ends _ _ alike | refreshFails _ _ alike | rotationLists _ _ _ _ _ _ alike =>
    exact Or.inl ⟨rfl, congrArg _ alike.store⟩
  | installs _ _ _ _ store => exact Or.inl ⟨rfl, congrArg _ store⟩
  | rotationWrites _ _ _ inserted | writes _ _ _ inserted => exact Or.inr ⟨_, rfl, inserted⟩
  | rotationDeletes _ _ _ _ _ _ deleted | deletes _ _ deleted =>
    exact Or.inl ⟨rfl, Store.next_of_delete deleted⟩

end Service

namespace World

variable {env : Environment} {w : World}

/-! ## The history -/

theorem enter_of_insert {before : Store} {writer : Option Nat} {r : Record}
    (h : before.insert r = .ok w.store) :
    w.enter before writer = { w with history := ⟨r, writer⟩ :: w.history } := by
  have next := Store.next_of_insert h
  rw [enter, if_pos (by omega), Store.list_of_insert h]
  rfl

theorem enter_of_next_eq {before : Store} {writer : Option Nat} (h : w.store.next = before.next) :
    w.enter before writer = w := by
  rw [enter, if_neg (by omega)]

/-! ## The requests in progress -/

/-- The world in which a request has come to `progress` and the service to `service`, once it has
put the record `written` into the store. -/
def settled (w : World) (number : Nat) (progress : Progress) (service : Service)
    (written : Option Record) : World :=
  { settle number (w.remove number) (progress, service) with
    history := written.toList.map (⟨·, some number⟩) ++ w.history }

variable {number : Nat} {progress : Progress} {service : Service} {written : Option Record}

@[simp] theorem settled_service :
    (w.settled number progress service written).service = service := by
  cases progress <;> rfl

theorem settled_none :
    w.settled number progress service none = settle number (w.remove number) (progress, service) := by
  cases progress <;> rfl

@[simp] theorem settled_begun : (w.settled number progress service written).begun = w.begun := by
  cases progress <;> rfl

theorem mem_pending_settled {p : Nat × Operation}
    (h : p ∈ (w.settled number progress service written).pending) :
    (p ∈ w.pending ∧ p.1 ≠ number) ∨ ∃ operation, progress = .awaiting operation ∧
      p = (number, operation) := by
  cases progress with
  | ended answer =>
    obtain ⟨mem, other⟩ := List.mem_filter.mp h
    exact Or.inl ⟨mem, by simpa using other⟩
  | awaiting operation =>
    rcases List.mem_cons.mp h with rfl | h
    · exact Or.inr ⟨operation, rfl, rfl⟩
    · obtain ⟨mem, other⟩ := List.mem_filter.mp h
      exact Or.inl ⟨mem, by simpa using other⟩

theorem mem_answers_settled {a : Nat × Answer}
    (h : a ∈ (w.settled number progress service written).answers) :
    a ∈ w.answers ∨ ∃ answer, progress = .ended answer ∧ a = (number, answer) := by
  cases progress with
  | ended answer =>
    rcases List.mem_cons.mp h with rfl | h
    · exact Or.inr ⟨answer, rfl, rfl⟩
    · exact Or.inl h
  | awaiting operation => exact Or.inl h

theorem mem_history_settled {e : Written}
    (h : e ∈ (w.settled number progress service written).history) :
    e ∈ w.history ∨ ∃ r, written = some r ∧ e = ⟨r, some number⟩ := by
  rcases List.mem_append.mp h with h | h
  · cases written with
    | none => cases h
    | some r => exact Or.inr ⟨r, rfl, List.mem_singleton.mp h⟩
  · exact Or.inl h

theorem enter_settle {now : Moment} {operation : Operation}
    (h : Service.Resumes now w.service service operation progress written) :
    (settle number (w.remove number) (progress, service)).enter w.store (some number) =
      w.settled number progress service written := by
  have came : (settle number (w.remove number) (progress, service)).service = service := by
    cases progress <;> rfl
  have kept : (settle number (w.remove number) (progress, service)).history = w.history := by
    cases progress <;> rfl
  rcases h.next_eq with ⟨rfl, same⟩ | ⟨r, rfl, inserted⟩
  · rw [enter_of_next_eq (by rw [store, came]; exact same)]
    cases progress <;> rfl
  · rw [enter_of_insert (r := r) (by rw [store, store, came]; exact inserted), kept]
    rfl

theorem mem_pending_of_operation? {operation : Operation}
    (h : w.operation? number = some operation) : (number, operation) ∈ w.pending := by
  obtain ⟨p, hp, rfl⟩ := Option.map_eq_some_iff.mp h
  have same : p.1 = number := by simpa using List.find?_some hp
  exact same ▸ List.mem_of_find?_eq_some hp

@[simp] theorem service_enter (before : Store) (writer : Option Nat) (w : World) :
    (w.enter before writer).service = w.service := by
  unfold enter
  split <;> rfl

@[simp] theorem service_settle (number : Nat) (w : World) (step : Progress × Service) :
    (w.settle number step).service = step.2 := by
  obtain ⟨progress, service⟩ := step
  cases progress <;> rfl

@[simp] theorem pending_enter (before : Store) (writer : Option Nat) (w : World) :
    (w.enter before writer).pending = w.pending := by
  unfold enter
  split <;> rfl

@[simp] theorem operation?_enter (before : Store) (writer : Option Nat) (w : World) (number : Nat) :
    (w.enter before writer).operation? number = w.operation? number := by
  rw [operation?, pending_enter, operation?]

theorem operation?_settle_self (number : Nat) (w : World) (operation : Operation)
    (service : Service) :
    (w.settle number (.awaiting operation, service)).operation? number = some operation := by
  simp [operation?, settle]

theorem operation?_settle_of_ne {other : Nat} (h : other ≠ number) (w : World)
    (step : Progress × Service) :
    (w.settle number step).operation? other = w.operation? other := by
  obtain ⟨progress, service⟩ := step
  cases progress with
  | ended => rfl
  | awaiting operation => simp [operation?, settle, Ne.symm h]

theorem operation?_remove_of_ne {other : Nat} (h : other ≠ number) (w : World) :
    (w.remove number).operation? other = w.operation? other := by
  unfold operation? remove
  rw [List.find?_filter]
  congr 2
  funext p
  by_cases same : p.1 = other
  · simp [same, h]
  · simp [same]

theorem step_resume_of_none (h : w.operation? number = none) (cancelled : Bool) (now : Moment) :
    w.step env (.resume number cancelled now) = w := by
  simp [step, resume, h]

/-- A request in progress goes on as its operation does. -/
theorem exists_step_resume_eq_settled {operation : Operation}
    (h : w.operation? number = some operation) (env : Environment) (cancelled : Bool)
    (now : Moment) :
    let came := w.service.resume env now cancelled operation
    ∃ written, Service.Resumes now w.service came.2 operation came.1 written ∧
      w.step env (.resume number cancelled now) = w.settled number came.1 came.2 written := by
  obtain ⟨written, resumed⟩ := Service.resumes_resume env now cancelled operation w.service
  refine ⟨written, resumed, ?_⟩
  rw [step, resume, h]
  exact enter_settle resumed

/-- A refresh puts nothing into the store. -/
theorem step_resume_refresh {purpose : Purpose} (h : w.operation? number = some (.refresh purpose))
    (env : Environment) (cancelled : Bool) (now : Moment) :
    w.step env (.resume number cancelled now) = settle number (w.remove number)
      (w.service.resume env now cancelled (.refresh purpose)) := by
  obtain ⟨written, resumed, stepped⟩ := exists_step_resume_eq_settled h env cancelled now
  rw [stepped, resumed.written_of_refresh, settled_none]

/-! ## Moves -/

/-- What a move may do to a world. -/
inductive Moves (env : Environment) (w : World) : Move → World → Prop where
  /-- Neither the store nor a request takes notice. -/
  | passes (move : Move) (service : Service) (alike : w.service.Alike service) :
    Moves env w move { w with service }
  | refuses (request : Request) (cancelled : Bool) (now : Moment) (service : Service)
    (answer : Answer) (alike : w.service.Alike service) :
    Moves env w (.begin request cancelled now)
      { w with service, answers := (w.begun, answer) :: w.answers, begun := w.begun + 1 }
  | begins (request : Request) (cancelled : Bool) (now : Moment) (service : Service)
    (operation : Operation) (alike : w.service.Alike service)
    (starts : Service.Starts env.config request operation) :
    Moves env w (.begin request cancelled now)
      { w with service, pending := (w.begun, operation) :: w.pending, begun := w.begun + 1 }
  | resumes (number : Nat) (cancelled : Bool) (now : Moment) (operation : Operation)
    (progress : Progress) (service : Service) (written : Option Record)
    (mem : (number, operation) ∈ w.pending)
    (resumed : Service.Resumes now w.service service operation progress written) :
    Moves env w (.resume number cancelled now) (w.settled number progress service written)
  | inserts (record : Record) (service : Service)
    (inserted : w.store.insert record = .ok service.repository.store)
    (order : service.repository.oldestFirst = w.service.repository.oldestFirst)
    (snapshot : service.snapshot = w.service.snapshot) :
    Moves env w (.change (.insert record))
      { w with service, history := ⟨record, none⟩ :: w.history }

theorem moves_change (env : Environment) (w : World) (change : Change) :
    Moves env w (.change change) (w.step env (.change change)) := by
  have passes (h : w.service.Alike (change.apply w.service)) :
      Moves env w (.change change) (w.step env (.change change)) := by
    have same : ({ w with service := change.apply w.service } : World).store.next = w.store.next :=
      congrArg Store.next h.store
    rw [step, enter_of_next_eq same]
    exact .passes _ _ h
  cases change with
  | faults f => exact passes (.of_eq rfl rfl rfl rfl)
  | failBeforeList f => exact passes (.of_eq rfl rfl rfl rfl)
  | failAfterWrite f => exact passes (.of_eq rfl rfl rfl rfl)
  | failKeys on => exact passes (.of_eq rfl rfl rfl rfl)
  | register hook => exact passes (.of_eq rfl rfl rfl rfl)
  | insert record =>
    cases h : w.service.repository.store.insert record with
    | error e =>
      have alike : w.service.Alike ((Change.insert record).apply w.service) := by
        simp only [Change.apply, h]
        exact .refl _
      exact passes alike
    | ok store =>
      have applied : (Change.insert record).apply w.service =
          { w.service with repository.store := store } := by
        simp only [Change.apply, h]
      rw [step, applied, enter_of_insert h]
      exact .inserts record _ h rfl rfl

/-- A move does one of the things that `Moves` lists. -/
theorem moves_step (env : Environment) (w : World) (move : Move) :
    Moves env w move (w.step env move) := by
  have quiet := Codec.quiet_signed env.scheme
  cases move with
  | begin request cancelled now =>
    have alike := Service.alike_begin env now cancelled request w.service
    simp only [step, begin]
    cases h : w.service.begin env now cancelled request with
    | mk progress service =>
      rw [h] at alike
      cases progress with
      | ended answer => exact .refuses request cancelled now service answer alike
      | awaiting operation =>
        exact .begins request cancelled now service operation alike
          (Service.starts_of_begin (congrArg Prod.fst h))
  | resume number cancelled now =>
    cases h : w.operation? number with
    | none =>
      rw [step_resume_of_none h]
      exact .passes _ w.service (.refl _)
    | some operation =>
      obtain ⟨written, resumed, stepped⟩ := exists_step_resume_eq_settled h env cancelled now
      rw [stepped]
      exact .resumes number cancelled now operation _ _ written (mem_pending_of_operation? h)
        resumed
  | login verify credentials now =>
    exact .passes _ _ (Service.alike_login env quiet verify credentials now w.service)
  | authenticate token autoRenew now =>
    exact .passes _ _ (Service.alike_authenticate env quiet token autoRenew now w.service)
  | check token now => exact .passes _ _ (Service.alike_check env quiet token now w.service)
  | change change => exact moves_change env w change

@[simp] theorem records_settled :
    (w.settled number progress service written).records = written.toList ++ w.records := by
  cases written <;> rfl

/-- The history only grows. -/
theorem Moves.suffix {move : Move} {w' : World} (moves : Moves env w move w') :
    w.records <:+ w'.records := by
  cases moves with
  | passes | refuses | begins => exact List.suffix_rfl
  | inserts record => exact List.suffix_cons _ _
  | resumes =>
    rw [records_settled]
    exact List.suffix_append _ _

/-! ## Numbers -/

/-- What holds of the numbers of requests in every run. -/
structure Ordered (w : World) : Prop where
  pending_lt : ∀ p ∈ w.pending, p.1 < w.begun
  answers_lt : ∀ a ∈ w.answers, a.1 < w.begun
  writers_lt : ∀ e ∈ w.history, ∀ n, e.writer = some n → n < w.begun
  apart : ∀ p ∈ w.pending, ∀ a ∈ w.answers, p.1 ≠ a.1
  /-- A request that has written a record and goes on knows the record's name. -/
  own : ∀ e ∈ w.history, ∀ p ∈ w.pending, e.writer = some p.1 → p.2.own? = some e.record.name
  spares : ∀ p ∈ w.pending, p.2.Spares

theorem ordered_start (service : Service) : (start service).Ordered where
  pending_lt := by simp [start]
  answers_lt := by simp [start]
  writers_lt := by
    intro e he n hn
    obtain ⟨r, -, rfl⟩ := List.mem_map.mp he
    cases hn
  apart := by simp [start]
  own := by simp [start]
  spares := by simp [start]

theorem Ordered.settled {now : Moment} {operation : Operation} (h : w.Ordered)
    (mem : (number, operation) ∈ w.pending)
    (resumed : Service.Resumes now w.service service operation progress written) :
    (w.settled number progress service written).Ordered where
  pending_lt := by
    intro p hp
    rw [settled_begun]
    rcases mem_pending_settled hp with ⟨hp, -⟩ | ⟨next, -, rfl⟩
    · exact h.pending_lt p hp
    · exact h.pending_lt (number, operation) mem
  answers_lt := by
    intro a ha
    rw [settled_begun]
    rcases mem_answers_settled ha with ha | ⟨answer, -, rfl⟩
    · exact h.answers_lt a ha
    · exact h.pending_lt _ mem
  writers_lt := by
    intro e he n hn
    rw [settled_begun]
    rcases mem_history_settled he with he | ⟨r, -, rfl⟩
    · exact h.writers_lt e he n hn
    · cases hn
      exact h.pending_lt _ mem
  apart := by
    intro p hp a ha
    rcases mem_pending_settled hp with ⟨hp, other⟩ | ⟨next, awaiting, rfl⟩
    · rcases mem_answers_settled ha with ha | ⟨answer, -, rfl⟩
      · exact h.apart p hp a ha
      · exact other
    · rcases mem_answers_settled ha with ha | ⟨answer, ended, -⟩
      · exact h.apart _ mem a ha
      · rw [awaiting] at ended
        cases ended
  own := by
    intro e he p hp hw
    rcases mem_pending_settled hp with ⟨hp, other⟩ | ⟨next, rfl, rfl⟩
    · rcases mem_history_settled he with he | ⟨r, -, rfl⟩
      · exact h.own e he p hp hw
      · exact absurd (Option.some.inj hw).symm other
    · obtain ⟨-, keeps, names⟩ := resumed.own?
      rcases mem_history_settled he with he | ⟨r, hr, rfl⟩
      · exact keeps _ (h.own e he _ mem hw)
      · exact names r hr
  spares := by
    intro p hp
    rcases mem_pending_settled hp with ⟨hp, -⟩ | ⟨next, rfl, rfl⟩
    · exact h.spares p hp
    · exact resumed.own?.1

/-- No move gives a number twice. -/
theorem ordered_step (h : w.Ordered) (move : Move) : (w.step env move).Ordered := by
  have moves := moves_step env w move
  generalize w.step env move = w' at moves
  cases moves with
  | passes service alike => exact ⟨h.1, h.2, h.3, h.4, h.5, h.6⟩
  | refuses request cancelled now service answer alike =>
    refine ⟨?_, ?_, ?_, ?_, h.own, h.spares⟩
    · exact fun p hp => Nat.lt_succ_of_lt (h.pending_lt p hp)
    · exact List.forall_mem_cons.mpr
        ⟨Nat.lt_succ_self _, fun a ha => Nat.lt_succ_of_lt (h.answers_lt a ha)⟩
    · exact fun e he n hn => Nat.lt_succ_of_lt (h.writers_lt e he n hn)
    · exact fun p hp => List.forall_mem_cons.mpr
        ⟨Nat.ne_of_lt (h.pending_lt p hp), h.apart p hp⟩
  | begins request cancelled now service operation alike starts =>
    refine ⟨?_, ?_, ?_, ?_, ?_, ?_⟩
    · exact List.forall_mem_cons.mpr
        ⟨Nat.lt_succ_self _, fun p hp => Nat.lt_succ_of_lt (h.pending_lt p hp)⟩
    · exact fun a ha => Nat.lt_succ_of_lt (h.answers_lt a ha)
    · exact fun e he n hn => Nat.lt_succ_of_lt (h.writers_lt e he n hn)
    · exact List.forall_mem_cons.mpr
        ⟨fun a ha => (Nat.ne_of_lt (h.answers_lt a ha)).symm, h.apart⟩
    · exact fun e he => List.forall_mem_cons.mpr
        ⟨fun hw => absurd (h.writers_lt e he _ hw) (Nat.lt_irrefl _), h.own e he⟩
    · refine List.forall_mem_cons.mpr ⟨?_, h.spares⟩
      intro name hname
      rw [starts.own?] at hname
      cases hname
  | resumes number cancelled now operation progress service written mem resumed =>
    exact h.settled mem resumed
  | inserts record service inserted order snapshot =>
    refine ⟨h.pending_lt, h.answers_lt, ?_, h.apart, ?_, h.spares⟩
    · exact List.forall_mem_cons.mpr ⟨fun n hn => (nomatch hn), h.writers_lt⟩
    · exact List.forall_mem_cons.mpr ⟨fun p hp hn => (nomatch hn), h.own⟩

theorem ordered_of_run {Allowed : World → Move → Prop} {service : Service}
    (run : Run env Allowed (start service) w) : w.Ordered :=
  run.induct (ordered_start service) fun _ move h _ => ordered_step h move

end World

end Keyring
