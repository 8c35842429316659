import Keyring.Proofs.Moves

/-!
# The audit trail

The events of the audit trail tell what becomes of the keys: a rotation enters its key, a deletion
strikes one out, and a refresh says how many keys are in use and which is the newest. As long as
nothing goes past the service, the store holds what the trail tells, wherever requests fail or are
given up. They may overlap between their calls to the repository; a call and the event about it are
one step here, as on one thread, and where several threads run, events may come in another order than
their calls.

* `Event.audit?` reads an event as an entry of the trail, and `Event.enter` applies an entry to the
  names of the keys.
* `Tells` relates two services by the events between them (`tells_of_resumes` for a step).
* `trail_of_run` is about the events of a whole run.
-/

namespace Keyring

/-! ## Entries -/

namespace Event

/-- The text of a field. -/
def text? (e : Event) (field : String) : Option String :=
  match e.fields.lookup field with
  | some (.text s) => some s
  | _ => none

/-- What was done to what, and how it ended. -/
structure Entry where
  action : String
  resource : String
  result : String

/-- The entry that an event makes in the audit trail. -/
def audit? (e : Event) : Option Entry :=
  if e.message = "audit_event" then do
    return ⟨← e.text? "audit.action", ← e.text? "audit.resource", ← e.text? "audit.result"⟩
  else none

/-- Applies an event to the names of the keys, from the newest to the oldest. -/
def enter (names : List String) (e : Event) : List String :=
  match e.audit? with
  | some ⟨"rotate_signing_key", name, "success"⟩ => name :: names
  | some ⟨"prune_signing_key", name, "success"⟩ => names.erase name
  | _ => names

/-- Whether an event reports that the keys in use were replaced. -/
def isRefresh (e : Event) : Bool :=
  match e.audit? with
  | some entry => entry.action == "refresh_key_cache"
  | none => false

/-- An event gives the number of these keys and the name of the newest one. -/
def Describes (e : Event) (keys : Snapshot) : Prop :=
  e.fields.lookup "audit.key_count" = some (.count keys.length) ∧
    e.fields.lookup "current" = some (.text ((keys.current.map (·.name)).getD "<none>"))

/-- The last event that reports that the keys in use were replaced. -/
def lastRefresh? (events : List Event) : Option Event := (events.filter isRefresh).getLast?

/-! An event that reports no change makes no entry that counts. -/

theorem enter_of_quiet {e : Event} (names : List String) (h : e.reportsChange = false) :
    enter names e = names := by
  cases e <;> first | rfl | cases h

theorem reportsChange_of_isRefresh {e : Event} (h : e.isRefresh = true) :
    e.reportsChange = true := by
  cases e <;> first | rfl | cases h

theorem foldl_enter_changes (events : List Event) (names : List String) :
    (events.filter reportsChange).foldl enter names = events.foldl enter names := by
  induction events generalizing names with
  | nil => rfl
  | cons e events ih =>
    cases h : e.reportsChange with
    | false => rw [List.filter_cons_of_neg (by simp [h]), List.foldl_cons, enter_of_quiet names h, ih]
    | true => rw [List.filter_cons_of_pos h, List.foldl_cons, List.foldl_cons, ih]

theorem lastRefresh?_changes (events : List Event) :
    lastRefresh? (events.filter reportsChange) = lastRefresh? events := by
  rw [lastRefresh?, List.filter_filter]
  refine congrArg List.getLast? (List.filter_congr fun e _ => ?_)
  cases h : e.isRefresh with
  | false => rfl
  | true => rw [reportsChange_of_isRefresh h, Bool.and_self]

theorem lastRefresh?_append (first second : List Event) :
    lastRefresh? (first ++ second) = (lastRefresh? second).or (lastRefresh? first) := by
  rw [lastRefresh?, List.filter_append, List.getLast?_append]
  rfl

end Event

/-! ## What a trail tells -/

namespace Service

variable {s t u : Service} {events more changes : List Event}

/-- The names of the keys that are stored, from the newest to the oldest. -/
def names (s : Service) : List String := s.repository.store.names

/-- Applied to the names of the first service, the events give those of the second one, and the last
refresh among them describes its keys in use. -/
structure Tells (events : List Event) (s t : Service) : Prop where
  names : events.foldl Event.enter s.names = t.names
  refreshed : ∀ e, Event.lastRefresh? events = some e → e.Describes t.snapshot
  unrefreshed : Event.lastRefresh? events = none → t.snapshot = s.snapshot

theorem Tells.trans (first : Tells events s t) (second : Tells more t u) :
    Tells (events ++ more) s u where
  names := by rw [List.foldl_append, first.names, second.names]
  refreshed := by
    intro e last
    rw [Event.lastRefresh?_append] at last
    cases h : Event.lastRefresh? more with
    | some e' =>
      rw [h] at last
      cases last
      exact second.refreshed e h
    | none =>
      rw [h] at last
      rw [second.unrefreshed h]
      exact first.refreshed e last
  unrefreshed := by
    intro last
    rw [Event.lastRefresh?_append, Option.or_eq_none_iff] at last
    rw [second.unrefreshed last.1, first.unrefreshed last.2]

theorem Tells.of_changes (h : Tells (events.filter Event.reportsChange) s t) :
    Tells events s t where
  names := by rw [← Event.foldl_enter_changes, h.names]
  refreshed := by
    rw [← Event.lastRefresh?_changes]
    exact h.refreshed
  unrefreshed := by
    rw [← Event.lastRefresh?_changes]
    exact h.unrefreshed

/-- The events that the second service has logged since the first one tell what became of it. -/
def Trail (s t : Service) : Prop := ∃ events, t.log = s.log ++ events ∧ Tells events s t

theorem trail_of_logs (logs : s.Logs t changes) (tells : Tells changes s t) : Trail s t := by
  obtain ⟨events, hlog, rfl⟩ := logs
  exact ⟨events, hlog, tells.of_changes⟩

theorem Trail.trans (first : Trail s t) (second : Trail t u) : Trail s u := by
  obtain ⟨events, hlog, tells⟩ := first
  obtain ⟨more, hlog', tells'⟩ := second
  exact ⟨events ++ more, by rw [hlog', hlog, List.append_assoc], tells.trans tells'⟩

theorem Alike.trail (h : Alike s t) : Trail s t := by
  refine trail_of_logs h.log ⟨?_, ?_, fun _ => h.snapshot⟩
  · exact congrArg Store.names h.store.symm
  · intro e last
    cases last

/-! ## Steps -/

/-- The keys in use were replaced, and nothing else. -/
theorem trail_of_refresh (store : t.repository.store = s.repository.store)
    (log : s.Logs t [.cacheRefreshed t.snapshot.length (t.snapshot.current.map (·.name))]) :
    Trail s t := by
  refine trail_of_logs log ⟨?_, ?_, fun last => ?_⟩
  · exact congrArg Store.names store.symm
  · intro e last
    cases last
    exact ⟨rfl, rfl⟩
  · cases last

theorem trail_of_insert {r : Record}
    (inserted : s.repository.store.insert r = .ok t.repository.store)
    (snapshot : t.snapshot = s.snapshot) (log : s.Logs t [.keyRotated r.name]) : Trail s t := by
  refine trail_of_logs log ⟨?_, ?_, fun _ => snapshot⟩
  · simp only [names, Store.names, Store.list_of_insert inserted, List.map_cons]
    rfl
  · intro e last
    cases last

theorem trail_of_delete {name : String}
    (deleted : s.repository.store.delete name = .ok t.repository.store)
    (snapshot : t.snapshot = s.snapshot) (log : s.Logs t [.keyPruned name]) : Trail s t := by
  refine trail_of_logs log ⟨?_, ?_, fun _ => snapshot⟩
  · have struck : t.names = s.names.filter (· != name) := by
      simp only [names, Store.names, Store.list_of_delete deleted, List.filter_map]
      rfl
    rw [struck]
    exact s.repository.store.nodup_names.erase_eq_filter name
  · intro e last
    cases last

end Service

/-- The operation comes to the store by a rotation, if it changes it at all. -/
def Operation.Audited : Operation → Prop
  | .write _ _ | .delete _ => False
  | _ => True

/-- The move changes the store by a rotation, if at all. -/
def Move.Audited : Move → Prop
  | .begin (.write _ _) _ _ | .begin (.delete _) _ _ | .change (.insert _) => False
  | _ => True

instance decidableAudited : ∀ move : Move, Decidable move.Audited
  | .begin request _ _ => by cases request <;> first | exact .isTrue trivial | exact .isFalse id
  | .resume _ _ _ | .login _ _ _ | .authenticate _ _ _ | .check _ _ => .isTrue trivial
  | .change change => by cases change <;> first | exact .isTrue trivial | exact .isFalse id

namespace Service

variable {now : Moment} {s t : Service} {operation next : Operation} {progress : Progress}
  {written : Option Record}

theorem Starts.audited {config : Config} {request : Request} {cancelled : Bool}
    (h : Starts config request operation) (audited : (Move.begin request cancelled now).Audited) :
    operation.Audited := by
  cases h <;> first | exact trivial | exact audited

theorem Prunes.audited {caller : Caller} {own : String} {names : List String}
    (h : Prunes caller own names (.awaiting next)) : next.Audited := by
  cases h
  exact trivial

theorem Resumes.audited (h : Resumes now s t operation (.awaiting next) written) :
    next.Audited := by
  cases h with
  | refreshFails purpose progress alike behind
  | installs purpose progress records keys store order behind =>
    obtain ⟨p, rfl⟩ := behind _ rfl
    exact trivial
  | rotationWrites caller plan progress inserted order snapshot behind =>
    obtain ⟨answer, ended, -⟩ | awaiting := behind
    · cases ended
    · cases awaiting
      exact trivial
  | rotationLists caller name bound createdAt progress records alike listing behind =>
    exact behind.audited
  | rotationDeletes caller outcome listed stale rest progress deleted order snapshot behind =>
    exact behind.audited

/-- What a step does, its events tell. -/
theorem Resumes.trail (h : Resumes now s t operation progress written)
    (audited : operation.Audited) : Trail s t := by
  cases h with
  | ends _ _ alike | refreshFails _ _ alike | rotationLists _ _ _ _ _ _ alike => exact alike.trail
  | installs _ _ _ _ store _ _ log => exact trail_of_refresh store log
  | rotationWrites _ _ _ inserted _ snapshot _ log => exact trail_of_insert inserted snapshot log
  | rotationDeletes _ _ _ _ _ _ deleted _ snapshot _ log =>
    exact trail_of_delete deleted snapshot log
  | writes | deletes => exact audited.elim

end Service

/-! ## Runs -/

namespace World

variable {env : Environment} {w : World}

/-- What holds in every run in which only rotations change the store. -/
structure Trailed (service : Service) (w : World) : Prop where
  trail : service.Trail w.service
  audited : ∀ p ∈ w.pending, p.2.Audited

theorem trailed_start (service : Service) : (start service).Trailed service :=
  ⟨(Service.Alike.refl service).trail, by simp [start]⟩

theorem Trailed.step {service : Service} {move : Move} (h : w.Trailed service)
    (audited : move.Audited) : (w.step env move).Trailed service := by
  have moves := moves_step env w move
  generalize w.step env move = w' at moves
  cases moves with
  | passes move service' alike => exact ⟨h.trail.trans alike.trail, h.audited⟩
  | refuses request cancelled now service' answer alike =>
    exact ⟨h.trail.trans alike.trail, h.audited⟩
  | begins request cancelled now service' operation alike starts =>
    refine ⟨h.trail.trans alike.trail, ?_⟩
    exact List.forall_mem_cons.mpr ⟨starts.audited audited, h.audited⟩
  | resumes number cancelled now operation progress service' written mem resumed =>
    refine ⟨?_, ?_⟩
    · rw [settled_service]
      exact h.trail.trans (resumed.trail (h.audited _ mem))
    · intro p hp
      rcases mem_pending_settled hp with ⟨hp, -⟩ | ⟨next, rfl, rfl⟩
      · exact h.audited p hp
      · exact resumed.audited
  | inserts => exact audited.elim

end World

/-- In every run in which only rotations change the store, the events that were logged since the
beginning tell what became of the keys: applied in order to the names at the beginning, they give the
names that are stored now, and the last refresh among them has the number of the keys in use and the
name of the newest. Without a refresh the keys in use are those of the beginning. -/
theorem trail_of_run (env : Environment) (service : Service) {w : World}
    (run : Run env (fun _ move => move.Audited) (.start service) w) :
    ∃ events, w.service.log = service.log ++ events ∧
      events.foldl Event.enter service.repository.store.names = w.store.names ∧
      (∀ e, Event.lastRefresh? events = some e → e.Describes w.service.snapshot) ∧
      (Event.lastRefresh? events = none → w.service.snapshot = service.snapshot) := by
  have trailed := run.induct (World.trailed_start service) fun w move h audited => h.step audited
  obtain ⟨events, hlog, tells⟩ := trailed.trail
  exact ⟨events, hlog, tells.names, tells.refreshed, tells.unrefreshed⟩

namespace AuditTrail

def environment : Environment := .plain .keepsThree fun _ => ""

/-- A rotation and a refresh, and a second rotation that fails behind its write. -/
def interrupted : List Move :=
  [.begin (.rotateTo ⟨"a", List.replicate 32 1, 1⟩) false .epoch, .goOn 0, .goOn 0,
   .begin .forceRefresh false .epoch, .goOn 1, .change (.failAfterWrite .always),
   .begin (.rotateTo ⟨"b", List.replicate 32 2, 1⟩) false .epoch, .goOn 2]

end AuditTrail

open AuditTrail in
theorem trail_of_interrupted_rotation :
    ((World.start .initial).after environment interrupted).service.log.foldl Event.enter [] =
      ["b", "a"] := by
  obtain ⟨events, hlog, names, -⟩ := trail_of_run environment .initial
    (Run.of_admits interrupted (by decide_cbv))
  have stored : ((World.start .initial).after environment interrupted).store.names =
      ["b", "a"] := by cbv
  have unused : Service.initial.repository.store.names = [] := by cbv
  rw [unused, stored] at names
  rw [hlog]
  exact names

end Keyring
