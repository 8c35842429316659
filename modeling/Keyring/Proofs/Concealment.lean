import Keyring.Proofs.Moves

/-!
# Key material is concealed

Apart from its length, key material decides nothing that is seen of a service: neither an answer nor a
count nor the log depends on it. To blank all key material and then to make a move comes to the same as
the other way round, so worlds that differ in their keys alone stay alike.

* `veil` blanks the key material in records, stores, services and worlds, and keeps its length.
* `veil_begin` and `veil_resume` say that the steps of a service do not look behind the veil.
* `World.Seen` is what is seen of a world, and `seen_of_other_keys` the result about runs.
-/

namespace Keyring

/-! ## The veil -/

/-- Key material of the same length that is the same for all keys. -/
def blank (key : Bytes) : Bytes := List.replicate key.length 0

@[simp] theorem length_blank (key : Bytes) : (blank key).length = key.length :=
  List.length_replicate

theorem blank_eq_blank {key key' : Bytes} (h : key.length = key'.length) : blank key = blank key' :=
  congrArg (List.replicate · 0) h

theorem isEmpty_blank (key : Bytes) : (blank key).isEmpty = key.isEmpty := by
  cases key <;> rfl

def Record.veil (r : Record) : Record := { r with key := blank r.key }

def Key.veil (k : Key) : Key where
  name := k.name
  seed := blank k.seed
  createdAt := k.createdAt
  seed_length := (length_blank k.seed).trans k.seed_length

namespace Store

def Entry.veil (e : Entry) : Entry := ⟨e.ticket, e.record.veil⟩

def veil (s : Store) : Store where
  entries := s.entries.map Entry.veil
  next := s.next
  increasing := List.pairwise_map.mpr s.increasing
  below_next := List.forall_mem_map.mpr s.below_next
  distinct := by
    rw [List.map_map]
    exact s.distinct

theorem ext_entries {s t : Store} (entries : s.entries = t.entries) (next : s.next = t.next) :
    s = t := by
  cases s
  cases t
  cases entries
  cases next
  rfl

@[simp] theorem contains_veil (s : Store) (name : String) : s.veil.contains name = s.contains name :=
  List.any_map

theorem list_veil (s : Store) : s.veil.list = s.list.map Record.veil := by
  rw [list_eq, list_eq, veil, ← List.map_reverse, List.map_map, List.map_map]
  rfl

theorem insert_veil (s : Store) (r : Record) : s.veil.insert r.veil = (s.insert r).map veil := by
  have name : s.veil.contains r.veil.name = s.contains r.name := s.contains_veil r.name
  unfold insert
  by_cases taken : s.contains r.name = true
  · rw [dif_pos taken, dif_pos (name.trans taken)]
    rfl
  · rw [dif_neg taken, dif_neg (name ▸ taken)]
    refine congrArg Except.ok (ext_entries ?_ rfl)
    show s.entries.map Entry.veil ++ [⟨s.next, r.veil⟩] =
      (s.entries ++ [(⟨s.next, r⟩ : Entry)]).map Entry.veil
    rw [List.map_append]
    rfl

theorem delete_veil (s : Store) (name : String) : s.veil.delete name = (s.delete name).map veil := by
  unfold delete
  rw [contains_veil]
  split
  · refine congrArg Except.ok (ext_entries ?_ rfl)
    exact List.filter_map
  · rfl

end Store

namespace Repository

def veil (r : Repository) : Repository := { r with store := r.store.veil }

theorem write_veil (r : Repository) (name : String) (key : Bytes) (time : Instant) :
    r.veil.write name (blank key) time =
      ((r.write name key time).1.map Record.veil, (r.write name key time).2.veil) := by
  have inserted := r.store.insert_veil ⟨name, key, time⟩
  have record : Record.veil ⟨name, key, time⟩ = ⟨name, blank key, time⟩ := rfl
  rw [record] at inserted
  simp only [write, veil]
  cases r.faults.write with
  | some e => rfl
  | none =>
    dsimp only
    rw [inserted]
    cases r.store.insert ⟨name, key, time⟩ <;> rfl

theorem listing_veil (r : Repository) :
    r.veil.listing = r.listing.map (List.map Record.veil) := by
  obtain ⟨store, faults, oldestFirst, writes, lists, deletes⟩ := r
  simp only [listing, veil, Store.list_veil]
  cases faults.list with
  | some e => rfl
  | none =>
    cases oldestFirst with
    | true => exact congrArg Except.ok List.map_reverse.symm
    | false => rfl

theorem delete_veil (r : Repository) (name : String) :
    r.veil.delete name = ((r.delete name).1, (r.delete name).2.veil) := by
  have same (deletes : List String) :
      deleteFault? { r.veil with deletes } name = r.deleteFault? name := rfl
  have same' (deletes : List String) :
      deleteFault? { r with deletes } name = r.deleteFault? name := rfl
  simp only [delete, same, same']
  cases r.deleteFault? name with
  | some e => rfl
  | none =>
    dsimp only [veil]
    rw [Store.delete_veil]
    cases r.store.delete name <;> rfl

end Repository

namespace Snapshot

theorem ofRecord_veil (r : Record) : Key.ofRecord r.veil = (Key.ofRecord r).map Key.veil := by
  have length : r.veil.key.length = r.key.length := length_blank r.key
  unfold Key.ofRecord
  by_cases usable : r.key.length = 32
  · rw [dif_pos usable, dif_pos (length.trans usable)]
    rfl
  · rw [dif_neg usable, dif_neg (length ▸ usable), length]
    rfl

theorem ofRecords_veil (records : List Record) :
    ofRecords (records.map Record.veil) = (ofRecords records).map (List.map Key.veil) := by
  induction records with
  | nil => rfl
  | cons r records ih =>
    rw [List.map_cons, ofRecords, ofRecords, ofRecord_veil, ih]
    cases Key.ofRecord r with
    | error e => rfl
    | ok key => cases ofRecords records <;> rfl

theorem isOutOfOrder_veil :
    ∀ records : List Record, isOutOfOrder (records.map Record.veil) = isOutOfOrder records
  | [] | [_] => rfl
  | a :: b :: rest =>
    congrArg (decide (a.createdAt < b.createdAt) || ·) (isOutOfOrder_veil (b :: rest))

theorem orderEvents_veil (records : List Record) :
    orderEvents (records.map Record.veil) = orderEvents records := by
  unfold orderEvents
  rw [isOutOfOrder_veil]

/-- A listing gives the same keys with the same events, whatever their material is. -/
theorem ofListing_veil (answer : Except StoreError (List Record)) :
    ofListing (answer.map (List.map Record.veil)) =
      ((ofListing answer).1.map (List.map Key.veil), (ofListing answer).2) := by
  cases answer with
  | error e => rfl
  | ok records =>
    simp only [Except.map, ofListing, ofRecords_veil, orderEvents_veil]
    cases ofRecords records with
    | error e => rfl
    | ok keys => cases keys <;> simp [current, Key.veil]

end Snapshot

/-! ## Steps -/

def Rotation.Plan.veil (plan : Rotation.Plan) : Rotation.Plan := { plan with key := blank plan.key }

def Rotation.veil : Rotation → Rotation
  | .writing plan => .writing plan.veil
  | r => r

def Rotation.Progress.veil : Rotation.Progress → Rotation.Progress
  | .awaiting r => .awaiting r.veil
  | .ended answer => .ended answer

def Operation.veil : Operation → Operation
  | .rotation caller r => .rotation caller r.veil
  | .write name key => .write name (blank key)
  | operation => operation

def Progress.veil : Progress → Progress
  | .awaiting operation => .awaiting operation.veil
  | .ended answer => .ended answer

def Environment.veil (env : Environment) : Environment :=
  { env with keys := fun n => blank (env.keys n) }

namespace Service

open Rotation (Plan)

def veil (s : Service) : Service :=
  { s with repository := s.repository.veil, snapshot := s.snapshot.map Key.veil }

variable {env : Environment} {now : Moment} {cancelled : Bool} {s : Service}

theorem drawKey_veil (env : Environment) (s : Service) :
    s.veil.drawKey env.veil = Prod.map (Except.map blank) veil (s.drawKey env) := by
  unfold drawKey
  by_cases fails : s.keysFail = true
  · exact (if_pos fails).trans (by simp only [if_pos fails]; rfl)
  · exact (if_neg fails).trans (by simp only [if_neg fails]; rfl)

/-! ### Refreshes -/

theorem install_veil (answer : Except StoreError (List Record)) (s : Service) :
    s.veil.install (answer.map (List.map Record.veil)) = Prod.map id veil (s.install answer) := by
  unfold install
  rw [Snapshot.ofListing_veil]
  generalize Snapshot.ofListing answer = listed
  obtain ⟨result, events⟩ := listed
  cases result with
  | error e => rfl
  | ok keys => simp [Except.map, report, veil]

theorem startListing_veil (cancelled : Bool) (s : Service) :
    s.veil.startListing cancelled = Prod.map id veil (s.startListing cancelled) := by
  have passes : s.veil.failBeforeList.pass = s.failBeforeList.pass := rfl
  unfold startListing
  rw [passes]
  generalize s.failBeforeList.pass = pass
  obtain ⟨fails, failpoint⟩ := pass
  cases fails with
  | true => rfl
  | false =>
    cases cancelled with
    | true =>
      have given := install_veil (.error (.cancelled .list)) { s with failBeforeList := failpoint }
      exact congrArg (fun step => (some step.1, step.2)) given
    | false => rfl

theorem takeListing_veil (cancelled : Bool) (s : Service) :
    s.veil.takeListing cancelled = (s.takeListing cancelled).map (List.map Record.veil) := by
  cases cancelled with
  | true => rfl
  | false => exact s.repository.listing_veil

theorem endUpdate_veil (claim : Coordinator.Claim) (answer : Except Error Nat) (s : Service) :
    s.veil.endUpdate claim answer = Prod.map id veil (s.endUpdate claim answer) := by
  cases answer <;> rfl

theorem endHook_veil (answer : Except Error Bool) (s : Service) :
    s.veil.endHook answer = (s.endHook answer).veil := by
  cases answer <;> rfl

theorem beginUpdate_veil (env : Environment) (now : Moment) (cancelled : Bool) (s : Service) :
    s.veil.beginUpdate env.veil now cancelled = Prod.map id veil (s.beginUpdate env now cancelled) := by
  rw [beginUpdate_eq, beginUpdate_eq]
  have claims : s.veil.coordinator.claim? env.veil.config.refreshInterval now.elapsed =
    s.coordinator.claim? env.config.refreshInterval now.elapsed := rfl
  rw [claims]
  cases s.coordinator.claim? env.config.refreshInterval now.elapsed with
  | none => rfl
  | some taken =>
    obtain ⟨claim, coordinator⟩ := taken
    have listing : startListing cancelled { s.veil with coordinator } = _ :=
      startListing_veil cancelled { s with coordinator }
    dsimp only
    rw [listing]
    generalize startListing cancelled { s with coordinator } = started
    obtain ⟨answer, t⟩ := started
    cases answer with
    | none => rfl
    | some answer => exact congrArg (fun step => (Sum.inl step.1, step.2)) (endUpdate_veil claim answer t)

theorem runHooks_veil (env : Environment) (now : Moment) (cancelled : Bool) (hooks : List Hook)
    (s : Service) :
    runHooks env.veil now cancelled hooks s.veil = Prod.map id veil (runHooks env now cancelled hooks s) := by
  induction hooks generalizing s with
  | nil => rfl
  | cons hook hooks ih =>
    cases hook with
    | named name => exact ih { s.report [.hookRun name] with recorded := s.recorded ++ [name] }
    | cacheRefresh =>
      have updated : beginUpdate env.veil now cancelled (s.veil.report [.hookRun _]) = _ :=
        beginUpdate_veil env now cancelled (s.report [.hookRun Hook.cacheRefresh.name])
      simp only [runHooks]
      rw [updated]
      generalize beginUpdate env now cancelled (s.report [.hookRun Hook.cacheRefresh.name]) = begun
      obtain ⟨result, t⟩ := begun
      cases result with
      | inr claim => rfl
      | inl answer =>
        have behind := ih (t.endHook answer)
        rw [← endHook_veil] at behind
        exact behind

theorem settleHooks_veil (env : Environment) (now : Moment) (cancelled : Bool) (hooks : List Hook)
    (s : Service) :
    settleHooks env.veil now cancelled hooks s.veil =
      Prod.map Progress.veil veil (settleHooks env now cancelled hooks s) := by
  unfold settleHooks
  rw [runHooks_veil]
  generalize runHooks env now cancelled hooks s = run
  obtain ⟨left, t⟩ := run
  cases left <;> rfl

theorem settleRefresh_veil (env : Environment) (now : Moment) (cancelled : Bool) (purpose : Purpose)
    (answer : Except Error Nat) (s : Service) :
    s.veil.settleRefresh env.veil now cancelled purpose answer =
      Prod.map Progress.veil veil (s.settleRefresh env now cancelled purpose answer) := by
  cases purpose with
  | plain => rfl
  | forced => cases answer <;> rfl
  | update claim => cases answer <;> rfl
  | hook claim rest =>
    have behind := settleHooks_veil env now cancelled rest
      ((s.endUpdate claim answer).2.endHook (s.endUpdate claim answer).1)
    rw [← endHook_veil] at behind
    cases answer <;> exact behind

theorem finishRefresh_veil (env : Environment) (now : Moment) (cancelled : Bool) (purpose : Purpose)
    (answer : Except StoreError (List Record)) (s : Service) :
    s.veil.finishRefresh env.veil now cancelled purpose (answer.map (List.map Record.veil)) =
      Prod.map Progress.veil veil (s.finishRefresh env now cancelled purpose answer) := by
  unfold finishRefresh
  rw [install_veil]
  exact settleRefresh_veil env now cancelled purpose (s.install answer).1 (s.install answer).2

theorem beginRefresh_veil (env : Environment) (now : Moment) (cancelled : Bool) (purpose : Purpose)
    (s : Service) :
    s.veil.beginRefresh env.veil now cancelled purpose =
      Prod.map Progress.veil veil (s.beginRefresh env now cancelled purpose) := by
  unfold beginRefresh
  rw [startListing_veil]
  generalize s.startListing cancelled = started
  obtain ⟨answer, t⟩ := started
  cases answer with
  | none => rfl
  | some answer => exact settleRefresh_veil env now cancelled purpose answer t

/-! ### Rotations -/

theorem beginRotation_veil (plan : Plan) (cancelled : Bool) (s : Service) :
    s.veil.beginRotation plan.veil cancelled =
      Prod.map Rotation.Progress.veil veil (s.beginRotation plan cancelled) := by
  have empty : plan.veil.key.isEmpty = plan.key.isEmpty := isEmpty_blank plan.key
  have bound : plan.veil.bound = plan.bound := rfl
  have name : plan.veil.name = plan.name := rfl
  unfold beginRotation
  rw [empty, bound, name]
  cases checkRetention plan.bound with
  | error e => rfl
  | ok kept =>
    dsimp only
    repeat' split
    all_goals rfl

theorem nextDeletion_veil (outcome : Rotation.Outcome) (listed : Nat) (names : List String)
    (s : Service) :
    s.veil.nextDeletion outcome listed names =
      Prod.map Rotation.Progress.veil veil (s.nextDeletion outcome listed names) := by
  induction names generalizing s with
  | nil => rfl
  | cons stale rest ih =>
    rw [nextDeletion, nextDeletion]
    split
    · exact ih (s.report [.newKeySpared stale])
    · rfl

theorem listWritten_veil (cancelled : Bool) (plan : Plan) (createdAt : Instant) (s : Service) :
    s.veil.listWritten cancelled plan.veil createdAt =
      Prod.map Rotation.Progress.veil veil (s.listWritten cancelled plan createdAt) := by
  cases passes : s.failAfterWrite.pass with
  | mk fails failpoint =>
    have passes' : s.veil.failAfterWrite.pass = (fails, failpoint) := passes
    simp only [listWritten, report, passes, passes']
    cases fails with
    | true => rfl
    | false => cases cancelled <;> rfl

theorem resumeRotation_veil (now : Moment) (cancelled : Bool) (rotation : Rotation) (s : Service) :
    s.veil.resumeRotation now cancelled rotation.veil =
      Prod.map Rotation.Progress.veil veil (s.resumeRotation now cancelled rotation) := by
  cases rotation with
  | writing plan =>
    have written : s.veil.repository.write plan.veil.name plan.veil.key now.time = _ :=
      s.repository.write_veil plan.name plan.key now.time
    unfold resumeRotation
    dsimp only [Rotation.veil]
    rw [written]
    generalize s.repository.write plan.name plan.key now.time = call
    obtain ⟨answer, repository⟩ := call
    cases answer with
    | error e => rfl
    | ok record => exact listWritten_veil cancelled plan record.createdAt { s with repository }
  | listing name bound createdAt =>
    have listing : s.veil.repository.listing = _ := s.repository.listing_veil
    unfold resumeRotation
    dsimp only [Rotation.veil]
    cases cancelled with
    | true => rfl
    | false =>
      simp only [Bool.false_eq_true, if_false]
      rw [listing]
      cases s.repository.listing with
      | error e => rfl
      | ok records =>
        have behind := nextDeletion_veil ⟨name, createdAt, []⟩ records.length
          ((records.drop bound).map (·.name)) s
        show nextDeletion _ (records.map Record.veil).length
          (((records.map Record.veil).drop bound).map (·.name)) s.veil = _
        rw [List.length_map, ← List.map_drop, List.map_map]
        exact behind
  | deleting outcome listed stale rest =>
    have deleted : s.veil.repository.delete stale = _ := s.repository.delete_veil stale
    unfold resumeRotation
    dsimp only [Rotation.veil]
    cases cancelled with
    | true => rfl
    | false =>
      simp only [Bool.false_eq_true, if_false]
      rw [deleted]
      generalize s.repository.delete stale = call
      obtain ⟨answer, repository⟩ := call
      cases answer with
      | error e => rfl
      | ok done =>
        exact nextDeletion_veil { outcome with pruned := outcome.pruned ++ [stale] } listed rest
          (report { s with repository } [.keyPruned stale])

theorem settleRotation_veil (caller : Caller) (step : Rotation.Progress × Service) :
    settleRotation caller (Prod.map Rotation.Progress.veil veil step) =
      Prod.map Progress.veil veil (settleRotation caller step) := by
  obtain ⟨progress, s⟩ := step
  cases progress with
  | awaiting rotation => rfl
  | ended answer => cases caller <;> cases answer <;> rfl

theorem beginGenerated_veil (env : Environment) (cancelled : Bool) (s : Service) :
    s.veil.beginGenerated env.veil cancelled =
      Prod.map Rotation.Progress.veil veil (s.beginGenerated env cancelled) := by
  unfold beginGenerated
  rw [drawKey_veil]
  generalize s.drawKey env = drawn
  obtain ⟨key, t⟩ := drawn
  cases key with
  | error e => rfl
  | ok key =>
    exact beginRotation_veil ⟨env.names t.draws.names, key, env.config.maxBackups⟩ cancelled
      (t.drawName env).2

theorem beginAuthorized_veil (env : Environment) (cancelled : Bool) (access : Access) (s : Service) :
    s.veil.beginAuthorized env.veil cancelled access =
      Prod.map Rotation.Progress.veil veil (s.beginAuthorized env cancelled access) := by
  have same : access.authorize env.veil.config.userAgent env.veil.identities =
      access.authorize env.config.userAgent env.identities := rfl
  unfold beginAuthorized
  rw [same]
  generalize access.authorize env.config.userAgent env.identities = decision
  obtain ⟨answer, events⟩ := decision
  cases answer with
  | error e => rfl
  | ok subject =>
    exact beginGenerated_veil env cancelled (s.report (events ++ [.callerAuthorized subject]))

end Service

/-! ### Requests without key material -/

/-- A request that neither holds key material nor asks for it. -/
def Request.Discreet : Request → Prop
  | .rotateTo _ | .write _ _ | .list => False
  | _ => True

/-- An operation whose answer holds no key material. -/
def Operation.Discreet : Operation → Prop
  | .write _ _ | .list => False
  | _ => True

namespace Service

variable {env : Environment} {now : Moment} {cancelled : Bool} {s : Service} {request : Request}
  {operation next : Operation}

theorem begin_veil (discreet : request.Discreet) (env : Environment) (now : Moment)
    (cancelled : Bool) (s : Service) :
    s.veil.begin env.veil now cancelled request =
      Prod.map Progress.veil veil (s.begin env now cancelled request) := by
  cases request with
  | refresh => exact beginRefresh_veil env now cancelled .plain s
  | forceRefresh => exact beginRefresh_veil env now cancelled .forced s
  | update =>
    simp only [begin]
    rw [beginUpdate_veil]
    generalize s.beginUpdate env now cancelled = begun
    obtain ⟨result, t⟩ := begun
    cases result <;> rfl
  | rotate access =>
    cases access with
    | none =>
      simp only [begin]
      rw [beginGenerated_veil, settleRotation_veil]
    | some access =>
      simp only [begin]
      rw [beginAuthorized_veil, settleRotation_veil]
  | trigger userAgent authorization =>
    have same : requestAccess env.veil userAgent authorization =
        requestAccess env userAgent authorization := rfl
    simp only [begin]
    rw [same, beginAuthorized_veil, settleRotation_veil]
  | afterResponse => exact settleHooks_veil env now cancelled s.hooks s
  | delete name => rfl
  | rotateTo | write | list => exact discreet.elim

theorem resume_veil (discreet : operation.Discreet) (env : Environment) (now : Moment)
    (cancelled : Bool) (s : Service) :
    s.veil.resume env.veil now cancelled operation.veil =
      Prod.map Progress.veil veil (s.resume env now cancelled operation) := by
  cases operation with
  | refresh purpose =>
    simp only [resume, Operation.veil]
    rw [takeListing_veil]
    exact finishRefresh_veil env now cancelled purpose (s.takeListing cancelled) s
  | rotation caller rotation =>
    simp only [resume, Operation.veil]
    rw [resumeRotation_veil, settleRotation_veil]
  | delete name =>
    have deleted : s.veil.repository.delete name = _ := s.repository.delete_veil name
    simp only [resume, Operation.veil]
    rw [deleted]
    rfl
  | write | list => exact discreet.elim

theorem discreet_of_begin (discreet : request.Discreet)
    (h : (s.begin env now cancelled request).1 = .awaiting operation) : operation.Discreet := by
  have starts := starts_of_begin h
  cases starts with
  | write | list => exact discreet.elim
  | _ => trivial

theorem discreet_of_resume (discreet : operation.Discreet)
    (h : (s.resume env now cancelled operation).1 = .awaiting next) : next.Discreet := by
  cases operation with
  | refresh purpose =>
    obtain ⟨purpose, rfl⟩ := refresh_of_settleRefresh h
    trivial
  | rotation caller rotation =>
    obtain ⟨rotation, rfl, -⟩ := awaiting_of_settleRotation h
    trivial
  | delete name => cases h
  | write | list => exact discreet.elim

end Service

/-! ## Worlds -/

theorem Change.apply_veil {change : Change} (other : ∀ record, change ≠ .insert record)
    (s : Service) : change.apply s.veil = (change.apply s).veil := by
  cases change with
  | insert record => exact absurd rfl (other record)
  | _ => rfl

/-- A move that brings no key material along and asks for none, and no tokens. -/
def Move.Discreet : Move → Prop
  | .begin request _ _ => request.Discreet
  | .resume _ _ _ => True
  | .change (.insert _) => False
  | .change _ => True
  | .login _ _ _ | .authenticate _ _ _ | .check _ _ => False

namespace World

variable {env : Environment} {w : World} {move : Move}

def veil (w : World) : World :=
  { w with
    service := w.service.veil
    pending := w.pending.map fun p => (p.1, p.2.veil)
    history := w.history.map fun e => ⟨e.record.veil, e.writer⟩ }

/-- What is seen of a world from outside. -/
structure Seen where
  answers : List (Nat × Answer)
  /-- The requests in progress, and the calls that they await. -/
  awaited : List (Nat × StoreCall)
  log : List Event
  coordinator : Coordinator
  draws : Draws
  recorded : List String
  writes : Nat
  lists : Nat
  deletes : List String
  /-- The names and times of the keys that are stored, from the newest to the oldest. -/
  stored : List (String × Instant)
  /-- The names and times of the keys in use. -/
  inUse : List (String × Instant)

def seen (w : World) : Seen where
  answers := w.answers
  awaited := w.pending.map fun p => (p.1, p.2.awaits)
  log := w.service.log
  coordinator := w.service.coordinator
  draws := w.service.draws
  recorded := w.service.recorded
  writes := w.service.repository.writes
  lists := w.service.repository.lists
  deletes := w.service.repository.deletes
  stored := w.store.list.map fun r => (r.name, r.createdAt)
  inUse := w.service.snapshot.map fun k => (k.name, k.createdAt)

theorem awaits_veil (operation : Operation) : operation.veil.awaits = operation.awaits := by
  cases operation with
  | rotation caller rotation => cases rotation <;> rfl
  | _ => rfl

/-- The veil hides nothing that is seen. -/
theorem seen_veil (w : World) : w.veil.seen = w.seen := by
  have awaited : w.veil.pending.map (fun p => (p.1, p.2.awaits)) =
      w.pending.map fun p => (p.1, p.2.awaits) := by
    simp only [veil, List.map_map, Function.comp_def, awaits_veil]
  have stored : w.veil.store.list.map (fun r => (r.name, r.createdAt)) =
      w.store.list.map fun r => (r.name, r.createdAt) := by
    have list : w.veil.store.list = w.store.list.map Record.veil := w.store.list_veil
    rw [list, List.map_map]
    rfl
  have inUse : w.veil.service.snapshot.map (fun k => (k.name, k.createdAt)) =
      w.service.snapshot.map fun k => (k.name, k.createdAt) := List.map_map
  unfold seen
  rw [awaited, stored, inUse]
  rfl

theorem settle_veil (number : Nat) (w : World) (step : Progress × Service) :
    settle number w.veil (Prod.map Progress.veil Service.veil step) = (settle number w step).veil := by
  obtain ⟨progress, s⟩ := step
  cases progress <;> rfl

theorem remove_veil (w : World) (number : Nat) : w.veil.remove number = (w.remove number).veil := by
  unfold remove veil
  rw [List.filter_map]
  rfl

theorem operation?_veil (w : World) (number : Nat) :
    w.veil.operation? number = (w.operation? number).map Operation.veil := by
  unfold operation? veil
  rw [List.find?_map, Option.map_map, Option.map_map]
  rfl

theorem enter_veil (before : Store) (writer : Option Nat) (w : World) :
    w.veil.enter before.veil writer = (w.enter before writer).veil := by
  have list : w.veil.store.list = w.store.list.map Record.veil := w.store.list_veil
  unfold enter
  by_cases grown : before.next < w.store.next
  · have grown' : before.veil.next < w.veil.store.next := grown
    rw [if_pos grown, if_pos grown', list]
    unfold veil
    simp [← List.map_take, Function.comp_def]
  · have same : ¬ before.veil.next < w.veil.store.next := grown
    rw [if_neg grown, if_neg same]

/-- All operations in progress are discreet. -/
def Discreet (w : World) : Prop := ∀ p ∈ w.pending, p.2.Discreet

theorem discreet_start (service : Service) : (start service).Discreet := by
  intro p hp
  cases hp

theorem discreet_enter {before : Store} {writer : Option Nat} (discreet : w.Discreet) :
    (w.enter before writer).Discreet := by
  unfold enter
  split
  · exact discreet
  · exact discreet

theorem discreet_settle {number : Nat} {step : Progress × Service} (discreet : w.Discreet)
    (next : ∀ operation, step.1 = .awaiting operation → operation.Discreet) :
    (settle number w step).Discreet := by
  obtain ⟨progress, s⟩ := step
  cases progress with
  | ended answer => exact discreet
  | awaiting operation => exact List.forall_mem_cons.mpr ⟨next operation rfl, discreet⟩

/-- To draw the veil and to make a discreet move comes to the same in either order. -/
theorem step_veil (discreet : w.Discreet) (allowed : move.Discreet) (env : Environment) :
    w.veil.step env.veil move = (w.step env move).veil ∧ (w.step env move).Discreet := by
  cases move with
  | begin request cancelled now =>
    have begun := Service.begin_veil allowed env now cancelled w.service
    refine ⟨?_, ?_⟩
    · have counted : ({ w.veil with begun := w.begun + 1 } : World) =
          ({ w with begun := w.begun + 1 } : World).veil := rfl
      show settle w.begun { w.veil with begun := w.begun + 1 }
        (w.service.veil.begin env.veil now cancelled request) = _
      rw [begun, counted, settle_veil]
      rfl
    · exact discreet_settle (w := { w with begun := w.begun + 1 }) discreet
        fun operation h => Service.discreet_of_begin allowed h
  | resume number cancelled now =>
    simp only [step, resume]
    rw [operation?_veil]
    cases found : w.operation? number with
    | none => exact ⟨rfl, discreet⟩
    | some operation =>
      have known : operation.Discreet := discreet _ (mem_pending_of_operation? found)
      have resumed := Service.resume_veil known env now cancelled w.service
      refine ⟨?_, ?_⟩
      · show (settle number (w.veil.remove number)
          (w.service.veil.resume env.veil now cancelled operation.veil)).enter w.store.veil _ = _
        rw [resumed, remove_veil, settle_veil, enter_veil]
      · refine discreet_enter (discreet_settle ?_ ?_)
        · exact fun p hp => discreet p (List.mem_filter.mp hp).1
        · exact fun next h => Service.discreet_of_resume known h
  | change change =>
    have other : ∀ record, change ≠ .insert record := by
      rintro record rfl
      exact allowed
    refine ⟨?_, discreet_enter discreet⟩
    show enter w.store.veil none { w.veil with service := change.apply w.service.veil } = _
    rw [change.apply_veil other]
    exact enter_veil w.store none { w with service := change.apply w.service }
  | login | authenticate | check => exact allowed.elim

theorem after_veil (discreet : w.Discreet) {moves : List Move}
    (allowed : ∀ move ∈ moves, move.Discreet) (env : Environment) :
    w.veil.after env.veil moves = (w.after env moves).veil := by
  induction moves generalizing w with
  | nil => rfl
  | cons move moves ih =>
    obtain ⟨first, rest⟩ := List.forall_mem_cons.mp allowed
    obtain ⟨stepped, discreet⟩ := step_veil discreet first env
    exact (congrArg (after env.veil · moves) stepped).trans (ih discreet rest)

end World

/-- Two services that are alike and draw their keys from sources of the same lengths: after any
moves without key material and tokens nothing that is seen of them differs. -/
theorem seen_of_other_keys (env : Environment) (keys : Nat → Bytes)
    (same : ∀ n, (keys n).length = (env.keys n).length) (service : Service) (moves : List Move)
    (discreet : ∀ move ∈ moves, move.Discreet) :
    ((World.start service).after { env with keys } moves).seen =
      ((World.start service).after env moves).seen := by
  have environments : Environment.veil { env with keys } = env.veil := by
    have blanks : (fun n => blank (keys n)) = fun n => blank (env.keys n) :=
      funext fun n => blank_eq_blank (same n)
    unfold Environment.veil
    rw [blanks]
  have start := World.discreet_start service
  calc ((World.start service).after { env with keys } moves).seen
    _ = ((World.start service).after { env with keys } moves).veil.seen := (World.seen_veil _).symm
    _ = ((World.start service).veil.after env.veil moves).seen := by
      rw [← World.after_veil start discreet, environments]
    _ = ((World.start service).after env moves).veil.seen := by rw [World.after_veil start discreet]
    _ = ((World.start service).after env moves).seen := World.seen_veil _

/-! ## A first key under two generators -/

namespace Concealment

def environment : Environment :=
  .plain .keepsThree fun n => String.ofList (Decimal.digits n)

/-- Another source of keys of the same length. -/
def others (_ : Nat) : Bytes := List.replicate 32 255

/-- A key is rotated to and taken into use. -/
def moves : List Move :=
  [.begin (.rotate none) false .epoch, .goOn 0, .goOn 0, .begin .forceRefresh false .epoch, .goOn 1]

/-- The first name, which is the only one that the moves take, is given as it is. -/
theorem environment_eq : environment =
    .plain .keepsThree fun n => if n = 0 then "0" else String.ofList (Decimal.digits n) := by
  unfold environment
  congr
  funext n
  cases n with
  | zero => exact congrArg String.ofList Decimal.digits_zero
  | succ n => rfl

end Concealment

open Concealment in
/-- The keys in use differ, and nothing that is seen does. -/
theorem seen_of_other_first_key :
    (∀ n, (others n).length = (environment.keys n).length) ∧
      (∀ move ∈ moves, move.Discreet) ∧
      ((World.start .initial).after { environment with keys := others } moves).seen =
        ((World.start .initial).after environment moves).seen ∧
      ((World.start .initial).after { environment with keys := others } moves).service.snapshot ≠
        ((World.start .initial).after environment moves).service.snapshot := by
  have same : ∀ n, (others n).length = (environment.keys n).length := by
    intro n
    simp [others, environment, Environment.plain]
  have discreet : ∀ move ∈ moves, move.Discreet := by
    simp [moves, Move.goOn, Move.Discreet, Request.Discreet]
  refine ⟨same, discreet, seen_of_other_keys environment others same .initial moves discreet, ?_⟩
  intro alike
  have seeds := congrArg (List.map (·.seed)) alike
  have first : ((World.start .initial).after { environment with keys := others } moves
      ).service.snapshot.map (·.seed) = [List.replicate 32 255] := by
    rw [environment_eq]
    cbv
  have second : ((World.start .initial).after environment moves).service.snapshot.map (·.seed) =
      [List.replicate 32 0] := by
    rw [environment_eq]
    cbv
  rw [first, second] at seeds
  revert seeds
  decide

end Keyring
