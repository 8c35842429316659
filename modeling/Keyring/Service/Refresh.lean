import Keyring.Service.Basic

/-!
# Refreshing the keys

A refresh asks the repository for a listing and replaces the snapshot by what it gets. It is asked
for directly, or through the refresh window, on its own or as a hook after a response.

* `Service.startListing` asks for the listing, `Service.takeListing` is the answer, and
  `Service.install` takes the keys that were listed into use.
* `Service.beginUpdate` and `Service.endUpdate` do so within the refresh window.
* `Service.runHooks` runs hooks one after another. What they record is shared by all responses: one
  that ends takes it all (`Service.takeRecorded`).
-/

namespace Keyring.Service

/-! ## The listing -/

/-- The answer to a listing, unless the caller has given up. -/
def takeListing (cancelled : Bool) (s : Service) : Except StoreError (List Record) :=
  if cancelled then .error (.cancelled .list) else s.repository.listing

/-- Takes the keys that were listed into use: a snapshot replaces the one before as a whole. The
listing need not be of this moment. -/
def install (answer : Except StoreError (List Record)) (s : Service) :
    Except Error Nat × Service :=
  match Snapshot.ofListing answer with
  | (.error e, events) => (.error e, s.report events)
  | (.ok keys, events) => (.ok keys.length, { s.report events with snapshot := keys })

/-- Asks for a listing, which counts unless the caller has given up before; `none` says that the
answer is awaited. -/
def startListing (cancelled : Bool) (s : Service) : Option (Except Error Nat) × Service :=
  let (fails, failpoint) := s.failBeforeList.pass
  let s := { s with failBeforeList := failpoint }
  if fails then
    (some (.error (.keyStorage .list (.internal "injected failure before key list" none))), s)
  else if cancelled then
    let (answer, s) := s.install (.error (.cancelled .list))
    (some answer, s)
  else (none, { s with repository := s.repository.countList })

/-! ## Within the refresh window -/

/-- Settles a refresh for which the window was claimed. -/
def endUpdate (claim : Coordinator.Claim) (answer : Except Error Nat) (s : Service) :
    Except Error Bool × Service :=
  match answer with
  | .ok _ => (.ok true, { s with coordinator := s.coordinator.succeed })
  | .error e =>
    (.error e, { s with coordinator := s.coordinator.giveBack claim }.report [.refreshFailed e])

/-- Refreshes the keys unless they are fresh: an answer, or a claim while a listing is awaited. The
window is looked at twice, before and when it is claimed. -/
def beginUpdate (env : Environment) (now : Moment) (cancelled : Bool) (s : Service) :
    (Except Error Bool ⊕ Coordinator.Claim) × Service :=
  if s.coordinator.isFresh env.config.refreshInterval now.elapsed then
    (.inl (.ok false), s.report [.cacheFresh])
  else
    match s.coordinator.claim? env.config.refreshInterval now.elapsed with
    | none => (.inl (.ok false), s.report [.refreshedMeanwhile])
    | some (claim, coordinator) =>
      match startListing cancelled { s with coordinator } with
      | (none, s) => (.inr claim, s)
      | (some answer, s) =>
        let (answer, s) := s.endUpdate claim answer
        (.inl answer, s)

/-- Nothing comes between the two looks at the window in one step: the second one finds it as it
was. -/
theorem beginUpdate_eq (env : Environment) (now : Moment) (cancelled : Bool) (s : Service) :
    s.beginUpdate env now cancelled =
      match s.coordinator.claim? env.config.refreshInterval now.elapsed with
      | none => (.inl (.ok false), s.report [.cacheFresh])
      | some (claim, coordinator) =>
        match startListing cancelled { s with coordinator } with
        | (none, s) => (.inr claim, s)
        | (some answer, s) => (.inl (s.endUpdate claim answer).1, (s.endUpdate claim answer).2) := by
  unfold beginUpdate Coordinator.claim?
  split <;> rfl

/-- Settles a refresh that was made without a claim. -/
def endForced (now : Moment) (answer : Except Error Nat) (s : Service) :
    Except Error Nat × Service :=
  match answer with
  | .ok count => (.ok count, { s with coordinator := s.coordinator.force now.elapsed })
  | .error e => (.error e, { s with coordinator := s.coordinator.fail })

/-! ## Hooks -/

/-- What a hook does about a refresh that failed. -/
def endHook (answer : Except Error Bool) (s : Service) : Service :=
  match answer with
  | .ok _ => s
  | .error e => s.report [.hookRefreshFailed e]

/-- Runs hooks in order: `none` if all have run, or the claim of a hook that awaits a listing and the
hooks behind it. -/
def runHooks (env : Environment) (now : Moment) (cancelled : Bool) :
    List Hook → Service → Option (Coordinator.Claim × List Hook) × Service
  | [], s => (none, s)
  | hook :: rest, s =>
    let s := s.report [.hookRun hook.name]
    match hook with
    | .named name => runHooks env now cancelled rest { s with recorded := s.recorded ++ [name] }
    | .cacheRefresh =>
      match s.beginUpdate env now cancelled with
      | (.inr claim, s) => (some (claim, rest), s)
      | (.inl answer, s) => runHooks env now cancelled rest (s.endHook answer)

/-- Takes all names that hooks have recorded by now, whichever response they ran after. -/
def takeRecorded (s : Service) : List String × Service := (s.recorded, { s with recorded := [] })

end Keyring.Service
