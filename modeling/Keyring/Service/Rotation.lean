import Keyring.Service.Basic

/-!
# Rotation

A rotation writes a new key and then deletes the oldest ones, so that at most a given number of
keys is kept. It takes a call to the repository for each, and one for a listing in between; whatever
happens to the store between its calls, it never deletes the key that it wrote.

* `Rotation` is a rotation that awaits a call, `Rotation.Progress` what becomes of it in a step.
* `Service.beginRotation` and `Service.resumeRotation` are the steps.
-/

namespace Keyring

namespace Rotation

/-- What is to be written, and how many keys are to be kept. -/
structure Plan where
  name : String
  key : Bytes
  bound : Nat
  deriving DecidableEq, Repr

/-- A rotation that succeeded. -/
structure Outcome where
  name : String
  createdAt : Instant
  /-- The names that were deleted, in this order. -/
  pruned : List String
  deriving DecidableEq

end Rotation

/-- A rotation in progress, by the call that it awaits. -/
inductive Rotation where
  | writing (plan : Rotation.Plan)
  /-- The new key is written. -/
  | listing (name : String) (bound : Nat) (createdAt : Instant)
  /-- `stale` is being deleted, `rest` are the names listed behind it; `listed` counts all. -/
  | deleting (outcome : Rotation.Outcome) (listed : Nat) (stale : String) (rest : List String)
  deriving DecidableEq

namespace Rotation

/-- Either the end of a rotation or the next call that it awaits. -/
inductive Progress where
  | ended (answer : Except Error Outcome)
  | awaiting (rotation : Rotation)

/-- The call that a rotation awaits. -/
def awaits : Rotation → StoreCall
  | writing _ => .write
  | listing _ _ _ => .list
  | deleting _ _ _ _ => .delete

/-- What is shown of the service that rotates keys. -/
def diagnostic : String := Diagnostic.record "KeyRotationService" [] true

end Rotation

namespace Service

open Rotation

/-- Goes on to the next name that is past the bound. The new key is spared wherever it is listed. -/
def nextDeletion (outcome : Outcome) (listed : Nat) : List String → Service → Progress × Service
  | [], s =>
    (.ended (.ok outcome),
      s.report [.rotationComplete (listed - outcome.pruned.length) outcome.pruned.length])
  | stale :: rest, s =>
    if stale = outcome.name then nextDeletion outcome listed rest (s.report [.newKeySpared stale])
    else (.awaiting (.deleting outcome listed stale rest), s)

/-- Ends a deletion that failed. -/
def failDeletion (stale : String) (e : StoreError) (s : Service) : Progress × Service :=
  (.ended (.error (.keyStorage .delete e)), s.report [.pruneFailed stale e])

/-- Asks for the listing behind a write. -/
def listWritten (cancelled : Bool) (plan : Plan) (createdAt : Instant) (s : Service) :
    Progress × Service :=
  let s := s.report [.keyRotated plan.name]
  let (fails, failpoint) := s.failAfterWrite.pass
  let s := { s with failAfterWrite := failpoint }
  if fails then
    (.ended (.error (.keyStorage .list (.internal "injected failure after key write" none))), s)
  else if cancelled then (.ended (.error (.keyStorage .list (.cancelled .list))), s)
  else
    (.awaiting (.listing plan.name plan.bound createdAt),
      { s with repository := s.repository.countList })

/-- Begins a rotation: the first rule that the plan breaks is reported. -/
def beginRotation (plan : Plan) (cancelled : Bool) (s : Service) : Progress × Service :=
  match checkRetention plan.bound with
  | .error e => (.ended (.error e), s)
  | .ok () =>
    if plan.key.isEmpty then (.ended (.error (.invalid .emptyKey)), s)
    else if plan.name = "" then (.ended (.error (.invalid .emptyKeyName)), s)
    else if cancelled then (.ended (.error (.keyStorage .write (.cancelled .write))), s)
    else (.awaiting (.writing plan), s)

/-- The call that a rotation awaits happens. A write is made even if the caller has given up. -/
def resumeRotation (now : Moment) (cancelled : Bool) (rotation : Rotation) (s : Service) :
    Progress × Service :=
  match rotation with
  | .writing plan =>
    match s.repository.write plan.name plan.key now.time with
    | (.error e, repository) => (.ended (.error (.keyStorage .write e)), { s with repository })
    | (.ok record, repository) =>
      listWritten cancelled plan record.createdAt { s with repository }
  | .listing name bound createdAt =>
    match if cancelled then .error (.cancelled .list) else s.repository.listing with
    | .error e => (.ended (.error (.keyStorage .list e)), s)
    | .ok records =>
      s.nextDeletion ⟨name, createdAt, []⟩ records.length ((records.drop bound).map (·.name))
  | .deleting outcome listed stale rest =>
    if cancelled then s.failDeletion stale (.cancelled .delete)
    else
      match s.repository.delete stale with
      | (.error e, repository) => failDeletion stale e { s with repository }
      | (.ok (), repository) =>
        (report { s with repository } [.keyPruned stale]).nextDeletion
          { outcome with pruned := outcome.pruned ++ [stale] } listed rest

end Service

end Keyring
