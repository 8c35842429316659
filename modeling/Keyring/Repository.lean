import Keyring.Store

/-!
# Repositories

A key store as its callers see it: a service that may fail. Its failures are set from outside, and
it counts the calls that reach it, those that fail included.

* `Repository.write` and `Repository.delete` change the store in one step.
* A listing takes two: `Repository.countList` when it is asked for, `Repository.listing` for the
  answer, which is about the store as it is then.
-/

namespace Keyring

/-- The failures that calls are answered with. A failure of deletions may be about one name only. -/
structure Repository.Faults where
  write : Option StoreError
  list : Option StoreError
  delete : Option (Option String × StoreError)
  deriving DecidableEq, Repr

structure Repository where
  store : Store
  faults : Repository.Faults
  /-- Whether listings come in reverse. -/
  oldestFirst : Bool
  writes : Nat
  lists : Nat
  /-- The names that were to be deleted, in the order of the calls. -/
  deletes : List String

namespace Repository

def empty : Repository := ⟨.empty, ⟨none, none, none⟩, false, 0, 0, []⟩

/-- Writes a new record with the time at which this happens. -/
def write (r : Repository) (name : String) (key : Bytes) (time : Instant) :
    Except StoreError Record × Repository :=
  let r := { r with writes := r.writes + 1 }
  match r.faults.write with
  | some e => (.error e, r)
  | none =>
    match r.store.insert ⟨name, key, time⟩ with
    | .error e => (.error e, r)
    | .ok store => (.ok ⟨name, key, time⟩, { r with store })

/-- Counts a listing that has been asked for. -/
def countList (r : Repository) : Repository := { r with lists := r.lists + 1 }

/-- The answer to a listing that ends now. -/
def listing (r : Repository) : Except StoreError (List Record) :=
  match r.faults.list with
  | some e => .error e
  | none => .ok (if r.oldestFirst then r.store.list.reverse else r.store.list)

/-- The failure that the deletion of a name meets. -/
def deleteFault? (r : Repository) (name : String) : Option StoreError :=
  match r.faults.delete with
  | some (none, e) => some e
  | some (some target, e) => if target = name then some e else none
  | none => none

/-- Deletes the record of a name. -/
def delete (r : Repository) (name : String) : Except StoreError Unit × Repository :=
  let r := { r with deletes := r.deletes ++ [name] }
  match r.deleteFault? name with
  | some e => (.error e, r)
  | none =>
    match r.store.delete name with
    | .error e => (.error e, r)
    | .ok store => (.ok (), { r with store })

end Repository

end Keyring
