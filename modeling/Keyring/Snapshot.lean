import Keyring.Event
import Keyring.Key

/-!
# Snapshots of the keys

The keys in use, as one listing of the repository gave them: the first signs new tokens, and tokens
are checked with all of them. A snapshot is replaced as a whole or not at all.

* `Snapshot.ofListing` makes a snapshot of an answer to a listing, and says what there is to log.
-/

namespace Keyring

/-- Keys from the newest to the oldest. -/
abbrev Snapshot := List Key

namespace Snapshot

/-- The key that signs new tokens. -/
def current (s : Snapshot) : Option Key := s.head?

/-- What tokens are checked with. -/
def publicKeys (scheme : Scheme) (s : Snapshot) : List PublicKey := s.map (·.publicKey scheme)

def names (s : Snapshot) : List String := s.map (·.name)

/-- Whether some record is listed directly before one of a later time. -/
def isOutOfOrder : List Record → Bool
  | a :: b :: rest => decide (a.createdAt < b.createdAt) || isOutOfOrder (b :: rest)
  | _ => false

/-- The keys of the records, or the name of the first unusable one and what is wrong with it. -/
def ofRecords : List Record → Except (String × Error) Snapshot
  | [] => .ok []
  | r :: rest =>
    match Key.ofRecord r with
    | .error e => .error (r.name, e)
    | .ok key =>
      match ofRecords rest with
      | .error e => .error e
      | .ok keys => .ok (key :: keys)

/-- The warning about records that are out of order. -/
def orderEvents (records : List Record) : List Event :=
  if isOutOfOrder records then [.outOfOrder] else []

/-- The snapshot of an answer to a listing, with the events that report on it. The keys keep the
order of the listing. -/
def ofListing : Except StoreError (List Record) → Except Error Snapshot × List Event
  | .error e => (.error (.keyStorage .list e), [.listFailed e])
  | .ok records =>
    match ofRecords records with
    | .error (name, e) => (.error e, orderEvents records ++ [.unusableKey name e])
    | .ok keys =>
      (.ok keys, orderEvents records ++ [.cacheRefreshed keys.length (keys.current.map (·.name))])

/-- The snapshot as shown in diagnostics: the names of its keys. -/
def diagnostic (s : Snapshot) : String :=
  Diagnostic.record "KeyCache" [("keys", Diagnostic.list (s.names.map Diagnostic.quoted))] true

end Snapshot

end Keyring
