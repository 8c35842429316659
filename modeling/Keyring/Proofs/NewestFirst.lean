import Keyring.Store

/-!
# A store is a list, newest first

Seen from outside, a store is a list of records of distinct names. A record that is put in comes first,
one that is taken out leaves the others where they are, and a call that fails leaves everything as it
is. Neither the times in the records nor records of the past show.

* `Store.answer` answers a call as a store, `Store.answerOfList` as a list of records.
* `answer_list` relates the two for one call, and `answers_newest_first` for any sequence of calls.
-/

namespace Keyring

namespace Store

/-- What is asked of a store. -/
inductive Call where
  /-- Writes a key, with the time at which this happens. -/
  | write (name : String) (key : Bytes) (time : Instant)
  | insert (record : Record)
  | delete (name : String)
  | list
  | names

inductive Reply where
  | written (answer : Except StoreError Record)
  | inserted (answer : Except StoreError Unit)
  | deleted (answer : Except StoreError Unit)
  | listed (records : List Record)
  | named (names : List String)

/-- A call through one of the clones of a store, which all share what is stored. -/
structure Request where
  clone : Nat
  call : Call

namespace Reply

def IsError : Reply → Prop
  | .written (.error _) | .inserted (.error _) | .deleted (.error _) => True
  | _ => False

/-- Whether a record was put in. -/
def isPut : Reply → Bool
  | .written (.ok _) | .inserted (.ok _) => true
  | _ => false

end Reply

/-- What a store answers to a call, and the store behind it. -/
def answer (s : Store) : Call → Reply × Store
  | .write name key time =>
    match s.insert ⟨name, key, time⟩ with
    | .ok t => (.written (.ok ⟨name, key, time⟩), t)
    | .error e => (.written (.error e), s)
  | .insert record =>
    match s.insert record with
    | .ok t => (.inserted (.ok ()), t)
    | .error e => (.inserted (.error e), s)
  | .delete name =>
    match s.delete name with
    | .ok t => (.deleted (.ok ()), t)
    | .error e => (.deleted (.error e), s)
  | .list => (.listed s.list, s)
  | .names => (.named s.names, s)

/-- What a list of records answers to a call, and the list behind it. -/
def answerOfList (records : List Record) : Call → Reply × List Record
  | .write name key time =>
    if name ∈ records.map (·.name) then (.written (.error (.conflict name)), records)
    else (.written (.ok ⟨name, key, time⟩), ⟨name, key, time⟩ :: records)
  | .insert record =>
    if record.name ∈ records.map (·.name) then
      (.inserted (.error (.conflict record.name)), records)
    else (.inserted (.ok ()), record :: records)
  | .delete name =>
    if name ∈ records.map (·.name) then
      (.deleted (.ok ()), records.eraseP fun r => r.name == name)
    else (.deleted (.error (.notFound name)), records)
  | .list => (.listed records, records)
  | .names => (.named (records.map (·.name)), records)

/-- What is answered to calls that are made one after the other, and what they leave. -/
def serve {σ : Type} (answer : σ → Call → Reply × σ) : σ → List Request → List Reply × σ
  | s, [] => ([], s)
  | s, request :: requests =>
    let (reply, s) := answer s request.call
    let (replies, s) := serve answer s requests
    (reply :: replies, s)

/-! ## One call -/

variable {s t : Store}

/-- A record is refused if its name is stored, and comes first otherwise. -/
theorem insert_cases (s : Store) (r : Record) :
    (r.name ∈ s.list.map (·.name) ∧ s.insert r = .error (.conflict r.name)) ∨
      (r.name ∉ s.list.map (·.name) ∧ ∃ t, s.insert r = .ok t ∧ t.list = r :: s.list) := by
  cases inserted : s.insert r with
  | error e =>
    obtain ⟨taken, rfl⟩ := insert_eq_error_iff.mp inserted
    exact Or.inl ⟨contains_iff_mem_names.mp taken, rfl⟩
  | ok t =>
    refine Or.inr ⟨fun taken => ?_, t, rfl, list_of_insert inserted⟩
    have refused := insert_eq_error_iff.mpr ⟨contains_iff_mem_names.mpr taken, rfl⟩
    rw [refused] at inserted
    cases inserted

/-- As names are distinct, only one record goes. -/
theorem eraseP_list_of_delete {name : String} (h : s.delete name = .ok t) :
    t.list = s.list.eraseP fun r => r.name == name := by
  rw [list_of_delete h]
  have distinct : (s.list.map (·.name)).Nodup := s.nodup_names
  revert distinct
  generalize s.list = records
  intro distinct
  induction records with
  | nil => rfl
  | cons r records ih =>
    obtain ⟨fresh, others⟩ := List.nodup_cons.mp distinct
    by_cases same : r.name = name
    · have kept : ∀ r' ∈ records, (r'.name != name) = true := by
        intro r' hr'
        refine bne_iff_ne.mpr fun same' => fresh ?_
        exact List.mem_map.mpr ⟨r', hr', same'.trans same.symm⟩
      rw [List.eraseP_cons_of_pos (by simpa using same),
        List.filter_cons_of_neg (by simpa using same), List.filter_eq_self.mpr kept]
    · rw [List.eraseP_cons_of_neg (by simpa using same),
        List.filter_cons_of_pos (by simpa using same), ih others]

/-- A name that is stored goes with its record only, and any other is refused. -/
theorem delete_cases (s : Store) (name : String) :
    (name ∉ s.list.map (·.name) ∧ s.delete name = .error (.notFound name)) ∨
      (name ∈ s.list.map (·.name) ∧
        ∃ t, s.delete name = .ok t ∧ t.list = s.list.eraseP fun r => r.name == name) := by
  cases deleted : s.delete name with
  | error e =>
    obtain ⟨absent, rfl⟩ := delete_eq_error_iff.mp deleted
    refine Or.inl ⟨fun stored => ?_, rfl⟩
    rw [contains_iff_mem_names.mpr stored] at absent
    cases absent
  | ok t =>
    refine Or.inr ⟨?_, t, rfl, eraseP_list_of_delete deleted⟩
    cases stored : s.contains name with
    | true => exact contains_iff_mem_names.mp stored
    | false =>
      rw [delete_eq_error_iff.mpr ⟨stored, rfl⟩] at deleted
      cases deleted

/-- A store answers as its list does, and its list is then what the list has become. -/
theorem answer_list (s : Store) (call : Call) :
    (s.answer call).1 = (answerOfList s.list call).1 ∧
      (s.answer call).2.list = (answerOfList s.list call).2 := by
  cases call with
  | write name key time =>
    rcases s.insert_cases ⟨name, key, time⟩ with ⟨taken, refused⟩ | ⟨free, t, inserted, list⟩
    · rw [answer, refused, answerOfList, if_pos taken]
      exact ⟨rfl, rfl⟩
    · rw [answer, inserted, answerOfList, if_neg free]
      exact ⟨rfl, list⟩
  | insert record =>
    rcases s.insert_cases record with ⟨taken, refused⟩ | ⟨free, t, inserted, list⟩
    · rw [answer, refused, answerOfList, if_pos taken]
      exact ⟨rfl, rfl⟩
    · rw [answer, inserted, answerOfList, if_neg free]
      exact ⟨rfl, list⟩
  | delete name =>
    rcases s.delete_cases name with ⟨absent, refused⟩ | ⟨stored, t, deleted, list⟩
    · rw [answer, refused, answerOfList, if_neg absent]
      exact ⟨rfl, rfl⟩
    · rw [answer, deleted, answerOfList, if_pos stored]
      exact ⟨rfl, list⟩
  | list => exact ⟨rfl, rfl⟩
  | names => exact ⟨rfl, rfl⟩

theorem answer_of_isError {call : Call} (h : (s.answer call).1.IsError) :
    (s.answer call).2 = s := by
  revert h
  cases call with
  | write | insert | delete =>
    rw [answer]
    split
    · exact False.elim
    · exact fun _ => rfl
  | list | names => exact False.elim

/-- Tickets count the records that are put in. -/
theorem next_answer (s : Store) (call : Call) :
    (s.answer call).2.next = s.next + (s.answer call).1.isPut.toNat := by
  cases call with
  | write | insert =>
    rw [answer]
    split
    · rename_i inserted
      exact next_of_insert inserted
    · rfl
  | delete =>
    rw [answer]
    split
    · rename_i deleted
      exact next_of_delete deleted
    · rfl
  | list | names => rfl

/-! ## Sequences of calls -/

theorem serve_list (s : Store) (requests : List Request) :
    serve answerOfList s.list requests =
      ((serve answer s requests).1, (serve answer s requests).2.list) := by
  induction requests generalizing s with
  | nil => rfl
  | cons request requests ih =>
    obtain ⟨reply, behind⟩ := s.answer_list request.call
    simp only [serve]
    rw [← behind, ← reply, ih]

theorem next_serve (s : Store) (requests : List Request) :
    (serve answer s requests).2.next =
      s.next + ((serve answer s requests).1.filter (·.isPut)).length := by
  induction requests generalizing s with
  | nil => rfl
  | cons request requests ih =>
    have first := next_answer s request.call
    have others := ih (s.answer request.call).2
    simp only [serve]
    rw [others, first, List.filter_cons]
    split
    · rename_i put
      rw [put, List.length_cons, Bool.toNat_true]
      omega
    · rename_i other
      rw [Bool.eq_false_iff.mpr other, Bool.toNat_false]
      rfl

end Store

open Store in
/-- Any sequence of calls through clones of a new store is answered as by a list of records: what is put
in comes first unless its name is taken, what is deleted goes by itself unless it is not there, and
listings give the list. The names are distinct, a call that fails makes no difference to the calls
behind it, and tickets count the records that were put in: 64 bits hold them as long as there were
fewer than `2^64`. -/
theorem answers_newest_first (requests : List Request) :
    ∃ replies s, serve answer .empty requests = (replies, s) ∧
      serve answerOfList [] requests = (replies, s.list) ∧ s.names.Nodup ∧
        (∀ clone call later, (s.answer call).1.IsError →
          (serve answer s (⟨clone, call⟩ :: later)).1 =
            (s.answer call).1 :: (serve answer s later).1) ∧
          ∀ e ∈ s.entries, e.ticket < (replies.filter (·.isPut)).length := by
  have listed := serve_list .empty requests
  rw [list_empty] at listed
  refine ⟨_, _, rfl, listed, nodup_names _, ?_, ?_⟩
  · intro clone call later failed
    simp only [serve]
    rw [answer_of_isError failed]
  · intro e he
    have count := next_serve .empty requests
    have new : empty.next = 0 := rfl
    rw [new, Nat.zero_add] at count
    rw [← count]
    exact below_next _ e he

end Keyring
