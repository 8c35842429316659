import Keyring.Error
import Keyring.Record

/-!
# The key store

Records in memory, each with a ticket that says when it was put in. Names are distinct. What counts
as newest is the order of the tickets, whatever the times in the records say.

* `Store.insert` puts a record in, `Store.delete` takes one out by its name.
* `Store.list` gives the records from the newest to the oldest: `list_of_insert` and
  `list_of_delete` say what becomes of it, `list_eq` that it is the reverse of the entries.
-/

namespace Keyring

/-- A record and the number of records that were put in before it. -/
structure Store.Entry where
  ticket : Nat
  record : Record
  deriving DecidableEq

/-- Entries in the order of their tickets; `next` is the ticket of the record that comes next. -/
structure Store where
  entries : List Store.Entry
  next : Nat
  increasing : entries.Pairwise fun a b => a.ticket < b.ticket
  below_next : ∀ e ∈ entries, e.ticket < next
  distinct : (entries.map fun e => e.record.name).Nodup

namespace Store

def empty : Store := ⟨[], 0, .nil, by simp, by simp⟩

/-- Whether a record of this name is stored. -/
def contains (s : Store) (name : String) : Bool := s.entries.any fun e => e.record.name == name

theorem contains_iff {s : Store} {name : String} :
    s.contains name = true ↔ name ∈ s.entries.map fun e => e.record.name := by
  simp [contains]

/-- Puts a record in as the newest. A name can be taken only once. -/
def insert (s : Store) (r : Record) : Except StoreError Store :=
  if h : s.contains r.name then .error (.conflict r.name)
  else .ok {
    entries := s.entries ++ [⟨s.next, r⟩]
    next := s.next + 1
    increasing := by
      refine List.pairwise_append.mpr ⟨s.increasing, by simp, ?_⟩
      intro a ha b hb
      rw [List.mem_singleton.mp hb]
      exact s.below_next a ha
    below_next := by
      intro e he
      rcases List.mem_append.mp he with he | he
      · have := s.below_next e he
        omega
      · rw [List.mem_singleton.mp he]
        exact Nat.lt_succ_self _
    distinct := by
      rw [List.map_append, List.nodup_append]
      refine ⟨s.distinct, by simp, ?_⟩
      intro a ha b hb hab
      subst hab
      rw [List.map_cons, List.map_nil, List.mem_singleton] at hb
      exact h (contains_iff.mpr (hb ▸ ha)) }

/-- Takes out the record of a name, which has to be there. -/
def delete (s : Store) (name : String) : Except StoreError Store :=
  if s.contains name then .ok {
    entries := s.entries.filter fun e => e.record.name != name
    next := s.next
    increasing := s.increasing.filter _
    below_next := fun e he => s.below_next e (List.mem_filter.mp he).1
    distinct := s.distinct.sublist (List.filter_sublist.map _) }
  else .error (.notFound name)

/-- The records, from the newest to the oldest. -/
def list (s : Store) : List Record :=
  (s.entries.mergeSort fun a b => b.ticket ≤ a.ticket).map (·.record)

/-- The names of the records, from the newest to the oldest. -/
def names (s : Store) : List String := s.list.map (·.name)

/-- The number of records. -/
def size (s : Store) : Nat := s.entries.length

/-! ## The listing -/

theorem eq_of_mem_of_ticket_eq {s : Store} {a b : Entry} (ha : a ∈ s.entries)
    (hb : b ∈ s.entries) (h : a.ticket = b.ticket) : a = b := by
  obtain ⟨i, hi, rfl⟩ := List.getElem_of_mem ha
  obtain ⟨j, hj, rfl⟩ := List.getElem_of_mem hb
  rcases Nat.lt_trichotomy i j with hij | hij | hij
  · exact absurd h (Nat.ne_of_lt (List.pairwise_iff_getElem.mp s.increasing i j hi hj hij))
  · subst hij
    rfl
  · exact absurd h.symm (Nat.ne_of_lt (List.pairwise_iff_getElem.mp s.increasing j i hj hi hij))

/-- Sorting by ticket turns the entries around. -/
theorem list_eq (s : Store) : s.list = s.entries.reverse.map (·.record) := by
  refine congrArg _ (List.Perm.eq_of_pairwise ?_ (List.pairwise_mergeSort ?_ ?_ s.entries) ?_ ?_)
  · intro a b ha hb hab hba
    have ha : a ∈ s.entries := (List.mergeSort_perm s.entries _).mem_iff.mp ha
    exact eq_of_mem_of_ticket_eq ha (List.mem_reverse.mp hb)
      (Nat.le_antisymm (of_decide_eq_true hba) (of_decide_eq_true hab))
  · intro a b c hab hbc
    have hab := of_decide_eq_true hab
    have hbc := of_decide_eq_true hbc
    exact decide_eq_true (Nat.le_trans hbc hab)
  · intro a b
    rcases Nat.le_total a.ticket b.ticket with h | h <;> simp [h]
  · exact List.pairwise_reverse.mpr
      (s.increasing.imp fun h => decide_eq_true (Nat.le_of_lt h))
  · exact (List.mergeSort_perm s.entries _).trans (List.reverse_perm s.entries).symm

@[simp] theorem list_empty : empty.list = [] := by rw [list_eq]; rfl

theorem names_eq (s : Store) : s.names = (s.entries.map fun e => e.record.name).reverse := by
  rw [names, list_eq, List.map_map, List.map_reverse]
  rfl

theorem nodup_names (s : Store) : s.names.Nodup := by
  rw [names_eq]
  exact List.pairwise_reverse.mpr (s.distinct.imp Ne.symm)

theorem contains_iff_mem_names {s : Store} {name : String} :
    s.contains name = true ↔ name ∈ s.names := by
  rw [names_eq, List.mem_reverse, contains_iff]

/-- A record that is put in comes first. -/
theorem list_of_insert {s t : Store} {r : Record} (h : s.insert r = .ok t) :
    t.list = r :: s.list := by
  unfold insert at h
  split at h
  · cases h
  · cases h
    simp [list_eq]

theorem insert_eq_error_iff {s : Store} {r : Record} {e : StoreError} :
    s.insert r = .error e ↔ s.contains r.name = true ∧ e = .conflict r.name := by
  unfold insert
  split
  · rename_i h
    simp [h, eq_comm]
  · rename_i h
    simp [h]

theorem not_mem_names_of_insert {s t : Store} {r : Record} (h : s.insert r = .ok t) :
    r.name ∉ s.names := by
  intro taken
  have conflict := insert_eq_error_iff.mpr ⟨contains_iff_mem_names.mpr taken, rfl⟩
  rw [h] at conflict
  cases conflict

/-- Only the record of the name goes. -/
theorem list_of_delete {s t : Store} {name : String} (h : s.delete name = .ok t) :
    t.list = s.list.filter fun r => r.name != name := by
  unfold delete at h
  split at h
  · cases h
    rw [list_eq, list_eq, ← List.filter_reverse, List.filter_map]
    rfl
  · cases h

theorem delete_eq_error_iff {s : Store} {name : String} {e : StoreError} :
    s.delete name = .error e ↔ s.contains name = false ∧ e = .notFound name := by
  unfold delete
  split
  · rename_i h
    simp [h]
  · rename_i h
    simp [h, eq_comm]

/-! ## The next ticket -/

theorem next_of_insert {s t : Store} {r : Record} (h : s.insert r = .ok t) :
    t.next = s.next + 1 := by
  unfold insert at h
  split at h
  · cases h
  · cases h
    rfl

theorem next_of_delete {s t : Store} {name : String} (h : s.delete name = .ok t) :
    t.next = s.next := by
  unfold delete at h
  split at h
  · cases h
    rfl
  · cases h

end Store

end Keyring
