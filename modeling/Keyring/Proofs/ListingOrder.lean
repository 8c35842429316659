import Keyring.Proofs.Chronicle
import Keyring.Proofs.Expiry

/-!
# The order of listings

A repository is trusted to list its records from the newest on, and the first one signs. A refresh
compares each record only with the next one and warns of a later time; as instants are in a linear
order, leap seconds among them, it so finds any two records that are listed the wrong way round.

* `Snapshot.Disordered` says that there are two such records, and `isOutOfOrder_iff` that the
  comparison of neighbours finds them.
* `warned_iff_disordered` is about what a refresh logs, and about the order of the keys that it takes
  into use.
-/

namespace Keyring

namespace Snapshot

variable {records : List Record}

/-- Some record is listed before one of a later time, with any others in between. -/
def Disordered (records : List Record) : Prop :=
  ∃ a b, [a, b].Sublist records ∧ a.createdAt < b.createdAt

theorem isOutOfOrder_eq_false_iff :
    isOutOfOrder records = false ↔ records.IsChain fun a b => b.createdAt ≤ a.createdAt := by
  induction records with
  | nil => simp [isOutOfOrder]
  | cons a rest ih =>
    cases rest with
    | nil => simp [isOutOfOrder]
    | cons b rest =>
      rw [isOutOfOrder, Bool.or_eq_false_iff, decide_eq_false_iff_not, ih, List.isChain_cons_cons]
      exact Iff.rfl

/-- Neighbours in order put all records in order. -/
theorem isOutOfOrder_iff : isOutOfOrder records = true ↔ Disordered records := by
  have : IsTrans Record fun a b => b.createdAt ≤ a.createdAt :=
    ⟨fun _ _ _ h h' => Instant.le_trans h' h⟩
  have ordered : isOutOfOrder records = false ↔
      ∀ a b, [a, b].Sublist records → b.createdAt ≤ a.createdAt := by
    rw [isOutOfOrder_eq_false_iff, List.isChain_iff_pairwise, List.pairwise_iff_forall_sublist]
  rw [← Bool.not_eq_false, ordered]
  constructor
  · intro disordered
    simp only [not_forall] at disordered
    obtain ⟨a, b, listed, later⟩ := disordered
    exact ⟨a, b, listed, not_not.mp later⟩
  · rintro ⟨a, b, listed, later⟩ ordered
    exact ordered a b listed later

theorem outOfOrder_mem_orderEvents_iff :
    .outOfOrder ∈ orderEvents records ↔ Disordered records := by
  rw [← isOutOfOrder_iff, orderEvents]
  split <;> simp_all

end Snapshot

open Snapshot (Disordered)

/-- No other event reads like the warning about the order. -/
theorem Event.message_eq_iff {e : Event} :
    e.message = "repository returned keys out of creation order; using repository order" ↔
      e = .outOfOrder := by
  cases e <;> simp [message]

namespace Service

/-- Behind the warning, if there is one, a refresh logs how it has ended. -/
theorem log_install_ok (records : List Record) (s : Service) :
    ∃ e : Event, e ≠ .outOfOrder ∧
      (s.install (.ok records)).2.log = s.log ++ (Snapshot.orderEvents records ++ [e]) := by
  cases taken : Snapshot.ofRecords records with
  | error unusable =>
    refine ⟨.unusableKey unusable.1 unusable.2, by simp, ?_⟩
    simp [install, Snapshot.ofListing, taken, report]
  | ok keys =>
    refine ⟨.cacheRefreshed keys.length (keys.current.map (·.name)), by simp, ?_⟩
    simp [install, Snapshot.ofListing, taken, report]

theorem snapshot_install_ok (records : List Record) (s : Service) :
    (∃ e, (s.install (.ok records)).1 = .error e ∧
        (s.install (.ok records)).2.snapshot = s.snapshot) ∨
      ((s.install (.ok records)).1 = .ok records.length ∧
        (s.install (.ok records)).2.snapshot.Of records) := by
  cases taken : Snapshot.ofRecords records with
  | error unusable =>
    left
    simp [install, Snapshot.ofListing, taken, report]
  | ok keys =>
    have image := Snapshot.of_ofRecords taken
    right
    simpa [install, Snapshot.ofListing, taken, image.length_eq] using image

end Service

/-- A refresh, whatever it is for, warns that its listing is out of order exactly if some record is
listed before one of a later time. In any case it takes all keys into use in the order of the listing,
or none. -/
theorem warned_iff_disordered (answer : Except StoreError (List Record)) (s : Service) :
    (∃ events, (s.install answer).2.log = s.log ++ events ∧
      ((∃ e ∈ events, e.message =
          "repository returned keys out of creation order; using repository order") ↔
        ∃ records, answer = .ok records ∧ Disordered records)) ∧
    ((∃ e, (s.install answer).1 = .error e ∧ (s.install answer).2.snapshot = s.snapshot) ∨
      ∃ records, answer = .ok records ∧ (s.install answer).1 = .ok records.length ∧
        (s.install answer).2.snapshot.Of records) ∧
    ∀ env now cancelled purpose,
      answer = (if cancelled then .error (.cancelled .list) else s.repository.listing) →
        s.resume env now cancelled (.refresh purpose) =
          (s.install answer).2.settleRefresh env now cancelled purpose (s.install answer).1 := by
  simp only [Event.message_eq_iff, exists_eq_right]
  refine ⟨?_, ?_, ?_⟩
  · cases answer with
    | error e => exact ⟨[.listFailed e], rfl, by simp⟩
    | ok records =>
      obtain ⟨e, other, logged⟩ := s.log_install_ok records
      refine ⟨Snapshot.orderEvents records ++ [e], logged, ?_⟩
      simp [Snapshot.outOfOrder_mem_orderEvents_iff, other.symm]
  · cases answer with
    | error e => exact Or.inl ⟨_, rfl, rfl⟩
    | ok records =>
      rcases s.snapshot_install_ok records with failed | ⟨count, keys⟩
      · exact Or.inl failed
      · exact Or.inr ⟨records, rfl, count, keys⟩
  · rintro env now cancelled purpose rfl
    rfl

end Keyring
