import Keyring.Proofs.DurationText
import Keyring.Token.Claims

/-!
# Instants of expiry

A token expires on a whole second, the first that is not before the instant its lifetime ends. So it
lives no shorter than it was issued for, and less than a second longer.

* Outside leap seconds instants are counted by `inNanos`: `inNanos_of_plus?` and `inNanos_since` are
  about sums and distances.
* `le_ofSecond_ceilSecond` and `nanosSince_ceilSecond` bound the rounding, which leaves the range of
  instants only behind the last second (`maxSecond_lt_ceilSecond_iff`).
* `second_lt_of_plus?`: a lifetime of a second or more ends in a later second, and in no leap second.
-/

namespace Keyring.Instant

variable {a b c t : Instant} {d : Duration} {n : Int}

/-! ## Order -/

theorem lt_iff : a < b ↔ a.second < b.second ∨ a.second = b.second ∧ a.nanos < b.nanos := Iff.rfl

theorem le_iff : a ≤ b ↔ a.second < b.second ∨ a.second = b.second ∧ a.nanos ≤ b.nanos := by
  have notLater : a ≤ b ↔ ¬ b < a := Iff.rfl
  rw [notLater, lt_iff]
  omega

theorem le_trans (h : a ≤ b) (h' : b ≤ c) : a ≤ c := by
  rw [le_iff] at *
  omega

/-! ## Whole seconds -/

theorem of?_eq_some_iff {nanos : Nat} :
    of? n nanos = some t ↔ t.second = n ∧ t.nanos = nanos := by
  unfold of?
  constructor
  · intro h
    split at h <;> cases h
    exact ⟨rfl, rfl⟩
  · rintro ⟨rfl, rfl⟩
    exact dif_pos ⟨t.inRange, t.nanos_lt, t.leap⟩

theorem ofSecond_of_inRange (low : minSecond ≤ n) (high : n ≤ maxSecond) :
    (ofSecond n).second = n ∧ (ofSecond n).nanos = 0 := by
  have whole : of? n 0 = some ⟨n, 0, ⟨low, high⟩, by decide, by omega⟩ :=
    of?_eq_some_iff.mpr ⟨rfl, rfl⟩
  rw [ofSecond, whole]
  exact ⟨rfl, rfl⟩

theorem of?_of_not_inRange (out : ¬ (minSecond ≤ n ∧ n ≤ maxSecond)) (nanos : Nat) :
    of? n nanos = none :=
  dif_neg fun h => out h.1

theorem ofSecond_of_not_inRange (out : ¬ (minSecond ≤ n ∧ n ≤ maxSecond)) :
    ofSecond n = earliest := by
  rw [ofSecond, of?_of_not_inRange out]
  rfl

/-- Only a second in range lasts until an instant that is not the earliest. -/
theorem inRange_of_le_ofSecond (later : earliest < t) (h : t ≤ ofSecond n) :
    minSecond ≤ n ∧ n ≤ maxSecond := by
  by_contra out
  rw [ofSecond_of_not_inRange out] at h
  exact h later

theorem inLeapSecond_ofSecond (n : Int) : (ofSecond n).inLeapSecond = false := by
  by_cases range : minSecond ≤ n ∧ n ≤ maxSecond
  · rw [inLeapSecond, (ofSecond_of_inRange range.1 range.2).2]
    rfl
  · rw [ofSecond_of_not_inRange range]
    rfl

/-! ## Outside leap seconds -/

/-- The nanoseconds since the beginning of 1970, as if there were no leap seconds. -/
def inNanos (t : Instant) : Int := t.second * 1000000000 + t.nanos

theorem inNanos_ofSecond (range : minSecond ≤ n ∧ n ≤ maxSecond) :
    (ofSecond n).inNanos = n * 1000000000 := by
  obtain ⟨second, nanos⟩ := ofSecond_of_inRange range.1 range.2
  rw [inNanos, second, nanos, Int.natCast_zero, Int.add_zero]

section Plain

variable (plain : a.inLeapSecond = false)
include plain

theorem nanos_lt_of_plain : a.nanos < 1000000000 := Nat.lt_of_not_le (of_decide_eq_false plain)

theorem le_iff_inNanos_le (plain' : b.inLeapSecond = false) : a ≤ b ↔ a.inNanos ≤ b.inNanos := by
  have nanos := nanos_lt_of_plain plain
  have nanos' := nanos_lt_of_plain plain'
  rw [le_iff]
  unfold inNanos
  omega

theorem inNanos_of_plus? (h : a.plus? d = some b) : b.inNanos = a.inNanos + d.inNanos := by
  unfold plus? at h
  rw [plain] at h
  split at h
  · cases h
  · obtain ⟨second, nanos⟩ := of?_eq_some_iff.mp h
    unfold inNanos Duration.inNanos
    rw [second, nanos]
    omega

theorem nanosSince_of_plain (plain' : b.inLeapSecond = false) :
    a.nanosSince b = a.inNanos - b.inNanos := by
  unfold nanosSince inNanos
  simp only [plain, plain', Bool.false_eq_true, and_false, if_false]
  omega

theorem inNanos_since (plain' : b.inLeapSecond = false) :
    (a.since b).inNanos = (a.inNanos - b.inNanos).toNat := by
  have high := a.inRange.2
  have low := b.inRange.1
  have nanos := nanos_lt_of_plain plain
  unfold since
  rw [nanosSince_of_plain plain plain', Duration.inNanos_ofNanos]
  unfold inNanos
  omega

end Plain

/-! ## Rounding -/

theorem le_ceilSecond (t : Instant) : t.second ≤ t.ceilSecond ∧ t.ceilSecond ≤ t.second + 1 := by
  unfold ceilSecond
  split <;> omega

/-- What is rounded out of range was in the last second, and not at its beginning. -/
theorem maxSecond_lt_ceilSecond_iff :
    maxSecond < t.ceilSecond ↔ t.second = maxSecond ∧ 0 < t.nanos := by
  have last : t.second ≤ maxSecond := t.inRange.2
  unfold ceilSecond
  split <;> omega

theorem minSecond_le_ceilSecond (t : Instant) : minSecond ≤ t.ceilSecond :=
  Int.le_trans t.inRange.1 t.le_ceilSecond.1

theorem ofSecond_ceilSecond (high : t.ceilSecond ≤ maxSecond) :
    (ofSecond t.ceilSecond).second = t.ceilSecond ∧ (ofSecond t.ceilSecond).nanos = 0 :=
  ofSecond_of_inRange t.minSecond_le_ceilSecond high

theorem le_ofSecond_ceilSecond (high : t.ceilSecond ≤ maxSecond) : t ≤ ofSecond t.ceilSecond := by
  obtain ⟨second, nanos⟩ := ofSecond_ceilSecond high
  rw [le_iff, second, nanos]
  unfold ceilSecond
  split <;> omega

theorem inNanos_le_ceilSecond (nanos : t.nanos < 1000000000) :
    t.inNanos ≤ t.ceilSecond * 1000000000 := by
  unfold inNanos ceilSecond
  split <;> omega

/-- Rounding an instant outside leap seconds up adds less than a second. -/
theorem nanosSince_ceilSecond (high : t.ceilSecond ≤ maxSecond) (plain : t.nanos < 1000000000) :
    0 ≤ (ofSecond t.ceilSecond).nanosSince t ∧ (ofSecond t.ceilSecond).nanosSince t < 1000000000 := by
  have noLeap : t.inLeapSecond = false := decide_eq_false (Nat.not_le_of_lt plain)
  rw [nanosSince_of_plain (inLeapSecond_ofSecond _) noLeap,
    inNanos_ofSecond ⟨t.minSecond_le_ceilSecond, high⟩]
  unfold inNanos ceilSecond
  split <;> omega

/-! ## Ends of lifetimes -/

theorem le_longestSpan_of_plus? (h : a.plus? d = some b) : d ≤ longestSpan := by
  unfold plus? at h
  split at h
  · cases h
  · rename_i fits
    exact Duration.not_lt.mp fits

theorem second_lt_of_plus? (long : 1 ≤ d.seconds) (h : a.plus? d = some b) :
    a.second < b.second ∧ b.nanos < 1000000000 := by
  unfold plus? at h
  repeat' split at h
  · cases h
  · rename_i stays
    -- only less than a second can stay within a leap second
    omega
  · obtain ⟨second, nanos⟩ := of?_eq_some_iff.mp h
    rw [second, nanos]
    omega
  · obtain ⟨second, nanos⟩ := of?_eq_some_iff.mp h
    rw [second, nanos]
    omega

theorem one_le_seconds_of_not_lt (h : ¬ d < Duration.ofSeconds 1) : 1 ≤ d.seconds := by
  have nanos := d.nanos_lt
  have long : (Duration.ofSeconds 1).inNanos ≤ d.inNanos := Duration.not_lt.mp h
  have second : (Duration.ofSeconds 1).inNanos = 1000000000 := rfl
  rw [second, Duration.inNanos] at long
  omega

end Keyring.Instant
