import Mathlib.Data.List.Induction
import Mathlib.Data.List.TakeWhile
import Keyring.Json.Number
import Keyring.Proofs.Utf8
import Keyring.Text.Decimal

/-!
# JSON numbers

A whole number of up to 64 bits has one numeral: its decimal digits without leading zeros, behind a
minus if it is negative. Nothing else is read as this number.

* `scanUnsigned_digits` reads a numeral, and `digits_of_scanUnsigned` says that a number without
  fraction and exponent is one.
-/

namespace Keyring

/-- What succeeds has succeeded in each of its parts. -/
theorem exists_of_bind_eq_ok {ε α β : Type} {x : Except ε α} {f : α → Except ε β} {b : β}
    (h : x >>= f = .ok b) : ∃ a, x = .ok a ∧ f a = .ok b := by
  cases x with
  | error e => cases h
  | ok a => exact ⟨a, rfl, h⟩

/-! ## Digits -/

namespace Decimal

theorem utf8EncodeChar_digit {v : Nat} (h : v < 10) :
    String.utf8EncodeChar (digit v) = [UInt8.ofNat (48 + v)] := by
  have all : ∀ v < 10, String.utf8EncodeChar (digit v) = [UInt8.ofNat (48 + v)] := by decide
  exact all v h

theorem exists_digits_eq_cons {n : Nat} (h : 1 ≤ n) :
    ∃ d ds, digits n = d :: ds ∧ 1 ≤ digitValue d := by
  induction n using Nat.strongRecOn with
  | ind n ih =>
    unfold digits
    split
    · rename_i small
      exact ⟨digit n, [], rfl, by rw [digitValue_digit small]; exact h⟩
    · obtain ⟨d, ds, front, positive⟩ := ih (n / 10) (by omega) (by omega)
      exact ⟨d, ds ++ [digit (n % 10)], by rw [front, List.cons_append], positive⟩

theorem digit_digitValue {c : Char} (h : isDigit c = true) : digit (digitValue c) = c := by
  have range : 48 ≤ c.toNat ∧ c.toNat ≤ 57 := of_decide_eq_true h
  have value : 48 + digitValue c = c.toNat := by
    rw [digitValue]
    omega
  rw [digit, value, Char.ofNat_toNat]

theorem digitValue_lt {c : Char} (h : isDigit c = true) : digitValue c < 10 := by
  have range : 48 ≤ c.toNat ∧ c.toNat ≤ 57 := of_decide_eq_true h
  rw [digitValue]
  omega

end Decimal

namespace Json.Number

/-- The digits' values, most significant first, without leading zeros. -/
structure Canonical (vs : List Nat) : Prop where
  nonempty : vs ≠ []
  small : ∀ v ∈ vs, v < 10
  noLeadingZero : ∀ v ws, vs ≠ 0 :: v :: ws

theorem le_foldl (m : Nat) (vs : List Nat) : m ≤ vs.foldl (fun n d => 10 * n + d) m := by
  induction vs generalizing m with
  | nil => exact Nat.le_refl m
  | cons v vs ih => exact Nat.le_trans (by omega) (ih (10 * m + v))

theorem ofDigits_append_singleton (vs : List Nat) (v : Nat) :
    ofDigits (vs ++ [v]) = 10 * ofDigits vs + v := by
  rw [ofDigits, List.foldl_append]
  rfl

/-- Digits without leading zeros are those of the number that they denote. -/
theorem digits_ofDigits {vs : List Nat} (h : Canonical vs) :
    Decimal.digits (ofDigits vs) = vs.map Decimal.digit := by
  induction vs using List.reverseRecOn with
  | nil => exact absurd rfl h.nonempty
  | append_singleton vs v ih =>
    have last : v < 10 := h.small v (by simp)
    rw [ofDigits_append_singleton]
    cases vs with
    | nil =>
      have value : ofDigits [] = 0 := rfl
      rw [value, Decimal.digits, if_pos (by omega)]
      simp
    | cons d ds =>
      have first : 1 ≤ d := by
        refine Nat.one_le_iff_ne_zero.mpr ?_
        rintro rfl
        cases ds with
        | nil => exact h.noLeadingZero v [] rfl
        | cons e ds => exact h.noLeadingZero e (ds ++ [v]) rfl
      have front : Canonical (d :: ds) := by
        refine ⟨List.cons_ne_nil _ _, fun w hw => h.small w (List.mem_append_left _ hw), ?_⟩
        rintro w ws heq
        cases heq
        exact absurd first (by decide)
      have positive : 1 ≤ ofDigits (d :: ds) := by
        refine Nat.le_trans first (Nat.le_trans (by omega) (le_foldl (10 * 0 + d) ds))
      rw [Decimal.digits, if_neg (by omega), List.map_append]
      have quotient : (10 * ofDigits (d :: ds) + v) / 10 = ofDigits (d :: ds) := by omega
      have remainder : (10 * ofDigits (d :: ds) + v) % 10 = v := by omega
      rw [quotient, remainder, ih front]
      rfl

theorem ofDigits_digits (n : Nat) :
    ofDigits ((Decimal.digits n).map Decimal.digitValue) = n := by
  have value := Decimal.value_digits n
  rw [Decimal.value] at value
  rw [ofDigits, List.foldl_map]
  exact value

theorem canonical_digits (n : Nat) : Canonical ((Decimal.digits n).map Decimal.digitValue) := by
  have small : ∀ v ∈ (Decimal.digits n).map Decimal.digitValue, v < 10 := by
    intro v hv
    obtain ⟨c, hc, rfl⟩ := List.mem_map.mp hv
    exact Decimal.digitValue_lt (Decimal.isDigit_of_mem_digits hc)
  rcases Nat.eq_zero_or_pos n with rfl | positive
  · rw [Decimal.digits] at small ⊢
    exact ⟨by simp, small, by simp⟩
  · obtain ⟨d, ds, digits, first⟩ := Decimal.exists_digits_eq_cons positive
    rw [digits] at small ⊢
    refine ⟨by simp, small, ?_⟩
    intro v ws heq
    rw [List.map_cons] at heq
    have zero : Decimal.digitValue d = 0 := (List.cons.inj heq).1
    omega

/-! ## Runs of digits -/

/-- What follows a number does not go on with it. -/
def Ends (rest : Bytes) : Prop :=
  ∀ b tail, rest = b :: tail → isDigit b = false ∧ b ≠ 46 ∧ b ≠ 101 ∧ b ≠ 69

theorem isDigit_iff {b : UInt8} : isDigit b = true ↔ 48 ≤ b.toNat ∧ b.toNat ≤ 57 := by
  simp only [isDigit, Bool.and_eq_true, decide_eq_true_eq, UInt8.le_iff_toNat_le]
  exact Iff.rfl

theorem digitOctet {v : Nat} (h : v < 10) :
    isDigit (UInt8.ofNat (48 + v)) = true ∧ (UInt8.ofNat (48 + v)).toNat - 48 = v := by
  have value : (UInt8.ofNat (48 + v)).toNat = 48 + v := by
    rw [UInt8.toNat_ofNat']
    omega
  rw [isDigit_iff, value]
  omega

theorem ofChars_digits {vs : List Nat} (h : ∀ v ∈ vs, v < 10) :
    Bytes.ofChars (vs.map Decimal.digit) = vs.map fun v => UInt8.ofNat (48 + v) := by
  induction vs with
  | nil => rfl
  | cons v vs ih =>
    obtain ⟨first, others⟩ := List.forall_mem_cons.mp h
    rw [List.map_cons, Bytes.ofChars_cons, Decimal.utf8EncodeChar_digit first, ih others]
    rfl

theorem scanDigits_digits {vs : List Nat} {rest : Bytes} (nonempty : vs ≠ [])
    (small : ∀ v ∈ vs, v < 10) (ends : ∀ b tail, rest = b :: tail → isDigit b = false) :
    scanDigits (Bytes.ofChars (vs.map Decimal.digit) ++ rest) = .ok (vs, rest) := by
  rw [ofChars_digits small]
  have digits : ∀ b ∈ vs.map (fun v => UInt8.ofNat (48 + v)), isDigit b = true := by
    intro b hb
    obtain ⟨v, hv, rfl⟩ := List.mem_map.mp hb
    exact (digitOctet (small v hv)).1
  have stop : rest.takeWhile isDigit = [] ∧ rest.dropWhile isDigit = rest := by
    cases rest with
    | nil => exact ⟨rfl, rfl⟩
    | cons b tail => simp [ends b tail rfl]
  have leading : leadingDigits (vs.map (fun v => UInt8.ofNat (48 + v)) ++ rest) = vs := by
    rw [leadingDigits, List.takeWhile_append_of_pos digits, stop.1, List.append_nil, List.map_map]
    calc vs.map ((fun b => b.toNat - 48) ∘ fun v => UInt8.ofNat (48 + v)) = vs.map id :=
          List.map_congr_left fun v hv => (digitOctet (small v hv)).2
      _ = vs := List.map_id vs
  have behind : afterDigits (vs.map (fun v => UInt8.ofNat (48 + v)) ++ rest) = rest := by
    rw [afterDigits, List.dropWhile_append_of_pos digits, stop.2]
  unfold scanDigits
  rw [leading, behind]
  cases vs with
  | nil => exact absurd rfl nonempty
  | cons v vs => rfl

theorem digits_of_scanDigits {bytes rest : Bytes} {vs : List Nat}
    (h : scanDigits bytes = .ok (vs, rest)) :
    bytes = Bytes.ofChars (vs.map Decimal.digit) ++ rest ∧ vs ≠ [] ∧ (∀ v ∈ vs, v < 10) ∧
      ∀ b tail, rest = b :: tail → isDigit b = false := by
  unfold scanDigits at h
  split at h
  · cases h
  · rename_i nonempty
    obtain ⟨rfl, rfl⟩ := Prod.mk.inj (Except.ok.inj h)
    have small : ∀ v ∈ leadingDigits bytes, v < 10 := by
      intro v hv
      obtain ⟨b, hb, rfl⟩ := List.mem_map.mp hv
      have range := isDigit_iff.mp (List.mem_takeWhile_imp hb)
      omega
    have octets : (leadingDigits bytes).map (fun v => UInt8.ofNat (48 + v)) =
        bytes.takeWhile isDigit := by
      rw [leadingDigits, List.map_map]
      refine (List.map_congr_left ?_).trans (List.map_id _)
      intro b hb
      have range := isDigit_iff.mp (List.mem_takeWhile_imp hb)
      have value : 48 + (b.toNat - 48) = b.toNat := by omega
      simp only [Function.comp, value, UInt8.ofNat_toNat, id]
    refine ⟨?_, nonempty, small, ?_⟩
    · rw [ofChars_digits small, octets, afterDigits, List.takeWhile_append_dropWhile]
    · intro b tail behind
      have head := List.head?_dropWhile_not isDigit bytes
      rw [afterDigits] at behind
      rw [behind] at head
      simpa using head

/-! ## Numerals -/

/-- What is left of the scan once the sign is read. -/
def scanUnsigned (isNegative : Bool) (bytes : Bytes) : Except Flaw (Parts × Bytes) := do
  let (whole, bytes) ← scanWhole bytes
  let (fraction, bytes) ← scanFraction bytes
  let (exponent, bytes) ← scanExponent bytes
  pure (⟨isNegative, whole, fraction, exponent⟩, bytes)

theorem scan_minus (bytes : Bytes) : Parts.scan (45 :: bytes) = scanUnsigned true bytes := rfl

theorem scan_of_ne_minus {b : UInt8} (h : b ≠ 45) (bytes : Bytes) :
    Parts.scan (b :: bytes) = scanUnsigned false (b :: bytes) := by
  unfold Parts.scan
  split
  rename_i isNegative rest sign
  split at sign
  · rename_i heq
    exact absurd (List.cons.inj heq).1 h
  · cases sign
    rfl

/-- The whole part of a number is canonical. -/
theorem canonical_of_scanWhole {bytes rest : Bytes} {vs : List Nat}
    (h : scanWhole bytes = .ok (vs, rest)) :
    bytes = Bytes.ofChars (Decimal.digits (ofDigits vs)) ++ rest ∧
      ∀ b tail, rest = b :: tail → isDigit b = false := by
  obtain ⟨⟨ws, behind⟩, read, checked⟩ := exists_of_bind_eq_ok h
  obtain ⟨octets, nonempty, small, stop⟩ := digits_of_scanDigits read
  dsimp only at checked
  split at checked
  · cases checked
  · rename_i noLeadingZero
    cases checked
    have canonical : Canonical vs := ⟨nonempty, small, fun v ws heq => noLeadingZero v ws heq⟩
    rw [digits_ofDigits canonical]
    exact ⟨octets, stop⟩

theorem map_digit_digits (n : Nat) :
    ((Decimal.digits n).map Decimal.digitValue).map Decimal.digit = Decimal.digits n := by
  rw [List.map_map]
  refine (List.map_congr_left fun c hc => ?_).trans (List.map_id _)
  exact Decimal.digit_digitValue (Decimal.isDigit_of_mem_digits hc)

/-- A numeral starts with a digit. -/
theorem exists_ofChars_digits (n : Nat) :
    ∃ b tail, Bytes.ofChars (Decimal.digits n) = b :: tail ∧ isDigit b = true := by
  have canonical := canonical_digits n
  rw [← map_digit_digits n, ofChars_digits canonical.small]
  cases hvs : (Decimal.digits n).map Decimal.digitValue with
  | nil => exact absurd hvs canonical.nonempty
  | cons v vs =>
    have first : v < 10 := canonical.small v (hvs ▸ List.mem_cons_self)
    exact ⟨_, _, rfl, (digitOctet first).1⟩

theorem scanWhole_digits (n : Nat) {rest : Bytes}
    (ends : ∀ b tail, rest = b :: tail → isDigit b = false) :
    scanWhole (Bytes.ofChars (Decimal.digits n) ++ rest) =
      .ok ((Decimal.digits n).map Decimal.digitValue, rest) := by
  have canonical := canonical_digits n
  have read := scanDigits_digits canonical.nonempty canonical.small ends
  rw [map_digit_digits] at read
  unfold scanWhole
  rw [read]
  simp only [bind, Except.bind]
  split
  · rename_i zero
    exact absurd zero (canonical.noLeadingZero _ _)
  · rfl

/-- A number without fraction and exponent. -/
theorem scanUnsigned_digits (isNegative : Bool) (n : Nat) {rest : Bytes} (ends : Ends rest) :
    scanUnsigned isNegative (Bytes.ofChars (Decimal.digits n) ++ rest) =
      .ok (⟨isNegative, (Decimal.digits n).map Decimal.digitValue, none, none⟩, rest) := by
  have fraction : scanFraction rest = .ok (none, rest) := by
    unfold scanFraction
    split
    · exact absurd rfl (ends _ _ rfl).2.1
    · rfl
  have exponent : scanExponent rest = .ok (none, rest) := by
    unfold scanExponent
    split
    · rfl
    · rename_i b tail
      obtain ⟨-, -, small, capital⟩ := ends b tail rfl
      rw [if_neg (by simp [small, capital])]
  unfold scanUnsigned
  rw [scanWhole_digits n fun b tail h => (ends b tail h).1]
  simp only [bind, Except.bind]
  rw [fraction]
  simp only
  rw [exponent]
  rfl

theorem eq_of_scanFraction {bytes rest : Bytes} (h : scanFraction bytes = .ok (none, rest)) :
    rest = bytes ∧ ∀ tail, bytes ≠ 46 :: tail := by
  unfold scanFraction at h
  split at h
  · obtain ⟨read, -, given⟩ := exists_of_bind_eq_ok h
    cases given
  · rename_i other
    cases h
    exact ⟨rfl, other⟩

theorem eq_of_scanExponent {bytes rest : Bytes} (h : scanExponent bytes = .ok (none, rest)) :
    rest = bytes ∧ ∀ b tail, bytes = b :: tail → b ≠ 101 ∧ b ≠ 69 := by
  unfold scanExponent at h
  split at h
  · cases h
    exact ⟨rfl, nofun⟩
  · rename_i b tail
    split at h
    · obtain ⟨read, -, given⟩ := exists_of_bind_eq_ok h
      cases given
    · rename_i mark
      cases h
      refine ⟨rfl, ?_⟩
      rintro c tail' heq
      cases heq
      exact not_or.mp mark

theorem digits_of_scanUnsigned {isNegative : Bool} {bytes rest : Bytes} {p : Parts}
    (h : scanUnsigned isNegative bytes = .ok (p, rest)) (fraction : p.fraction = none)
    (exponent : p.exponent = none) :
    p.isNegative = isNegative ∧
      bytes = Bytes.ofChars (Decimal.digits (ofDigits p.whole)) ++ rest ∧ Ends rest := by
  obtain ⟨⟨vs, behind⟩, hwhole, h⟩ := exists_of_bind_eq_ok h
  obtain ⟨⟨f, behind'⟩, hfraction, h⟩ := exists_of_bind_eq_ok h
  obtain ⟨⟨e, behind''⟩, hexponent, h⟩ := exists_of_bind_eq_ok h
  cases h
  cases fraction
  cases exponent
  obtain ⟨octets, stop⟩ := canonical_of_scanWhole hwhole
  obtain ⟨rfl, point⟩ := eq_of_scanFraction hfraction
  obtain ⟨rfl, mark⟩ := eq_of_scanExponent hexponent
  refine ⟨rfl, octets, ?_⟩
  rintro b tail rfl
  exact ⟨stop b tail rfl, fun hb => point tail (hb ▸ rfl), mark b tail rfl⟩

/-! ## Whole numbers -/

/-- The number has neither a fraction nor an exponent. -/
def Parts.IsWhole (p : Parts) : Prop := p.fraction = none ∧ p.exponent = none

/-- A whole number of 64 bits is kept, unless it is negative and too small. -/
theorem number_of_isWhole {p : Parts} (whole : p.IsWhole)
    (small : ofDigits p.whole < 0x10000000000000000) :
    p.number =
      if !p.isNegative then .natural (ofDigits p.whole)
      else if 0 < ofDigits p.whole ∧ ofDigits p.whole ≤ 0x8000000000000000 then
        .negative (ofDigits p.whole)
      else .inexact := by
  have kept : (p.fraction.isNone && p.exponent.isNone &&
      decide (ofDigits p.whole < 0x10000000000000000)) = true := by
    simp [whole.1, whole.2, small]
  exact if_pos kept

/-- Of any other number it is only known whether it is too large. -/
theorem number_of_not_isWhole {p : Parts}
    (other : ¬ (p.IsWhole ∧ ofDigits p.whole < 0x10000000000000000)) :
    p.number = .tooLarge ∨ p.number = .inexact := by
  have lost : ¬ (p.fraction.isNone && p.exponent.isNone &&
      decide (ofDigits p.whole < 0x10000000000000000)) = true := by
    simpa [Parts.IsWhole, and_assoc] using other
  have number : p.number = if p.isTooLarge then .tooLarge else .inexact := if_neg lost
  rw [number]
  cases p.isTooLarge with
  | true => exact Or.inl rfl
  | false => exact Or.inr rfl

theorem number_natural_iff {p : Parts} {n : Nat} :
    p.number = .natural n ↔
      p.IsWhole ∧ p.isNegative = false ∧ ofDigits p.whole = n ∧ n < 0x10000000000000000 := by
  by_cases kept : p.IsWhole ∧ ofDigits p.whole < 0x10000000000000000
  · obtain ⟨whole, small⟩ := kept
    rw [number_of_isWhole whole small]
    cases p.isNegative with
    | false =>
      constructor
      · rintro ⟨⟩
        exact ⟨whole, rfl, rfl, small⟩
      · rintro ⟨-, -, rfl, -⟩
        rfl
    | true =>
      constructor
      · intro number
        rw [if_neg (by decide)] at number
        split at number <;> cases number
      · rintro ⟨-, ⟨⟩, -⟩
  · constructor
    · intro number
      rcases number_of_not_isWhole kept with lost | lost <;> rw [lost] at number <;> cases number
    · rintro ⟨whole, -, rfl, small⟩
      exact absurd ⟨whole, small⟩ kept

theorem number_negative_iff {p : Parts} {n : Nat} :
    p.number = .negative n ↔
      p.IsWhole ∧ p.isNegative = true ∧ ofDigits p.whole = n ∧ 0 < n ∧ n ≤ 0x8000000000000000 := by
  by_cases kept : p.IsWhole ∧ ofDigits p.whole < 0x10000000000000000
  · obtain ⟨whole, small⟩ := kept
    rw [number_of_isWhole whole small]
    cases p.isNegative with
    | false =>
      constructor
      · rintro ⟨⟩
      · rintro ⟨-, ⟨⟩, -⟩
    | true =>
      by_cases range : 0 < ofDigits p.whole ∧ ofDigits p.whole ≤ 0x8000000000000000
      · rw [if_neg (by decide), if_pos range]
        constructor
        · rintro ⟨⟩
          exact ⟨whole, rfl, rfl, range⟩
        · rintro ⟨-, -, rfl, -⟩
          rfl
      · rw [if_neg (by decide), if_neg range]
        constructor
        · rintro ⟨⟩
        · rintro ⟨-, -, rfl, range'⟩
          exact absurd range' range
  · constructor
    · intro number
      rcases number_of_not_isWhole kept with lost | lost <;> rw [lost] at number <;> cases number
    · rintro ⟨whole, -, rfl, -, small⟩
      exact absurd ⟨whole, by omega⟩ kept

end Json.Number

end Keyring
