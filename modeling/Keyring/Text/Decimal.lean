/-!
# Decimal numerals

* `Decimal.digits` writes a number without leading zeros, `Decimal.padded` with at least a given
  number of digits, and `Decimal.value` reads digits: `value_digits`, `value_padded`.
* `Decimal.span` splits a text behind its leading digits.
-/

namespace Keyring.Decimal

/-! ## Digits -/

/-- The ten ASCII digits. -/
def isDigit (c : Char) : Bool := decide (48 ≤ c.toNat ∧ c.toNat ≤ 57)

/-- The character of a digit below ten. -/
def digit (n : Nat) : Char := Char.ofNat (48 + n)

/-- The value of a digit's character. -/
def digitValue (c : Char) : Nat := c.toNat - 48

theorem digitValue_digit {n : Nat} (h : n < 10) : digitValue (digit n) = n := by
  have all : ∀ k < 10, digitValue (digit k) = k := by decide
  exact all n h

theorem isDigit_digit {n : Nat} (h : n < 10) : isDigit (digit n) = true := by
  have all : ∀ k < 10, isDigit (digit k) = true := by decide
  exact all n h

/-! ## Numerals -/

/-- The digits of `n`, most significant first, without leading zeros. -/
def digits (n : Nat) : List Char :=
  if n < 10 then [digit n] else digits (n / 10) ++ [digit (n % 10)]
termination_by n
decreasing_by omega

/-- The digits of `n` behind as many zeros as fill `width`. -/
def padded (width n : Nat) : List Char :=
  List.replicate (width - (digits n).length) '0' ++ digits n

/-- The number that digits denote. -/
def value (cs : List Char) : Nat := cs.foldl (fun n c => 10 * n + digitValue c) 0

/-- The leading digits and the rest. -/
def span (cs : List Char) : List Char × List Char := (cs.takeWhile isDigit, cs.dropWhile isDigit)

/-- The numeral of an integer, with a sign if it is negative. -/
def ofInt : Int → List Char
  | .ofNat n => digits n
  | .negSucc n => '-' :: digits (n + 1)

@[simp] theorem digits_zero : digits 0 = ['0'] := by
  rw [digits]
  rfl

theorem value_append (cs ds : List Char) :
    value (cs ++ ds) = ds.foldl (fun n c => 10 * n + digitValue c) (value cs) := by
  simp [value]

theorem value_digits (n : Nat) : value (digits n) = n := by
  induction n using Nat.strongRecOn with
  | ind n ih =>
    unfold digits
    split
    · rename_i h
      simp [value, digitValue_digit h]
    · rename_i h
      rw [value_append, ih (n / 10) (by omega)]
      simp only [List.foldl_cons, List.foldl_nil]
      rw [digitValue_digit (by omega)]
      omega

theorem value_replicate_zero (k : Nat) (cs : List Char) :
    value (List.replicate k '0' ++ cs) = value cs := by
  induction k with
  | zero => rfl
  | succ k ih =>
    rw [List.replicate_succ, List.cons_append]
    simpa [value, digitValue] using ih

theorem value_padded (width n : Nat) : value (padded width n) = n := by
  rw [padded, value_replicate_zero, value_digits]

theorem isDigit_of_mem_digits {n : Nat} {c : Char} (h : c ∈ digits n) : isDigit c = true := by
  induction n using Nat.strongRecOn with
  | ind n ih =>
    unfold digits at h
    split at h
    · rename_i hn
      rw [List.mem_singleton.mp h]
      exact isDigit_digit hn
    · rcases List.mem_append.mp h with h | h
      · exact ih (n / 10) (by omega) h
      · rw [List.mem_singleton.mp h]
        exact isDigit_digit (by omega)

theorem digits_ne_nil (n : Nat) : digits n ≠ [] := by
  unfold digits
  split <;> simp

/-! ## Padding -/

theorem length_digits_le {width n : Nat} (h : n < Nat.pow 10 width) (positive : 0 < width) :
    (digits n).length ≤ width := by
  induction width generalizing n with
  | zero => exact absurd positive (Nat.lt_irrefl 0)
  | succ width ih =>
    unfold digits
    split
    · exact positive
    · rename_i long
      have front : n / 10 < Nat.pow 10 width := by
        have scaled : n < Nat.pow 10 width * 10 := h
        omega
      have positive : 0 < width := by
        refine Nat.pos_of_ne_zero ?_
        rintro rfl
        exact long h
      rw [List.length_append]
      exact Nat.succ_le_succ (ih front positive)

theorem length_padded {width n : Nat} (h : n < Nat.pow 10 width) (positive : 0 < width) :
    (padded width n).length = width := by
  have short := length_digits_le h positive
  rw [padded, List.length_append, List.length_replicate]
  omega

theorem padded_ne_nil (width n : Nat) : padded width n ≠ [] :=
  List.append_ne_nil_of_right_ne_nil _ (digits_ne_nil n)

theorem isDigit_of_mem_padded {width n : Nat} {c : Char} (h : c ∈ padded width n) :
    isDigit c = true := by
  rcases List.mem_append.mp h with h | h
  · rw [List.eq_of_mem_replicate h]
    rfl
  · exact isDigit_of_mem_digits h

end Keyring.Decimal
