import Keyring.Proofs.Calendar
import Keyring.Proofs.Expiry
import Keyring.Time.Rfc3339

/-!
# Instants as text invert

Every instant is read again from the text that it is written as: years of any sign and length, leap
seconds, and fractions of any precision.

* Each part of the text is read by a lemma of its own: `number?_digits` for the digits of all of them,
  `year?_writeYear`, `field?_padded` and `fraction?_writeFraction`.
* `read?_write` puts them together.
-/

namespace Keyring

namespace Rfc3339

/-! ## Numbers -/

variable {width n : Nat} {c : Char} {tail : List Char}

/-- Digits are read up to the character behind them. -/
theorem number?_digits {ds : List Char} (digits : ∀ c ∈ ds, Decimal.isDigit c = true)
    (nonempty : ds ≠ []) (short : ds.length ≤ width) (stop : Decimal.isDigit c = false) :
    number? width (ds ++ c :: tail) = some (Decimal.value ds, c :: tail) := by
  have front : ((ds ++ c :: tail).take width).takeWhile Decimal.isDigit = ds := by
    rw [List.take_append, List.take_of_length_le short, List.takeWhile_append_of_pos digits]
    cases width - ds.length with
    | zero => simp
    | succ k => simp [stop]
  simp [number?, front, nonempty]

theorem number?_padded {k : Nat} (short : (Decimal.padded k n).length ≤ width)
    (stop : Decimal.isDigit c = false) :
    number? width (Decimal.padded k n ++ c :: tail) = some (n, c :: tail) := by
  rw [number?_digits (fun _ => Decimal.isDigit_of_mem_padded) (Decimal.padded_ne_nil k n) short stop,
    Decimal.value_padded]

theorem field?_padded (h : n < 100) (stop : Decimal.isDigit c = false) (tail : List Char) :
    field? 2 (Decimal.padded 2 n ++ c :: tail) = some (n, c :: tail) := by
  have short : (Decimal.padded 2 n).length ≤ 2 :=
    Nat.le_of_eq (Decimal.length_padded h (by decide))
  rw [field?, Blank.trimStart_digits (fun _ => Decimal.isDigit_of_mem_padded)
    (Decimal.padded_ne_nil 2 n), number?_padded short stop]

theorem mark?_cons (h : Blank.isBlank c = false) (tail : List Char) :
    mark? c (c :: tail) = some tail := by
  simp [mark?, Blank.trimStart, h]

/-! ## Years -/

theorem year?_unsigned (h : n < 10000) (stop : Decimal.isDigit c = false) :
    year? (Decimal.padded 4 n ++ c :: tail) = some ((n : Int), c :: tail) := by
  have short : (Decimal.padded 4 n).length ≤ 4 :=
    Nat.le_of_eq (Decimal.length_padded h (by decide))
  have number : number? 4 (Decimal.padded 4 n ++ c :: tail) = some (n, c :: tail) :=
    number?_padded short stop
  have digits : ∀ d ∈ Decimal.padded 4 n, Decimal.isDigit d = true :=
    fun _ => Decimal.isDigit_of_mem_padded
  have nonempty := Decimal.padded_ne_nil 4 n
  unfold year?
  rw [Blank.trimStart_digits digits nonempty]
  revert number digits nonempty
  generalize Decimal.padded 4 n = ds
  intro number digits nonempty
  cases ds with
  | nil => exact absurd rfl nonempty
  | cons d ds =>
    have first := digits d (List.mem_cons_self ..)
    split
    · rename_i heq
      cases heq
      cases first
    · rename_i heq
      cases heq
      cases first
    · rw [number]
      rfl

theorem year?_minus (stop : Decimal.isDigit c = false) :
    year? ('-' :: (Decimal.padded 4 n ++ c :: tail)) = some (-(n : Int), c :: tail) := by
  have number : number? (Decimal.padded 4 n ++ c :: tail).length (Decimal.padded 4 n ++ c :: tail) =
      some (n, c :: tail) := number?_padded (by simp) stop
  have front : Blank.trimStart ('-' :: (Decimal.padded 4 n ++ c :: tail)) =
      '-' :: (Decimal.padded 4 n ++ c :: tail) := rfl
  simp only [year?, front, number, Option.map_some]

theorem year?_plus (stop : Decimal.isDigit c = false) :
    year? ('+' :: (Decimal.padded 4 n ++ c :: tail)) = some ((n : Int), c :: tail) := by
  have number : number? (Decimal.padded 4 n ++ c :: tail).length (Decimal.padded 4 n ++ c :: tail) =
      some (n, c :: tail) := number?_padded (by simp) stop
  have front : Blank.trimStart ('+' :: (Decimal.padded 4 n ++ c :: tail)) =
      '+' :: (Decimal.padded 4 n ++ c :: tail) := rfl
  simp only [year?, front, number, Option.map_some]

theorem year?_writeYear (year : Int) (stop : Decimal.isDigit c = false) (tail : List Char) :
    year? (writeYear year ++ c :: tail) = some (year, c :: tail) := by
  unfold writeYear
  split
  · rw [year?_unsigned (by omega) stop, Int.toNat_of_nonneg (by omega)]
  · split
    · rw [List.cons_append, year?_plus stop, Int.toNat_of_nonneg (by omega)]
    · rw [List.cons_append, year?_minus stop, Int.toNat_of_nonneg (by omega), Int.neg_neg]

/-! ## Fractions -/

theorem fraction?_padded (h : n < Nat.pow 10 width) (positive : 0 < width) (short : width ≤ 9)
    (stop : Decimal.isDigit c = false) :
    fraction? ('.' :: (Decimal.padded width n ++ c :: tail)) =
      some (n * Nat.pow 10 (9 - width), c :: tail) := by
  have length := Decimal.length_padded h positive
  have number : number? 9 (Decimal.padded width n ++ c :: tail) = some (n, c :: tail) :=
    number?_padded (by omega) stop
  have behind : (c :: tail).dropWhile Decimal.isDigit = c :: tail := by simp [stop]
  have count : (Decimal.padded width n ++ c :: tail).length - (c :: tail).length = width := by
    rw [List.length_append, length]
    omega
  simp only [fraction?, number, Option.bind_eq_bind, Option.bind_some, behind, count]

/-- Only zeros are left out. -/
theorem fraction?_writeFraction (h : n < 1000000000) :
    fraction? (writeFraction n ++ ['Z']) = some (n, ['Z']) := by
  have stop : Decimal.isDigit 'Z' = false := by decide
  unfold writeFraction
  split
  · rename_i none
    rw [none]
    rfl
  · split
    · have small : n / 1000000 < Nat.pow 10 3 := (by omega : n / 1000000 < 1000)
      have exact : n / 1000000 * 1000000 = n := by omega
      rw [List.cons_append, fraction?_padded small (by decide) (by decide) stop]
      exact congrArg (fun n => some (n, ['Z'])) exact
    · split
      · have small : n / 1000 < Nat.pow 10 6 := (by omega : n / 1000 < 1000000)
        have exact : n / 1000 * 1000 = n := by omega
        rw [List.cons_append, fraction?_padded small (by decide) (by decide) stop]
        exact congrArg (fun n => some (n, ['Z'])) exact
      · have small : n < Nat.pow 10 9 := h
        rw [List.cons_append, fraction?_padded small (by decide) (by decide) stop]
        exact congrArg (fun n => some (n, ['Z'])) (Nat.mul_one n)

theorem exists_writeFraction_append (n : Nat) :
    ∃ c tail, writeFraction n ++ ['Z'] = c :: tail ∧ Decimal.isDigit c = false := by
  unfold writeFraction
  repeat' split
  all_goals exact ⟨_, _, rfl, rfl⟩

/-! ## Instants -/

/-- The fields of a time that the calendar and the clock have are read, and put together. -/
theorem read?_fields {date : Date} {hour minute second nanos : Nat} (valid : date.isValid = true)
    (hour_le : hour ≤ 23) (minute_le : minute ≤ 59) (second_le : second ≤ 60)
    (nanos_lt : nanos < 1000000000)
    (range : Instant.minSecond ≤ date.toDays * 86400 +
        (hour * 3600 + minute * 60 + (if second = 60 then 59 else second) : Nat) ∧
      date.toDays * 86400 +
        (hour * 3600 + minute * 60 + (if second = 60 then 59 else second) : Nat) ≤
          Instant.maxSecond) :
    read? (writeYear date.year ++ '-' :: Decimal.padded 2 date.month ++
        '-' :: Decimal.padded 2 date.day ++ 'T' :: Decimal.padded 2 hour ++
        ':' :: Decimal.padded 2 minute ++ ':' :: Decimal.padded 2 second ++ writeFraction nanos ++
        ['Z']) =
      Instant.of? (date.toDays * 86400 +
          (hour * 3600 + minute * 60 + (if second = 60 then 59 else second) : Nat))
        (nanos + if second = 60 then 1000000000 else 0) := by
  obtain ⟨month_le, day_le⟩ := Date.le_of_isValid valid
  obtain ⟨c, tail, behind, stop⟩ := exists_writeFraction_append nanos
  have fraction := fraction?_writeFraction nanos_lt
  have hyear := year?_writeYear date.year (c := '-') rfl
  have hmonth := field?_padded (n := date.month) (c := '-') (by omega) rfl
  have hday := field?_padded (n := date.day) (c := 'T') (by omega) rfl
  have hhour := field?_padded (n := hour) (c := ':') (by omega) rfl
  have hminute := field?_padded (n := minute) (c := ':') (by omega) rfl
  have hsecond := field?_padded (n := second) (by omega) stop tail
  rw [← behind] at hsecond
  have dash := mark?_cons (c := '-') (by decide)
  have colon := mark?_cons (c := ':') (by decide)
  have between (rest : List Char) : separator? ('T' :: rest) = some rest := rfl
  have offset : offset? ['Z'] = some (0, []) := rfl
  have fields : (⟨date.year, date.month, date.day⟩ : Date) = date := rfl
  simp only [List.append_assoc, List.cons_append]
  have step {α β : Type} {x : Option α} {a : α} (f : α → Option β) (h : x = some a) :
      (x >>= f) = f a := by rw [h, Option.bind_eq_bind, Option.bind_some]
  rw [read?]
  refine (step _ (hyear _)).trans ?_
  refine (step _ (dash _)).trans ?_
  refine (step _ (hmonth _)).trans ?_
  refine (step _ (dash _)).trans ?_
  refine (step _ (hday _)).trans ?_
  refine (step _ (between _)).trans ?_
  refine (step _ (hhour _)).trans ?_
  refine (step _ (colon _)).trans ?_
  refine (step _ (hminute _)).trans ?_
  refine (step _ (colon _)).trans ?_
  refine (step _ hsecond).trans ?_
  refine (step _ fraction).trans ?_
  refine (step _ offset).trans ?_
  dsimp only
  rw [fields]
  rw [if_neg (by decide), if_neg, if_neg, Int.sub_zero]
  · omega
  · simp only [valid, Bool.not_true, Bool.false_or, Bool.or_eq_true, decide_eq_true_eq]
    omega

/-- An instant is read from the text that it is written as. -/
theorem read?_write (t : Instant) : read? (write t) = some t := by
  have days := Date.toDays_ofDays (t.second / 86400)
  have range := t.inRange
  have nanos_lt := t.nanos_lt
  have leap := t.leap
  have low : Instant.minSecond ≤ t.second := range.1
  have high : t.second ≤ Instant.maxSecond := range.2
  simp only [write, Instant.inLeapSecond, Instant.secondOfDay, decide_eq_true_eq]
  generalize hofDay : (t.second % 86400).toNat = ofDay
  rcases Nat.lt_or_ge t.nanos 1000000000 with plain | inLeap
  · have common : ofDay % 60 ≠ 60 := by omega
    have sum : t.second / 86400 * 86400 +
        (ofDay / 3600 * 3600 + ofDay / 60 % 60 * 60 + ofDay % 60 : Nat) = t.second := by omega
    rw [if_neg (by omega), if_neg (by omega), Nat.add_zero, Nat.sub_zero,
      read?_fields (Date.isValid_ofDays _) (by omega) (by omega) (by omega) plain, days,
      if_neg common, if_neg common, sum]
    · exact Instant.of?_eq_some_iff.mpr ⟨rfl, rfl⟩
    · rw [days, if_neg common, sum]
      exact ⟨low, high⟩
  · have last := leap inLeap
    have sixty : ofDay % 60 + 1 = 60 := by omega
    have sum : t.second / 86400 * 86400 +
        (ofDay / 3600 * 3600 + ofDay / 60 % 60 * 60 + 59 : Nat) = t.second := by omega
    rw [if_pos inLeap, if_pos inLeap, sixty,
      read?_fields (Date.isValid_ofDays _) (by omega) (by omega) (by omega) (by omega), days,
      if_pos rfl, if_pos rfl, sum]
    · exact Instant.of?_eq_some_iff.mpr ⟨rfl, by omega⟩
    · rw [days, if_pos rfl, sum]
      exact ⟨low, high⟩

end Rfc3339

end Keyring
