import Mathlib.Data.List.Basic
import Keyring.Time.Duration

/-!
# Durations as text invert

Every duration is read again from the text that it is written as: counts of smaller and smaller units,
those of zero left out.

* `Count` is a number of a unit, and `Count.Legible` says when its text can be read.
* `addGroups?_count` reads one count, `ofSpelled?_counts` any number of them.
* `ofSpelled?_spelled` is about the counts of a duration.
-/

namespace Keyring.Duration

/-! ## Amounts -/

theorem ext_inNanos {d t : Duration} (h : d.inNanos = t.inNanos) : d = t := by
  obtain ⟨seconds, nanos, seconds_lt, nanos_lt⟩ := d
  obtain ⟨seconds', nanos', seconds_lt', nanos_lt'⟩ := t
  unfold inNanos at h
  dsimp only at h
  obtain ⟨rfl, rfl⟩ : seconds = seconds' ∧ nanos = nanos' := by omega
  rfl

theorem inNanos_lt (d : Duration) : d.inNanos < 0x10000000000000000 * 1000000000 := by
  have seconds_lt := d.seconds_lt
  have nanos_lt := d.nanos_lt
  unfold inNanos
  omega

theorem inNanos_ofNanos {n : Nat} (h : n < 0x10000000000000000 * 1000000000) :
    (ofNanos n).inNanos = n := by
  unfold inNanos ofNanos
  dsimp only
  omega

def Step.inNanos : Step → Nat
  | .seconds n => n * 1000000000
  | .nanos n => n

theorem Step.inNanos_seconds (n : Nat) : (Step.seconds n).inNanos = n * 1000000000 := rfl

theorem Step.inNanos_nanos (n : Nat) : (Step.nanos n).inNanos = n := rfl

theorem of?_eq_some {seconds nanos : Nat} {t : Duration} (hs : seconds = t.seconds)
    (hn : nanos = t.nanos) : of? seconds nanos = some t := by
  subst hs hn
  exact dif_pos ⟨t.seconds_lt, t.nanos_lt⟩

theorem word?_of_lt {n : Nat} (h : n < 0x10000000000000000) : word? n = some n := if_pos h

/-- Steps are added exactly. Nanoseconds are less than a second here: more of them are counted in words
before they are carried over. -/
theorem addSteps?_eq_some {d t : Duration} {n : Nat} {step : Step}
    (fits : ∀ k, step = .nanos k → n * k < 1000000000)
    (sum : d.inNanos + n * step.inNanos = t.inNanos) : addSteps? d n step = some t := by
  have seconds_lt := t.seconds_lt
  have nanos_lt := t.nanos_lt
  have nanos_lt' := d.nanos_lt
  cases step with
  | seconds k =>
    rw [Step.inNanos, ← Nat.mul_assoc] at sum
    unfold inNanos at sum
    have added : word? (n * k) = some (n * k) := word?_of_lt (by omega)
    simp only [addSteps?, added, Option.bind_eq_bind, Option.bind_some]
    exact of?_eq_some (by omega) (by omega)
  | nanos k =>
    have small := fits k rfl
    rw [Step.inNanos] at sum
    unfold inNanos at sum
    have added : word? (n * k) = some (n * k) := word?_of_lt (by omega)
    have carried : word? (d.nanos + n * k) = some (d.nanos + n * k) := word?_of_lt (by omega)
    simp only [addSteps?, added, carried, Option.bind_eq_bind, Option.bind_some]
    exact of?_eq_some (by omega) (by omega)

/-! ## Groups -/

/-- Names of units are letters, and these end a number. -/
theorem letters_of_unit? {name : List Char} {u : Unit} (h : unit? name = some u) :
    name ≠ [] ∧ ∀ c ∈ name, isUnitChar c = true ∧ isNumberChar c = false ∧ c ≠ '.' := by
  have names : (units.all fun u => u.names.all fun s => !s.toList.isEmpty &&
      s.toList.all fun c => isUnitChar c && !isNumberChar c && c != '.') = true := by
    decide +kernel
  unfold unit? at h
  have found := List.find?_some h
  obtain ⟨s, mem, same⟩ := List.any_eq_true.mp found
  obtain rfl : s.toList = name := eq_of_beq same
  have own := List.all_eq_true.mp (List.all_eq_true.mp names u (List.mem_of_find?_eq_some h)) s mem
  simpa [and_assoc] using own

theorem spanNumber_digits (n : Nat) {c : Char} (stop : isNumberChar c = false) (tail : List Char) :
    spanNumber (Decimal.digits n ++ c :: tail) = (Decimal.digits n, c :: tail) := by
  have number : ∀ d ∈ Decimal.digits n, isNumberChar d = true := by
    intro d hd
    simp [isNumberChar, Decimal.isDigit_of_mem_digits hd]
  have digits : (Decimal.digits n).filter Decimal.isDigit = Decimal.digits n :=
    List.filter_eq_self.mpr fun d hd => Decimal.isDigit_of_mem_digits hd
  rw [spanNumber, List.takeWhile_append_of_pos number, List.dropWhile_append_of_pos number]
  simp [stop, digits]

/-- What follows a unit ends its name. -/
def Ends (rest : List Char) : Prop := ∀ c ∈ rest.head?, isUnitChar c = false

theorem group?_digits {name rest : List Char} {u : Unit} (n : Nat) (named : unit? name = some u)
    (ends : Ends rest) :
    group? (Decimal.digits n ++ (name ++ rest)) = some (⟨Decimal.digits n, none, name⟩, rest) := by
  obtain ⟨nonempty, letters⟩ := letters_of_unit? named
  have unit : ∀ c ∈ name, isUnitChar c = true := fun c hc => (letters c hc).1
  have behind : (name ++ rest).takeWhile isUnitChar = name ∧
      (name ++ rest).dropWhile isUnitChar = rest := by
    rw [List.takeWhile_append_of_pos unit, List.dropWhile_append_of_pos unit]
    cases rest with
    | nil => simp
    | cons c tail =>
      have stop : isUnitChar c = false := ends c rfl
      simp [stop]
  obtain ⟨c, tail, rfl⟩ := List.exists_cons_of_ne_nil nonempty
  obtain ⟨-, stop, other⟩ := letters c List.mem_cons_self
  unfold group?
  rw [List.cons_append, spanNumber_digits n stop]
  rw [List.cons_append] at behind
  simp only [Option.bind_eq_bind]
  split
  · rename_i heq
    exact absurd (List.cons.inj heq).1 other
  · simp only [Option.bind_some, behind.1, behind.2, List.isEmpty_cons, Bool.false_eq_true,
      if_false]

/-! ## Counts -/

/-- A number of a unit. -/
structure Count where
  number : Nat
  unit : String
  worth : Step

namespace Count

def chars (c : Count) : List Char := Decimal.digits c.number ++ c.unit.toList

def inNanos (c : Count) : Nat := c.number * c.worth.inNanos

/-- What counts amount to. -/
def total : List Count → Nat
  | [] => 0
  | c :: cs => c.inNanos + total cs

/-- The count can be read: its number is a word, its unit is known, and what it counts in nanoseconds
is less than a second. -/
structure Legible (c : Count) : Prop where
  word : c.number < 0x10000000000000000
  named : ∃ u, unit? c.unit.toList = some u ∧ u.worth = c.worth
  fits : ∀ k, c.worth = .nanos k → c.number * k < 1000000000

end Count

variable {c : Count} {cs : List Count} {d t : Duration} {rest : List Char}

/-- A count adds its amount, and what follows is read next. -/
theorem addGroups?_count (legible : c.Legible) {blanks : List Char}
    (blank : ∀ b ∈ blanks, Blank.isBlank b = true) (sum : d.inNanos + c.inNanos = t.inNanos)
    (ends : Ends rest) : addGroups? d (blanks ++ (c.chars ++ rest)) = addGroups? t rest := by
  obtain ⟨u, named, worth⟩ := legible.named
  have front : Blank.trimStart (blanks ++ (c.chars ++ rest)) =
      Decimal.digits c.number ++ (c.unit.toList ++ rest) := by
    rw [Blank.trimStart, List.dropWhile_append_of_pos blank, ← Blank.trimStart, Count.chars,
      List.append_assoc]
    exact Blank.trimStart_digits (fun _ => Decimal.isDigit_of_mem_digits) (Decimal.digits_ne_nil _)
  have group := group?_digits c.number named ends
  have added : addGroup? d ⟨Decimal.digits c.number, none, c.unit.toList⟩ = some t := by
    have steps := addSteps?_eq_some legible.fits sum
    simp [addGroup?, named, Decimal.value_digits, word?_of_lt legible.word, worth, steps]
  have shorter : rest.length < (blanks ++ (c.chars ++ rest)).length := by
    have positive := List.length_pos_of_ne_nil (Decimal.digits_ne_nil c.number)
    simp only [Count.chars, List.length_append]
    omega
  obtain ⟨first, digits, eq⟩ := List.exists_cons_of_ne_nil (Decimal.digits_ne_nil c.number)
  have isDigit : Decimal.isDigit first = true :=
    Decimal.isDigit_of_mem_digits (eq ▸ List.mem_cons_self)
  rw [addGroups?, front]
  rw [eq] at group ⊢
  simp only [List.cons_append, isDigit, if_true]
  rw [List.cons_append] at group
  simp only [group]
  rw [dif_pos shorter, ← eq, added]

theorem ends_spaced (cs : List Count) : Ends (cs.flatMap fun c => ' ' :: c.chars) := by
  cases cs with
  | nil => exact nofun
  | cons c cs =>
    rintro _ ⟨⟩
    decide

/-- Counts with a space before each add their amounts. -/
theorem addGroups?_counts (legible : ∀ c ∈ cs, c.Legible)
    (sum : d.inNanos + Count.total cs = t.inNanos) :
    addGroups? d (cs.flatMap fun c => ' ' :: c.chars) = some t := by
  induction cs generalizing d with
  | nil =>
    rw [Count.total, Nat.add_zero] at sum
    obtain rfl : d = t := ext_inNanos sum
    rw [List.flatMap_nil, addGroups?]
    rfl
  | cons c cs ih =>
    obtain ⟨first, others⟩ := List.forall_mem_cons.mp legible
    rw [Count.total] at sum
    have range := t.inNanos_lt
    have between : d.inNanos + c.inNanos = (ofNanos (d.inNanos + c.inNanos)).inNanos :=
      (inNanos_ofNanos (by omega)).symm
    have blank : ∀ b ∈ [' '], Blank.isBlank b = true := List.forall_mem_singleton.mpr rfl
    have step := addGroups?_count first blank between (ends_spaced cs)
    rw [List.flatMap_cons]
    refine step.trans (ih others ?_)
    rw [← between]
    omega

theorem spaced_eq (c : Count) (cs : List Count) :
    [' '].intercalate ((c :: cs).map Count.chars) =
      c.chars ++ cs.flatMap fun c => ' ' :: c.chars := by
  induction cs generalizing c with
  | nil => simp
  | cons next cs ih =>
    have split : [' '].intercalate ((c :: next :: cs).map Count.chars) =
        c.chars ++ ' ' :: [' '].intercalate ((next :: cs).map Count.chars) := by
      simp [List.intercalate]
    rw [split, ih]
    simp

theorem ofSpelled?_counts (legible : ∀ c ∈ cs, c.Legible) (nonempty : cs ≠ [])
    (sum : Count.total cs = t.inNanos) :
    ofSpelled? ([' '].intercalate (cs.map Count.chars)) = some t := by
  obtain ⟨c, cs, rfl⟩ := List.exists_cons_of_ne_nil nonempty
  obtain ⟨first, others⟩ := List.forall_mem_cons.mp legible
  rw [Count.total] at sum
  have range := t.inNanos_lt
  have amount : (ofNanos c.inNanos).inNanos = c.inNanos := inNanos_ofNanos (by omega)
  have groups : addGroups? zero (c.chars ++ cs.flatMap fun c => ' ' :: c.chars) = some t := by
    have blank : ∀ b ∈ [], Blank.isBlank b = true := nofun
    have start : zero.inNanos + c.inNanos = (ofNanos c.inNanos).inNanos :=
      (Nat.zero_add _).trans amount.symm
    refine (addGroups?_count first blank start (ends_spaced cs)).trans ?_
    refine addGroups?_counts others ?_
    rw [amount, sum]
  have digits := Decimal.digits_ne_nil c.number
  have front : Blank.trimStart (c.chars ++ cs.flatMap fun c => ' ' :: c.chars) =
      c.chars ++ cs.flatMap fun c => ' ' :: c.chars := by
    rw [Count.chars, List.append_assoc]
    exact Blank.trimStart_digits (fun _ => Decimal.isDigit_of_mem_digits) digits
  have long : 2 ≤ c.chars.length := by
    obtain ⟨u, named, -⟩ := first.named
    have letters := List.length_pos_of_ne_nil (letters_of_unit? named).1
    have numeral := List.length_pos_of_ne_nil digits
    rw [Count.chars, List.length_append]
    omega
  have other : c.chars ++ cs.flatMap (fun c => ' ' :: c.chars) ≠ ['0'] := by
    intro same
    have length := congrArg List.length same
    rw [List.length_append, List.length_singleton] at length
    omega
  rw [spaced_eq, ofSpelled?, if_neg other, front, groups]
  refine if_neg ?_
  simp [Count.chars, digits]

/-! ## The counts of a duration -/

/-- A count whose unit takes an `s` above one. -/
def Count.plural (number : Nat) (unit : String) (worth : Step) : Count :=
  ⟨number, if number > 1 then unit ++ "s" else unit, worth⟩

theorem Count.inNanos_mk (number : Nat) (unit : String) (worth : Step) :
    Count.inNanos ⟨number, unit, worth⟩ = number * worth.inNanos := rfl

theorem Count.inNanos_plural (number : Nat) (unit : String) (worth : Step) :
    (Count.plural number unit worth).inNanos = number * worth.inNanos := rfl

def counts (d : Duration) : List Count :=
  let inYear := d.seconds % 31557600
  let inMonth := inYear % 2630016
  let inDay := inMonth % 86400
  [.plural (d.seconds / 31557600) "year" (.seconds 31557600),
   .plural (inYear / 2630016) "month" (.seconds 2630016),
   .plural (inMonth / 86400) "day" (.seconds 86400),
   ⟨inDay / 3600, "h", .seconds 3600⟩, ⟨inDay / 60 % 60, "m", .seconds 60⟩,
   ⟨inDay % 60, "s", .seconds 1⟩, ⟨d.nanos / 1000000, "ms", .nanos 1000000⟩,
   ⟨d.nanos / 1000 % 1000, "us", .nanos 1000⟩, ⟨d.nanos % 1000, "ns", .nanos 1⟩]

theorem seconds_of_hours (n : Nat) : n / 3600 * 3600 + n / 60 % 60 * 60 + n % 60 = n := by omega

theorem nanos_of_millis (n : Nat) :
    n / 1000000 * 1000000 + n / 1000 % 1000 * 1000 + n % 1000 = n := by omega

theorem seconds_of_years (n : Nat) :
    n / 31557600 * 31557600 + (n % 31557600 / 2630016 * 2630016 +
      (n % 31557600 % 2630016 / 86400 * 86400 + n % 31557600 % 2630016 % 86400)) = n := by
  rw [Nat.div_add_mod', Nat.div_add_mod', Nat.div_add_mod']

theorem total_counts (d : Duration) : Count.total d.counts = d.inNanos := by
  have amounts (years months days hours minutes seconds millis micros nanos : Nat) :
      years * (31557600 * 1000000000) + (months * (2630016 * 1000000000) +
        (days * (86400 * 1000000000) + (hours * (3600 * 1000000000) +
          (minutes * (60 * 1000000000) + (seconds * (1 * 1000000000) +
            (millis * 1000000 + (micros * 1000 + (nanos * 1 + 0)))))))) =
      (years * 31557600 + (months * 2630016 + (days * 86400 +
        (hours * 3600 + minutes * 60 + seconds)))) * 1000000000 +
        (millis * 1000000 + micros * 1000 + nanos) := by
    simp only [Nat.add_mul, Nat.mul_assoc, Nat.add_assoc, Nat.mul_one, Nat.one_mul, Nat.add_zero]
  unfold counts
  simp only [Count.total, Count.inNanos_mk, Count.inNanos_plural, Step.inNanos_seconds,
    Step.inNanos_nanos]
  rw [amounts, seconds_of_hours, seconds_of_years, nanos_of_millis, inNanos]

theorem legible_of_known {number worth : Nat} {unit : String} (word : number < 0x10000000000000000)
    (known : (unit? unit.toList).map (·.worth) = some (.seconds worth)) :
    Count.Legible ⟨number, unit, .seconds worth⟩ :=
  ⟨word, Option.map_eq_some_iff.mp known, nofun⟩

theorem legible_plural {number worth : Nat} {unit : String} (word : number < 0x10000000000000000)
    (one : (unit? unit.toList).map (·.worth) = some (.seconds worth))
    (many : (unit? (unit ++ "s").toList).map (·.worth) = some (.seconds worth)) :
    (Count.plural number unit (.seconds worth)).Legible := by
  unfold Count.plural
  split
  · exact legible_of_known word many
  · exact legible_of_known word one

theorem legible_nanos {number worth : Nat} {unit : String} (fits : number * worth < 1000000000)
    (positive : 0 < worth) (known : (unit? unit.toList).map (·.worth) = some (.nanos worth)) :
    Count.Legible ⟨number, unit, .nanos worth⟩ := by
  have small : number ≤ number * worth := Nat.le_mul_of_pos_right number positive
  refine ⟨by dsimp only; omega, Option.map_eq_some_iff.mp known, ?_⟩
  rintro _ ⟨⟩
  exact fits

theorem legible_counts (d : Duration) : ∀ c ∈ d.counts, c.Legible := by
  have word {n : Nat} (h : n ≤ d.seconds) (k : Nat) : n / k < 0x10000000000000000 :=
    Nat.lt_of_le_of_lt (Nat.le_trans (Nat.div_le_self n k) h) d.seconds_lt
  have small (n : Nat) {k : Nat} (hk : 0 < k ∧ k ≤ 60) : n % k < 0x10000000000000000 :=
    Nat.lt_trans (Nat.mod_lt n hk.1) (by omega)
  have millis {n : Nat} (h : n < 1000000000) : n / 1000000 * 1000000 < 1000000000 := by omega
  have micros (n : Nat) : n / 1000 % 1000 * 1000 < 1000000000 := by omega
  have nanos (n : Nat) : n % 1000 * 1 < 1000000000 := by omega
  have inYear := Nat.mod_le d.seconds 31557600
  have inMonth := Nat.le_trans (Nat.mod_le (d.seconds % 31557600) 2630016) inYear
  have inDay := Nat.le_trans (Nat.mod_le (d.seconds % 31557600 % 2630016) 86400) inMonth
  simp only [counts, List.forall_mem_cons]
  refine ⟨?year, ?month, ?day, ?hour, ?minute, ?second, ?milli, ?micro, ?nano, nofun⟩
  case year => exact legible_plural (word (Nat.le_refl _) _) (by decide +kernel) (by decide +kernel)
  case month => exact legible_plural (word inYear _) (by decide +kernel) (by decide +kernel)
  case day => exact legible_plural (word inMonth _) (by decide +kernel) (by decide +kernel)
  case hour => exact legible_of_known (word inDay _) (by decide +kernel)
  case minute => exact legible_of_known (small _ (by decide)) (by decide +kernel)
  case second => exact legible_of_known (small _ (by decide)) (by decide +kernel)
  case milli => exact legible_nanos (millis d.nanos_lt) (by decide) (by decide +kernel)
  case micro => exact legible_nanos (micros d.nanos) (by decide) (by decide +kernel)
  case nano => exact legible_nanos (nanos d.nanos) (by decide) (by decide +kernel)

theorem parts_eq (d : Duration) :
    d.parts = (d.counts.filter (·.number != 0)).map Count.chars := by
  have parts (cs : List Count) : (cs.filter (·.number != 0)).map Count.chars =
      cs.flatMap fun c => part c.number c.unit := by
    induction cs with
    | nil => rfl
    | cons c cs ih =>
      by_cases zero : c.number = 0
      · simp [part, zero, ih]
      · simp [part, zero, ih, Count.chars]
  rw [parts]
  simp [Duration.parts, counts, pluralPart, Count.plural]

theorem total_filter (cs : List Count) :
    Count.total (cs.filter (·.number != 0)) = Count.total cs := by
  induction cs with
  | nil => rfl
  | cons c cs ih =>
    by_cases zero : c.number = 0
    · simp [zero, ih, Count.total, Count.inNanos]
    · simp [zero, ih, Count.total]

/-- A duration is read from its text. -/
theorem ofSpelled?_spelled (d : Duration) : ofSpelled? d.spelled = some d := by
  unfold spelled
  split
  · rename_i nothing
    have amount : d.inNanos = 0 := by
      obtain ⟨seconds, nanos⟩ : d.seconds = 0 ∧ d.nanos = 0 := by simpa [isZero] using nothing
      rw [inNanos, seconds, nanos]
    have second : Count.Legible ⟨0, "s", .seconds 1⟩ :=
      legible_of_known (by decide) (by decide +kernel)
    have text : [' '].intercalate ([⟨0, "s", .seconds 1⟩].map Count.chars) = ['0', 's'] := by
      simp [Count.chars]
    rw [← text]
    exact ofSpelled?_counts (List.forall_mem_singleton.mpr second) nofun amount.symm
  · rename_i something
    rw [parts_eq]
    refine ofSpelled?_counts (fun c hc => d.legible_counts c (List.mem_of_mem_filter hc)) ?_ ?_
    · intro none
      have amount : d.inNanos = 0 := by
        rw [← d.total_counts, ← total_filter, none, Count.total]
      refine something ?_
      unfold inNanos at amount
      simp only [isZero, Bool.and_eq_true, beq_iff_eq]
      omega
    · exact (total_filter d.counts).trans d.total_counts

end Keyring.Duration
