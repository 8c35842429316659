import Mathlib.Data.List.DropRight
import Mathlib.Data.List.Forall2
import Keyring.Access

/-!
# Bearer headers

A header holds a token if it is the word `bearer` in letters of either case, a space and the token,
with any blanks in front, behind the space and at the end. Only the space cannot be another blank.

* `BearerHeader` is a header by its parts; `BearerHeader.Proper` says what they are made of.
* `Proper.bearerToken` and `exists_proper` read a header in both directions, and `Proper.ext` says that
  the text settles the parts.
* `token_of_bearer_header` is the result about all headers.
-/

namespace Keyring

/-! ## Words in letters of either case -/

/-- The text is the word, each of its letters as a small or as a capital one. -/
def InEitherCase (word text : List Char) : Prop :=
  List.Forall₂ (fun c letter => c = letter ∨ c = letter.toUpper) text word

theorem toNat_toLower (c : Char) :
    c.toLower.toNat = if 65 ≤ c.toNat ∧ c.toNat ≤ 90 then c.toNat + 32 else c.toNat := by
  have range : (c.val ≥ 'A'.val ∧ c.val ≤ 'Z'.val) ↔ 65 ≤ c.toNat ∧ c.toNat ≤ 90 := Iff.rfl
  unfold Char.toLower
  split
  · rename_i capital
    rw [if_pos (range.mp capital)]
    have bound : c.toNat ≤ 90 := capital.2
    exact Nat.mod_eq_of_lt (show c.toNat + 32 < 4294967296 by omega)
  · rename_i other
    rw [if_neg (range.not.mp other)]

theorem toNat_toUpper {c : Char} (small : 97 ≤ c.toNat ∧ c.toNat ≤ 122) :
    c.toUpper.toNat = c.toNat - 32 := by
  have range : 'a'.val ≤ c.val ∧ c.val ≤ 'z'.val := small
  have sum : (c.val + ('A'.val - 'a'.val)).toNat = (c.toNat + 4294967264) % 4294967296 :=
    UInt32.toNat_add _ _
  have turned : (c.toNat + 4294967264) % 4294967296 = c.toNat - 32 := by omega
  unfold Char.toUpper
  rw [dif_pos range, ← turned, ← sum]
  rfl

theorem toLower_eq_iff {c letter : Char} (small : letter.isLower = true) :
    c.toLower = letter ↔ c = letter ∨ c = letter.toUpper := by
  have range : 97 ≤ letter.toNat ∧ letter.toNat ≤ 122 := by
    obtain ⟨lower, upper⟩ := Bool.and_eq_true_iff.mp small
    exact ⟨of_decide_eq_true lower, of_decide_eq_true upper⟩
  rw [← Char.toNat_inj, ← Char.toNat_inj, ← Char.toNat_inj, toNat_toLower, toNat_toUpper range]
  split <;> omega

theorem map_toLower_eq_iff {word : List Char} (small : ∀ letter ∈ word, letter.isLower = true)
    (text : List Char) : text.map Char.toLower = word ↔ InEitherCase word text := by
  induction word generalizing text with
  | nil => simp [InEitherCase]
  | cons letter word ih =>
    obtain ⟨first, others⟩ := List.forall_mem_cons.mp small
    cases text with
    | nil => simp [InEitherCase]
    | cons c text =>
      rw [List.map_cons, List.cons.injEq, toLower_eq_iff first, ih others, InEitherCase,
        InEitherCase, List.forall₂_cons]

/-! ## Runs of characters -/

section Runs

variable {p : Char → Bool} {run run' rest rest' : List Char}

theorem span_append (inside : ∀ c ∈ run, p c = true) (stop : ∀ c ∈ rest.head?, p c = false) :
    (run ++ rest).takeWhile p = run ∧ (run ++ rest).dropWhile p = rest := by
  rw [List.takeWhile_append_of_pos inside, List.dropWhile_append_of_pos inside]
  cases rest with
  | nil => simp
  | cons c rest =>
    have stop : p c = false := stop c rfl
    simp [stop]

/-- A text settles where a run in front ends. -/
theorem eq_of_run_append_eq (inside : ∀ c ∈ run, p c = true)
    (stop : ∀ c ∈ rest.head?, p c = false) (inside' : ∀ c ∈ run', p c = true)
    (stop' : ∀ c ∈ rest'.head?, p c = false) (same : run ++ rest = run' ++ rest') :
    run = run' ∧ rest = rest' := by
  obtain ⟨taken, left⟩ := span_append inside stop
  obtain ⟨taken', left'⟩ := span_append inside' stop'
  rw [same] at taken left
  exact ⟨taken.symm.trans taken', left.symm.trans left'⟩

end Runs

namespace Blank

/-- A text that is not empty, and neither begins nor ends with a blank. -/
structure Solid (cs : List Char) : Prop where
  nonempty : cs ≠ []
  first : ∀ c ∈ cs.head?, isBlank c = false
  last : ∀ c ∈ cs.getLast?, isBlank c = false

variable {front cs behind : List Char}

theorem Solid.first_append (solid : Solid cs) (behind : List Char) :
    ∀ c ∈ (cs ++ behind).head?, isBlank c = false := by
  rw [List.head?_append_of_ne_nil _ solid.nonempty]
  exact solid.first

theorem Solid.last_append (front : List Char) (solid : Solid cs) :
    ∀ c ∈ (front ++ cs).reverse.head?, isBlank c = false := by
  rw [List.head?_reverse, List.getLast?_append_of_ne_nil _ solid.nonempty]
  exact solid.last

theorem trim_append (before : ∀ c ∈ front, isBlank c = true) (solid : Solid cs)
    (after : ∀ c ∈ behind, isBlank c = true) : trim (front ++ cs ++ behind) = cs := by
  have left : trimStart (front ++ (cs ++ behind)) = cs ++ behind :=
    (span_append before (solid.first_append behind)).2
  have right : (behind.reverse ++ cs.reverse).dropWhile isBlank = cs.reverse :=
    (span_append (by simpa using after) (solid.last_append [])).2
  rw [List.append_assoc, trim, left, trimEnd, List.reverse_append, right, List.reverse_reverse]

/-- Trimming takes away nothing but blanks. -/
theorem exists_blanks (cs : List Char) :
    ∃ front behind, (∀ c ∈ front, isBlank c = true) ∧ (∀ c ∈ behind, isBlank c = true) ∧
      cs = front ++ trim cs ++ behind := by
  refine ⟨cs.takeWhile isBlank, ((trimStart cs).reverse.takeWhile isBlank).reverse,
    fun c mem => List.mem_takeWhile_imp mem,
    fun c mem => List.mem_takeWhile_imp (List.mem_reverse.mp mem), ?_⟩
  have right : trimStart cs =
      trimEnd (trimStart cs) ++ ((trimStart cs).reverse.takeWhile isBlank).reverse := by
    rw [trimEnd, ← List.reverse_append, List.takeWhile_append_dropWhile, List.reverse_reverse]
  rw [List.append_assoc, trim, ← right, trimStart, List.takeWhile_append_dropWhile]

theorem solid_trim (nonempty : trim cs ≠ []) : Solid (trim cs) where
  nonempty := nonempty
  first := by
    intro c mem
    obtain ⟨rest, whole⟩ : trim cs <+: trimStart cs := List.rdropWhile_prefix isBlank (trimStart cs)
    have head : (cs.dropWhile isBlank).head? = some c := by
      change (trimStart cs).head? = some c
      rw [← whole, List.head?_append_of_ne_nil _ nonempty]
      exact mem
    have stop := List.head?_dropWhile_not isBlank cs
    rw [head] at stop
    exact stop
  last := by
    intro c mem
    have head : ((trimStart cs).reverse.dropWhile isBlank).head? = some c := by
      rw [trim, trimEnd, List.getLast?_reverse] at mem
      exact mem
    have stop := List.head?_dropWhile_not isBlank (trimStart cs).reverse
    rw [head] at stop
    exact stop

end Blank

/-! ## Headers by their parts -/

/-- The parts of a header. The space that ends the scheme is none of them. -/
@[ext]
structure BearerHeader where
  front : List Char
  scheme : List Char
  gap : List Char
  token : List Char
  behind : List Char

namespace BearerHeader

def text (h : BearerHeader) : List Char :=
  h.front ++ h.scheme ++ ' ' :: h.gap ++ h.token ++ h.behind

structure Proper (h : BearerHeader) : Prop where
  front : ∀ c ∈ h.front, Blank.isBlank c = true
  scheme : InEitherCase "bearer".toList h.scheme
  gap : ∀ c ∈ h.gap, Blank.isBlank c = true
  token : Blank.Solid h.token
  behind : ∀ c ∈ h.behind, Blank.isBlank c = true

variable {h h' : BearerHeader} {header token : String} {scheme : List Char}

theorem inEitherCase_bearer_iff :
    InEitherCase "bearer".toList scheme ↔ scheme.map Char.toLower = "bearer".toList :=
  (map_toLower_eq_iff (by simp) scheme).symm

theorem not_blank_of_bearer (spelled : InEitherCase "bearer".toList scheme) :
    ∀ c ∈ scheme, Blank.isBlank c = false := by
  have letters : ∀ letter ∈ "bearer".toList,
      Blank.isBlank letter = false ∧ Blank.isBlank letter.toUpper = false := by
    simp [Blank.isBlank, Blank.ranges]
  intro c mem
  obtain ⟨i, hi, rfl⟩ := List.getElem_of_mem mem
  obtain ⟨length, each⟩ := List.forall₂_iff_get.mp spelled
  have known := letters _ (List.getElem_mem (length ▸ hi))
  rcases each i hi (length ▸ hi) with small | capital
  · rw [List.get_eq_getElem] at small
    exact small ▸ known.1
  · rw [List.get_eq_getElem] at capital
    exact capital ▸ known.2

/-- The scheme goes up to the first space. -/
theorem no_space_of_bearer (spelled : InEitherCase "bearer".toList scheme) :
    ∀ c ∈ scheme, (c != ' ') = true := by
  intro c mem
  refine bne_iff_ne.mpr ?_
  rintro rfl
  cases not_blank_of_bearer spelled ' ' mem

theorem first_of_bearer (spelled : InEitherCase "bearer".toList scheme) (rest : List Char) :
    ∀ c ∈ (scheme ++ rest).head?, Blank.isBlank c = false := by
  have nonempty : scheme ≠ [] := by
    rintro rfl
    cases spelled
  rw [List.head?_append_of_ne_nil _ nonempty]
  exact fun c mem => not_blank_of_bearer spelled c (List.mem_of_head? mem)

namespace Proper

theorem solid (proper : h.Proper) : Blank.Solid (h.scheme ++ ' ' :: h.gap ++ h.token) where
  nonempty := by simp
  first := by
    rw [List.append_assoc]
    exact first_of_bearer proper.scheme _
  last := by
    have last := proper.token.last_append (h.scheme ++ ' ' :: h.gap)
    rwa [List.head?_reverse] at last

/-- The token of a header is read from it. -/
theorem bearerToken (proper : h.Proper) (written : header.toList = h.text) :
    bearerToken header = some (String.ofList h.token) := by
  have trimmed : Blank.trim header.toList = h.scheme ++ ' ' :: (h.gap ++ h.token) := by
    have whole : header.toList =
        h.front ++ (h.scheme ++ ' ' :: h.gap ++ h.token) ++ h.behind := by
      simp [written, text]
    rw [whole, Blank.trim_append proper.front proper.solid proper.behind]
    simp
  have space : ∀ c ∈ (' ' :: (h.gap ++ h.token)).head?, (c != ' ') = false := by simp
  obtain ⟨scheme, rest⟩ := span_append (no_space_of_bearer proper.scheme) space
  have spelled : h.scheme.map Char.toLower = "bearer".toList :=
    inEitherCase_bearer_iff.mp proper.scheme
  have token : Blank.trim (h.gap ++ h.token) = h.token := by
    have nothing : ∀ c ∈ [], Blank.isBlank c = true := by simp
    have ends := Blank.trim_append proper.gap proper.token nothing
    rwa [List.append_nil] at ends
  simp only [Keyring.bearerToken, trimmed, scheme, rest, spelled, token]
  simp [proper.token.nonempty]

/-- A text has one way only to be a header. -/
theorem ext (proper : h.Proper) (proper' : h'.Proper) (same : h.text = h'.text) : h = h' := by
  have parts (h : BearerHeader) :
      h.text = h.front ++ (h.scheme ++ ' ' :: (h.gap ++ (h.token ++ h.behind))) := by simp [text]
  rw [parts, parts] at same
  obtain ⟨front, same⟩ := eq_of_run_append_eq proper.front (first_of_bearer proper.scheme _)
    proper'.front (first_of_bearer proper'.scheme _) same
  obtain ⟨scheme, same⟩ := eq_of_run_append_eq (no_space_of_bearer proper.scheme) (by simp)
    (no_space_of_bearer proper'.scheme) (by simp) same
  obtain ⟨gap, same⟩ := eq_of_run_append_eq proper.gap (proper.token.first_append _) proper'.gap
    (proper'.token.first_append _) (List.cons.inj same).2
  have turned := congrArg List.reverse same
  rw [List.reverse_append, List.reverse_append] at turned
  obtain ⟨behind, token⟩ := eq_of_run_append_eq (by simpa using proper.behind)
    (proper.token.last_append []) (by simpa using proper'.behind) (proper'.token.last_append [])
    turned
  exact BearerHeader.ext front scheme gap (List.reverse_inj.mp token) (List.reverse_inj.mp behind)

end Proper

/-- A header from which a token is read has proper parts. -/
theorem exists_proper (read : bearerToken header = some token) :
    ∃ h : BearerHeader, h.Proper ∧ header.toList = h.text ∧ token.toList = h.token := by
  obtain ⟨front, behind, before, after, whole⟩ := Blank.exists_blanks header.toList
  simp only [bearerToken] at read
  generalize Blank.trim header.toList = trimmed at whole read
  have split := List.takeWhile_append_dropWhile (p := (· != ' ')) (l := trimmed)
  have stop := List.head?_dropWhile_not (· != ' ') trimmed
  generalize trimmed.takeWhile (· != ' ') = scheme at split read
  cases dropped : trimmed.dropWhile (· != ' ') with
  | nil =>
    rw [dropped] at read
    cases read
  | cons c rest =>
    rw [dropped] at read split stop
    obtain rfl : c = ' ' := by simpa using stop
    obtain ⟨gap, last, blanks, blanks', parts⟩ := Blank.exists_blanks rest
    have solid : Blank.trim rest ≠ [] → Blank.Solid (Blank.trim rest) := Blank.solid_trim
    dsimp only at read
    generalize Blank.trim rest = inner at parts solid read
    split at read
    · rename_i accepted
      cases read
      have nonempty : inner ≠ [] := by simpa using accepted.2
      refine ⟨⟨front, scheme, gap, inner, last ++ behind⟩, ?_, ?_, ?_⟩
      · refine ⟨before, inEitherCase_bearer_iff.mpr accepted.1, blanks, solid nonempty, ?_⟩
        intro c mem
        exact (List.mem_append.mp mem).elim (blanks' c) (after c)
      · rw [whole, ← split, parts]
        simp [text]
      · simp
    · cases read

/-- Only a space may follow the scheme. -/
theorem bearerToken_of_other_separator {front : List Char}
    (blank : ∀ c ∈ front, Blank.isBlank c = true)
    (spelled : InEitherCase "bearer".toList scheme) {c : Char} (other : c ≠ ' ')
    (rest : List Char) :
    bearerToken (String.ofList (front ++ scheme ++ c :: rest)) = none := by
  cases read : bearerToken (String.ofList (front ++ scheme ++ c :: rest)) with
  | none => rfl
  | some token =>
    obtain ⟨h, proper, written, -⟩ := exists_proper read
    have same : front ++ (scheme ++ c :: rest) =
        h.front ++ (h.scheme ++ ' ' :: (h.gap ++ (h.token ++ h.behind))) := by
      simpa [text] using written
    obtain ⟨-, same⟩ := eq_of_run_append_eq blank (first_of_bearer spelled _) proper.front
      (first_of_bearer proper.scheme _) same
    have length : scheme.length = h.scheme.length :=
      spelled.length_eq.trans proper.scheme.length_eq.symm
    exact absurd (List.cons.inj (List.append_inj same length).2).1 other

end BearerHeader

/-- A header bears a token exactly if it is made of proper parts with this token, and there is one way
only to take it apart. So what is inside the token stays, blanks included, and no blank but the space
may follow the scheme. -/
theorem token_of_bearer_header :
    (∀ header token : String, bearerToken header = some token ↔
      ∃ h : BearerHeader, h.Proper ∧ header.toList = h.text ∧ token.toList = h.token) ∧
    (∀ header : String, bearerToken header = none ↔
      ∀ h : BearerHeader, h.Proper → header.toList ≠ h.text) ∧
    (∀ h h' : BearerHeader, h.Proper → h'.Proper → h.text = h'.text → h = h') ∧
    (∀ token : String, Blank.Solid token.toList → bearerToken ("Bearer " ++ token) = some token) ∧
    ∀ front scheme rest c, (∀ b ∈ front, Blank.isBlank b = true) →
      InEitherCase "bearer".toList scheme → c ≠ ' ' →
        bearerToken (String.ofList (front ++ scheme ++ c :: rest)) = none := by
  have reads (header token : String) : bearerToken header = some token ↔
      ∃ h : BearerHeader, h.Proper ∧ header.toList = h.text ∧ token.toList = h.token := by
    refine ⟨BearerHeader.exists_proper, ?_⟩
    rintro ⟨h, proper, written, tokens⟩
    rw [proper.bearerToken written, ← tokens, String.ofList_toList]
  refine ⟨reads, ?_, fun h h' => BearerHeader.Proper.ext, ?_, ?_⟩
  · intro header
    constructor
    · intro none h proper written
      rw [proper.bearerToken written] at none
      cases none
    · intro improper
      cases read : bearerToken header with
      | none => rfl
      | some token =>
        obtain ⟨h, proper, written, -⟩ := BearerHeader.exists_proper read
        exact absurd written (improper h proper)
  · intro token solid
    refine (reads _ _).mpr ⟨⟨[], "Bearer".toList, [], token.toList, []⟩, ?_, ?_, rfl⟩
    · exact ⟨by simp, BearerHeader.inEitherCase_bearer_iff.mpr (by simp), by simp, solid, by simp⟩
    · simp [BearerHeader.text]
  · intro front scheme rest c blank spelled other
    exact BearerHeader.bearerToken_of_other_separator blank spelled other rest

example : bearerToken "\t bEARER   two words " = some "two words" := by decide +kernel

end Keyring
