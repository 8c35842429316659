import Keyring.Json.Reader
import Keyring.Proofs.JsonSpelling

/-!
# What is written is JSON

What is written lays out the tokens of the value, without blanks. So it is read as the same value
again.

* `Laid` is a value with how it is written and with its tokens; `Laid.text`, `Laid.natural`,
  `Laid.integer`, `Laid.array` and `Laid.object` are the values of each kind.
* `exists_lays`: objects of such values can be written.
* `Shape.entries_entry` reads the entries of an object one by one.
-/

namespace Keyring.Json

/-- The octets of a whole number of 64 bits with sign. -/
def IsWord (n : Int) : Prop := -0x8000000000000000 ≤ n ∧ n < 0x8000000000000000

/-! ## Values -/

theorem form_text (s : String) :
    (Token.text s).Form (Bytes.ofChars (Writer.text s)) := by
  have quoted : Bytes.ofChars (Writer.text s) =
      34 :: Bytes.ofChars (s.toList.flatMap Writer.escape) ++ [34] := by
    rw [Writer.text, List.cons_append, Bytes.ofChars_cons, Bytes.ofChars_append]
    rfl
  rw [quoted]
  exact .text s _ (Text.spells_escapes s)

theorem form_integer {n : Int} (word : IsWord n) :
    (Token.ofInt n).Form (Bytes.ofChars (Writer.integer n)) := by
  cases n with
  | ofNat n =>
    have small : n < 0x8000000000000000 := Int.ofNat_lt.mp word.2
    exact .natural n (by omega)
  | negSucc n =>
    have low := word.1
    exact .negative (n + 1) (by omega)

/-- What follows a value ends it. -/
def Closes (rest : Bytes) : Prop := ∀ b tail, rest = b :: tail → b = 44 ∨ b = 93 ∨ b = 125

theorem closes_cons {b : UInt8} (h : b = 44 ∨ b = 93 ∨ b = 125) (rest : Bytes) :
    Closes (b :: rest) := by
  rintro c tail heq
  cases heq
  exact h

theorem Closes.apart {rest : Bytes} (h : Closes rest) (t : Token) : t.Apart rest := by
  rintro n - b tail heq
  rcases h b tail heq with rfl | rfl | rfl <;> decide

theorem Token.apart_comma (rest : Bytes) : Token.comma.Apart rest := nofun

/-- Without blanks before it. -/
theorem Lays.token {octets rest : Bytes} {t : Token} {ts : List Token} (form : t.Form octets)
    (apart : t.Apart rest) (h : Lays rest ts) : Lays (octets ++ rest) (t :: ts) :=
  .cons [] octets rest t ts (by simp) form apart h

/-- A value: how it is written, and its tokens. -/
structure Laid where
  chars : List Char
  tokens : List Token
  lays (rest : Bytes) (ts : List Token) (closes : Closes rest) (behind : Lays rest ts) :
    Lays (Bytes.ofChars chars ++ rest) (tokens ++ ts)

namespace Laid

/-- A value of one token. -/
def single (chars : List Char) (token : Token) (form : token.Form (Bytes.ofChars chars)) : Laid where
  chars
  tokens := [token]
  lays _ _ closes behind := .token form (closes.apart token) behind

def text (s : String) : Laid := .single (Writer.text s) (.text s) (form_text s)

def natural (n : Nat) (range : n < 0x10000000000000000) : Laid :=
  .single (Writer.natural n) (.number (.natural n)) (.natural n range)

def integer (n : Int) (word : IsWord n) : Laid :=
  .single (Writer.integer n) (.ofInt n) (form_integer word)

/-- A value that is the whole text. -/
theorem whole (v : Laid) : Lays (Bytes.ofChars v.chars) v.tokens := by
  have closes : Closes [] := nofun
  have lays := v.lays [] [] closes (.nil [] (by simp))
  rwa [List.append_nil, List.append_nil] at lays

/-! ## Lists of values -/

/-- Values with commas between them, before the bracket that ends their list. -/
theorem lays_separated (items : List Laid) {b : UInt8} (hb : b = 93 ∨ b = 125) {rest : Bytes}
    {ts : List Token} (behind : Lays (b :: rest) ts) :
    Lays (Bytes.ofChars (Writer.separated (items.map (·.chars))) ++ b :: rest)
      (itemTokens true (items.map (·.tokens)) ++ ts) := by
  induction items with
  | nil => exact behind
  | cons item items ih =>
    cases items with
    | nil =>
      have closes := closes_cons (Or.inr hb) rest
      simpa [Writer.separated, itemTokens] using item.lays _ _ closes behind
    | cons next items =>
      have comma := Lays.token .comma (Token.apart_comma _) ih
      have octets (behind : Bytes) : Bytes.ofChars (Writer.separated
          ((item :: next :: items).map (·.chars))) ++ behind =
            Bytes.ofChars item.chars ++ 44 ::
              (Bytes.ofChars (Writer.separated ((next :: items).map (·.chars))) ++ behind) := by
        simp only [List.map_cons, Writer.separated, Bytes.ofChars_append, Bytes.ofChars_cons,
          List.append_assoc]
        rfl
      have tokens : itemTokens true ((item :: next :: items).map (·.tokens)) ++ ts =
          item.tokens ++ .comma :: (itemTokens true ((next :: items).map (·.tokens)) ++ ts) := by
        simp [itemTokens]
      rw [octets, tokens]
      exact item.lays _ _ (closes_cons (Or.inl rfl) _) comma

def array (items : List Laid) : Laid where
  chars := Writer.array (items.map (·.chars))
  tokens := arrayTokens (items.map (·.tokens))
  lays rest ts closes behind := by
    have closing := Lays.token .closingSquare (closes.apart _) behind
    have octets : Bytes.ofChars (Writer.array (items.map (·.chars))) ++ rest =
        [91] ++ (Bytes.ofChars (Writer.separated (items.map (·.chars))) ++ 93 :: rest) := by
      rw [Writer.array, List.cons_append, Bytes.ofChars_cons, Bytes.ofChars_append]
      simp only [List.append_assoc]
      rfl
    have tokens (items : List (List Token)) : arrayTokens items ++ ts =
        .opening .square :: (itemTokens true items ++ .closing .square :: ts) := by
      simp [arrayTokens]
    rw [octets, tokens]
    exact .token .openingSquare nofun (lays_separated items (Or.inl rfl) closing)

def texts (ss : List String) : Laid := .array (ss.map .text)

theorem chars_texts (ss : List String) : (texts ss).chars = Writer.texts ss := by
  simp [texts, array, text, single, Writer.texts, Function.comp_def]

theorem tokens_texts (ss : List String) : (texts ss).tokens = textsTokens ss := by
  simp [texts, array, text, single, textsTokens, Function.comp_def]

/-- A key and its value. -/
def entry (key : String) (value : Laid) : Laid where
  chars := Writer.text key ++ ':' :: value.chars
  tokens := entryTokens (key, value.tokens)
  lays rest ts closes behind := by
    have octets : Bytes.ofChars (Writer.text key ++ ':' :: value.chars) ++ rest =
        Bytes.ofChars (Writer.text key) ++ ([58] ++ (Bytes.ofChars value.chars ++ rest)) := by
      rw [Bytes.ofChars_append, Bytes.ofChars_cons]
      simp only [List.append_assoc]
      rfl
    rw [octets]
    exact .token (form_text key) nofun
      (.token .colon nofun (value.lays rest ts closes behind))

def object (entries : List (String × Laid)) : Laid where
  chars := Writer.object (entries.map fun e => (e.1, e.2.chars))
  tokens := recordTokens (entries.map fun e => (e.1, e.2.tokens))
  lays rest ts closes behind := by
    have closing := Lays.token .closing (closes.apart _) behind
    have chars : (entries.map fun e => (e.1, e.2.chars)).map (fun f => Writer.text f.1 ++ ':' :: f.2) =
        (entries.map fun e => Laid.entry e.1 e.2).map (·.chars) := by
      simp [Laid.entry]
    have tokens : (entries.map fun e => (e.1, e.2.tokens)).map entryTokens =
        (entries.map fun e => Laid.entry e.1 e.2).map (·.tokens) := by
      simp [Laid.entry]
    have octets (cs : List Char) : Bytes.ofChars ('{' :: cs ++ ['}']) ++ rest =
        [123] ++ (Bytes.ofChars cs ++ 125 :: rest) := by
      rw [List.cons_append, Bytes.ofChars_cons, Bytes.ofChars_append]
      simp only [List.append_assoc]
      rfl
    have whole (items : List (List Token)) :
        Token.opening .curly :: (itemTokens true items ++ [.closing .curly]) ++ ts =
          .opening .curly :: (itemTokens true items ++ .closing .curly :: ts) := by
      simp
    rw [Writer.object, chars, octets, recordTokens, tokens, whole]
    exact .token .opening nofun (lays_separated _ (Or.inr rfl) closing)

end Laid

theorem hasForm_text (s : String) : (Token.text s).HasForm := ⟨_, form_text s⟩

theorem hasForm_recordTokens {entries : List (String × List Token)}
    (values : ∀ e ∈ entries, ∀ t ∈ e.2, t.HasForm) : ∀ t ∈ recordTokens entries, t.HasForm :=
  forall_mem_recordTokens ⟨_, .opening⟩ ⟨_, .closing⟩ ⟨_, .comma⟩ ⟨_, .colon⟩ hasForm_text values

theorem hasForm_arrayTokens {items : List (List Token)}
    (values : ∀ item ∈ items, ∀ t ∈ item, t.HasForm) : ∀ t ∈ arrayTokens items, t.HasForm :=
  forall_mem_arrayTokens ⟨_, .openingSquare⟩ ⟨_, .closingSquare⟩ ⟨_, .comma⟩ values

/-- What can be written can be written in an object. -/
theorem exists_lays {entries : List (String × List Token)}
    (laid : ∀ e ∈ entries, ∃ v : Laid, v.tokens = e.2) :
    ∃ text, Lays (Bytes.ofText text) (recordTokens entries) := by
  have values : ∃ fields : List (String × Laid),
      fields.map (fun f => (f.1, f.2.tokens)) = entries := by
    induction entries with
    | nil => exact ⟨[], rfl⟩
    | cons e entries ih =>
      obtain ⟨⟨v, tokens⟩, others⟩ := List.forall_mem_cons.mp laid
      obtain ⟨fields, rfl⟩ := ih others
      exact ⟨(e.1, v) :: fields, by simp [tokens]⟩
  obtain ⟨fields, rfl⟩ := values
  refine ⟨String.ofList (Laid.object fields).chars, ?_⟩
  rw [Bytes.ofText_ofList]
  exact (Laid.object fields).whole

/-! ## Entries -/

namespace Shape

variable {ρ σ : Type} {shape : Shape ρ σ} {isFirst : Bool} {s s' : σ}

theorem nextKey_text (isFirst : Bool) (key : String) (behind : List Token) :
    (nextKey isFirst ((if isFirst then [] else [.comma]) ++ .text key :: behind) :
      Except (Error ρ) _) = .ok (some key, behind) := by
  cases isFirst <;> rfl

theorem entries_end (ts : List Token) :
    shape.entries isFirst s (.closing .curly :: ts) = .ok (s, ts) := by
  rw [entries]
  rfl

/-- An entry that is read stands before further entries. -/
theorem entries_entry {key : String} {value behind : List Token}
    (entry : shape.entry s key (.colon :: (value ++ behind)) = .ok (s', behind)) :
    shape.entries isFirst s
        ((if isFirst then [] else [Token.comma]) ++ entryTokens (key, value) ++ behind) =
      shape.entries false s' behind := by
  have tokens : (if isFirst then [] else [Token.comma]) ++ entryTokens (key, value) ++ behind =
      (if isFirst then [] else [Token.comma]) ++ .text key :: (.colon :: (value ++ behind)) := by
    rw [List.append_assoc]
    rfl
  have shorter : behind.length < ((if isFirst then [] else [Token.comma]) ++
      Token.text key :: (.colon :: (value ++ behind))).length := by
    simp only [List.length_append, List.length_cons]
    omega
  rw [tokens, entries, nextKey_text]
  simp only [bind, Except.bind]
  rw [entry]
  exact dif_pos shorter

end Shape

end Keyring.Json
