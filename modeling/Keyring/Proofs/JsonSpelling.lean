import Mathlib.Data.List.Perm.Basic
import Keyring.Proofs.JsonNumber
import Keyring.Proofs.JsonText

/-!
# The spelling of JSON

How the tokens of records of texts and whole numbers may be written: each token in one of its forms,
with any blanks around it. Cutting a text gives the tokens that it lays out, and these only.

* `Token.Form` relates a token with its octets, `Lays` a sequence of tokens with a whole text.
* `ofBytes_of_lays` and `lays_ofBytes`: a text is cut into the tokens that it lays out.
* `entryTokens` are the tokens of an object's entries, `itemTokens` those of an array's items, and
  `recordTokens` and `arrayTokens` the whole.
-/

namespace Keyring.Json

namespace Token

/-- The octets that a token may be written as. -/
inductive Form : Token → Bytes → Prop where
  | opening : Form (.opening .curly) [123]
  | closing : Form (.closing .curly) [125]
  | openingSquare : Form (.opening .square) [91]
  | closingSquare : Form (.closing .square) [93]
  | comma : Form .comma [44]
  | colon : Form .colon [58]
  | text (s : String) (raw : Bytes) (spells : Text.Spells raw (Bytes.ofText s)) :
    Form (.text s) (34 :: raw ++ [34])
  | natural (n : Nat) (range : n < 0x10000000000000000) :
    Form (.number (.natural n)) (Bytes.ofChars (Decimal.digits n))
  | negative (n : Nat) (range : 0 < n ∧ n ≤ 0x8000000000000000) :
    Form (.number (.negative n)) (45 :: Bytes.ofChars (Decimal.digits n))

/-- A token has a form. -/
def HasForm (t : Token) : Prop := ∃ octets, t.Form octets

/-- A number goes on as far as it can. -/
def Apart (t : Token) (rest : Bytes) : Prop := ∀ n, t = .number n → Number.Ends rest

theorem first_digit {b : UInt8} (h : Number.isDigit b = true) (rest : Bytes) :
    first b rest = numeral (b :: rest) := by
  have range := Number.isDigit_iff.mp h
  have other (c : UInt8) (hc : c.toNat < 48 ∨ 57 < c.toNat) : b ≠ c := by
    rintro rfl
    omega
  unfold first
  rw [if_neg (other 123 (by decide)), if_neg (other 125 (by decide)),
    if_neg (other 91 (by decide)), if_neg (other 93 (by decide)), if_neg (other 44 (by decide)),
    if_neg (other 58 (by decide)), if_neg (other 34 (by decide)), if_neg (other 110 (by decide)),
    if_neg (other 116 (by decide)), if_neg (other 102 (by decide)), if_pos (Or.inr h)]

theorem numeral_natural {n : Nat} (range : n < 0x10000000000000000) {rest : Bytes}
    (ends : Number.Ends rest) :
    numeral (Bytes.ofChars (Decimal.digits n) ++ rest) = (.number (.natural n), rest) := by
  have scanned := Number.scanUnsigned_digits false n ends
  have value := Number.number_natural_iff (p := ⟨false, _, none, none⟩)
    |>.mpr ⟨⟨rfl, rfl⟩, rfl, Number.ofDigits_digits n, range⟩
  obtain ⟨b, tail, digits, digit⟩ := Number.exists_ofChars_digits n
  have unsigned : b ≠ 45 := by
    rintro rfl
    cases digit
  rw [digits] at scanned ⊢
  unfold numeral
  rw [List.cons_append, Number.scan_of_ne_minus unsigned, ← List.cons_append, scanned]
  exact congrArg (fun v => (Token.number v, rest)) value

theorem numeral_negative {n : Nat} (range : 0 < n ∧ n ≤ 0x8000000000000000) {rest : Bytes}
    (ends : Number.Ends rest) :
    numeral (45 :: (Bytes.ofChars (Decimal.digits n) ++ rest)) = (.number (.negative n), rest) := by
  have scanned := Number.scanUnsigned_digits true n ends
  have value := Number.number_negative_iff (p := ⟨true, _, none, none⟩)
    |>.mpr ⟨⟨rfl, rfl⟩, rfl, Number.ofDigits_digits n, range⟩
  unfold numeral
  rw [Number.scan_minus, scanned]
  exact congrArg (fun v => (Token.number v, rest)) value

/-- A whole number is read from its numeral only. -/
theorem form_of_numeral {bytes rest : Bytes} {t : Token} (h : numeral bytes = (t, rest))
    (formed : t.HasForm) : ∃ octets, bytes = octets ++ rest ∧ t.Form octets ∧ t.Apart rest := by
  unfold numeral at h
  split at h
  · rename_i p behind scanned
    obtain ⟨rfl, rfl⟩ := Prod.mk.inj h
    obtain ⟨b, tail, rfl⟩ : ∃ b tail, bytes = b :: tail := by
      cases bytes with
      | nil => cases scanned
      | cons b tail => exact ⟨b, tail, rfl⟩
    obtain ⟨octets, form⟩ := formed
    generalize hn : p.number = n at form
    cases form with
    | natural n range =>
      obtain ⟨⟨fraction, exponent⟩, sign, value, -⟩ := Number.number_natural_iff.mp hn
      by_cases minus : b = 45
      · subst minus
        rw [Number.scan_minus] at scanned
        obtain ⟨sign', -⟩ := Number.digits_of_scanUnsigned scanned fraction exponent
        rw [sign] at sign'
        cases sign'
      · rw [Number.scan_of_ne_minus minus] at scanned
        obtain ⟨-, octets, ends⟩ := Number.digits_of_scanUnsigned scanned fraction exponent
        rw [value] at octets
        exact ⟨_, octets, .natural n range, fun _ _ => ends⟩
    | negative n range =>
      obtain ⟨⟨fraction, exponent⟩, sign, value, -⟩ := Number.number_negative_iff.mp hn
      by_cases minus : b = 45
      · subst minus
        rw [Number.scan_minus] at scanned
        obtain ⟨-, octets, ends⟩ := Number.digits_of_scanUnsigned scanned fraction exponent
        rw [value] at octets
        exact ⟨_, congrArg _ octets, .negative n range, fun _ _ => ends⟩
      · rw [Number.scan_of_ne_minus minus] at scanned
        obtain ⟨sign', -⟩ := Number.digits_of_scanUnsigned scanned fraction exponent
        rw [sign] at sign'
        cases sign'
  · obtain ⟨octets, form⟩ := formed
    cases h
    cases form

/-! ## One token -/

/-- A token is cut off in any of its forms. -/
theorem first_of_form {t : Token} {octets rest : Bytes} (h : t.Form octets) (apart : t.Apart rest) :
    ∃ b tail, octets = b :: tail ∧ isBlank b = false ∧ first b (tail ++ rest) = (t, rest) := by
  cases h with
  | opening | closing | openingSquare | closingSquare | comma | colon =>
    exact ⟨_, [], rfl, rfl, rfl⟩
  | text s raw spells =>
    refine ⟨34, raw ++ [34], rfl, rfl, ?_⟩
    have read : Text.token (raw ++ 34 :: rest) = (.text s, rest) :=
      Text.token_eq_text_iff.mpr ⟨raw, rfl, spells⟩
    rw [List.append_assoc]
    exact read
  | natural n range =>
    obtain ⟨b, tail, digits, digit⟩ := Number.exists_ofChars_digits n
    have range' := Number.isDigit_iff.mp digit
    refine ⟨b, tail, digits, ?_, ?_⟩
    · have other (c : UInt8) (hc : c.toNat < 48) : b ≠ c := by
        rintro rfl
        omega
      simp [isBlank, other]
    · have read := numeral_natural range (apart _ rfl)
      rw [digits] at read
      rw [first_digit digit]
      exact read
  | negative n range => exact ⟨45, _, rfl, rfl, numeral_negative range (apart _ rfl)⟩

theorem not_hasForm_name {token t : Token} {letters bytes rest : Bytes}
    (h : name token letters bytes = (t, rest)) (loose : ¬ token.HasForm) : ¬ t.HasForm := by
  unfold name at h
  split at h
  · cases h
    exact loose
  · cases h
    rintro ⟨octets, ⟨⟩⟩

/-- What may be cut off the text `b :: tail`. -/
inductive Cuts (b : UInt8) (tail : Bytes) : Token × Bytes → Prop where
  /-- The octet is a token by itself. -/
  | mark (t : Token) (form : t.Form [b]) (other : ∀ n, t ≠ .number n) :
    Cuts b tail (t, tail)
  | text (p : Token × Bytes) (quote : b = 34) (read : Text.token tail = p) : Cuts b tail p
  | name (p : Token × Bytes) (token : Token) (letters : Bytes) (loose : ¬ token.HasForm)
    (other : ∀ n, token ≠ .number n) (read : name token letters tail = p) : Cuts b tail p
  | numeral (p : Token × Bytes) (read : numeral (b :: tail) = p) : Cuts b tail p
  | junk : Cuts b tail (.junk, [])

theorem Cuts.ite {b : UInt8} {tail : Bytes} {c : Prop} [Decidable c] {p q : Token × Bytes}
    (yes : c → Cuts b tail p) (no : Cuts b tail q) : Cuts b tail (if c then p else q) :=
  iteInduction (motive := Cuts b tail) yes fun _ => no

theorem cuts_first (b : UInt8) (tail : Bytes) : Cuts b tail (first b tail) := by
  unfold first
  refine .ite (fun h => .mark _ (h ▸ .opening) nofun) ?_
  refine .ite (fun h => .mark _ (h ▸ .closing) nofun) ?_
  refine .ite (fun h => .mark _ (h ▸ .openingSquare) nofun) ?_
  refine .ite (fun h => .mark _ (h ▸ .closingSquare) nofun) ?_
  refine .ite (fun h => .mark _ (h ▸ .comma) nofun) ?_
  refine .ite (fun h => .mark _ (h ▸ .colon) nofun) ?_
  refine .ite (fun h => .text _ h rfl) ?_
  refine .ite (fun _ => .name _ .null _ (by rintro ⟨_, ⟨⟩⟩) nofun rfl) ?_
  refine .ite (fun _ => .name _ (.bool true) _ (by rintro ⟨_, ⟨⟩⟩) nofun rfl) ?_
  refine .ite (fun _ => .name _ (.bool false) _ (by rintro ⟨_, ⟨⟩⟩) nofun rfl) ?_
  exact .ite (fun _ => .numeral _ rfl) .junk

theorem text_of_token {t : Token} {tail rest : Bytes} (h : Text.token tail = (t, rest)) :
    (∃ s, t = .text s) ∨ t = .looseText ∨ ∃ flaw, t = .brokenText flaw := by
  unfold Text.token at h
  split at h
  · split at h
    · exact Or.inl ⟨_, (congrArg Prod.fst h).symm⟩
    · exact Or.inr (Or.inl (congrArg Prod.fst h).symm)
  · exact Or.inr (Or.inr ⟨_, (congrArg Prod.fst h).symm⟩)

/-- What is cut off as a token of a record is one of its forms. -/
theorem form_of_first {t : Token} {b : UInt8} {tail rest : Bytes}
    (h : first b tail = (t, rest)) (formed : t.HasForm) :
    ∃ octets, b :: tail = octets ++ rest ∧ t.Form octets ∧ t.Apart rest := by
  have cuts := cuts_first b tail
  rw [h] at cuts
  cases cuts with
  | mark _ form other => exact ⟨[b], rfl, form, fun n number => absurd number (other n)⟩
  | text _ quote read =>
    obtain ⟨octets, form⟩ := formed
    obtain ⟨s, rfl⟩ | rfl | ⟨flaw, rfl⟩ := text_of_token read
    · obtain ⟨raw, rfl, spells⟩ := Text.token_eq_text_iff.mp read
      refine ⟨34 :: raw ++ [34], ?_, .text s raw spells, nofun⟩
      simp [quote]
    · cases form
    · cases form
  | name _ token letters loose _ read => exact absurd formed (not_hasForm_name read loose)
  | numeral _ read => exact form_of_numeral read formed
  | junk =>
    obtain ⟨octets, form⟩ := formed
    cases form

end Token

/-! ## All tokens -/

/-- The tokens that a text lays out, with blanks around them. -/
inductive Lays : Bytes → List Token → Prop where
  | nil (blanks : Bytes) (blank : ∀ b ∈ blanks, Token.isBlank b = true) : Lays blanks []
  | cons (blanks octets rest : Bytes) (t : Token) (ts : List Token)
    (blank : ∀ b ∈ blanks, Token.isBlank b = true) (form : t.Form octets)
    (apart : t.Apart rest) : Lays rest ts → Lays (blanks ++ (octets ++ rest)) (t :: ts)

theorem ofBytes_of_lays {bytes : Bytes} {ts : List Token} (h : Lays bytes ts) :
    Token.ofBytes bytes = ts := by
  induction h with
  | nil blanks blank =>
    rw [Token.ofBytes, List.dropWhile_eq_nil_iff.mpr blank]
  | cons blanks octets rest t ts blank form apart _ ih =>
    obtain ⟨b, tail, rfl, solid, cut⟩ := Token.first_of_form form apart
    have front : (blanks ++ (b :: tail ++ rest)).dropWhile Token.isBlank = b :: (tail ++ rest) := by
      rw [List.dropWhile_append_of_pos blank, List.cons_append,
        List.dropWhile_cons_of_neg (by simp [solid])]
    have shorter : rest.length < (blanks ++ (b :: tail ++ rest)).length := by
      simp only [List.length_append, List.length_cons]
      omega
    rw [Token.ofBytes, front]
    simp only [cut]
    rw [dif_pos shorter, ih]

/-- A text that is cut into tokens of a record lays them out. -/
theorem lays_ofBytes {bytes : Bytes} (formed : ∀ t ∈ Token.ofBytes bytes, t.HasForm) :
    Lays bytes (Token.ofBytes bytes) := by
  have split (bytes : Bytes) := List.takeWhile_append_dropWhile (p := Token.isBlank) (l := bytes)
  have blank (bytes : Bytes) : ∀ b ∈ bytes.takeWhile Token.isBlank, Token.isBlank b = true :=
    fun b hb => List.mem_takeWhile_imp hb
  induction bytes using Token.ofBytes.induct with
  | case1 bytes blanks =>
    have tokens : Token.ofBytes bytes = [] := by rw [Token.ofBytes, blanks]
    rw [tokens]
    refine .nil bytes ?_
    exact List.dropWhile_eq_nil_iff.mp blanks
  | case2 bytes b tail front t behind cut shorter ih =>
    have tokens : Token.ofBytes bytes = t :: Token.ofBytes behind := by
      rw [Token.ofBytes, front]
      simp only [cut]
      rw [dif_pos shorter]
    rw [tokens] at formed ⊢
    obtain ⟨first, others⟩ := List.forall_mem_cons.mp formed
    obtain ⟨octets, written, form, apart⟩ := Token.form_of_first cut first
    have whole := split bytes
    rw [front, written] at whole
    rw [← whole]
    exact .cons _ octets behind t _ (blank bytes) form apart (ih others)
  | case3 bytes b tail front t behind cut longer =>
    have tokens : Token.ofBytes bytes = [t] := by
      rw [Token.ofBytes, front]
      simp only [cut]
      rw [dif_neg longer]
    rw [tokens] at formed
    obtain ⟨octets, written, form, apart⟩ :=
      Token.form_of_first cut (formed t (List.mem_singleton_self t))
    obtain ⟨c, octets, rfl, -⟩ := Token.first_of_form form apart
    have whole := congrArg List.length (split bytes)
    rw [front, written] at whole
    simp only [List.length_append, List.length_cons] at whole
    omega

theorem lays_of_tokens {bytes : Bytes} {ts : List Token} (tokens : Token.ofBytes bytes = ts)
    (formed : ∀ t ∈ ts, t.HasForm) : Lays bytes ts := by
  subst tokens
  exact lays_ofBytes formed

/-! ## Numbers in a text -/

/-- A whole number has the size that it was classified for. -/
def Number.Sized : Number → Prop
  | .natural n => n < 0x10000000000000000
  | .negative n => 0 < n ∧ n ≤ 0x8000000000000000
  | .inexact | .tooLarge => True

theorem Number.sized_number (p : Number.Parts) : p.number.Sized := by
  cases h : p.number with
  | natural n => exact (Number.number_natural_iff.mp h).2.2.2
  | negative n => exact (Number.number_negative_iff.mp h).2.2.2
  | inexact | tooLarge => trivial

theorem Token.sized_of_first {b : UInt8} {tail rest : Bytes} {n : Number}
    (h : first b tail = (.number n, rest)) : n.Sized := by
  have cuts := cuts_first b tail
  rw [h] at cuts
  cases cuts with
  | mark _ _ other => exact absurd rfl (other n)
  | text _ _ read =>
    obtain ⟨s, ⟨⟩⟩ | ⟨⟨⟩⟩ | ⟨flaw, ⟨⟩⟩ := text_of_token read
  | name _ token letters _ other read =>
    unfold name at read
    split at read
    · exact absurd (congrArg Prod.fst read) (other n)
    · cases read
  | numeral _ read =>
    unfold numeral at read
    split at read
    · cases read
      exact Number.sized_number _
    · cases read

theorem Token.sized_of_mem_ofBytes {bytes : Bytes} {n : Number}
    (h : .number n ∈ Token.ofBytes bytes) : n.Sized := by
  induction bytes using Token.ofBytes.induct with
  | case1 bytes blanks =>
    rw [Token.ofBytes, blanks] at h
    cases h
  | case2 bytes b tail front t behind cut shorter ih =>
    rw [Token.ofBytes, front] at h
    simp only [cut] at h
    rw [dif_pos shorter] at h
    rcases List.mem_cons.mp h with rfl | h
    · exact Token.sized_of_first cut
    · exact ih h
  | case3 bytes b tail front t behind cut longer =>
    rw [Token.ofBytes, front] at h
    simp only [cut] at h
    rw [dif_neg longer] at h
    obtain rfl := List.mem_singleton.mp h
    exact Token.sized_of_first cut

/-! ## Objects and arrays -/

/-- The token of a whole number. -/
def Token.ofInt : Int → Token
  | .ofNat n => .number (.natural n)
  | .negSucc n => .number (.negative (n + 1))

/-- The tokens of items, with a comma before each but the first. -/
def itemTokens (isFirst : Bool) : List (List Token) → List Token
  | [] => []
  | item :: items => (if isFirst then [] else [.comma]) ++ item ++ itemTokens false items

/-- The tokens of an array. -/
def arrayTokens (items : List (List Token)) : List Token :=
  .opening .square :: (itemTokens true items ++ [.closing .square])

/-- The tokens of an array of texts. -/
def textsTokens (ss : List String) : List Token := arrayTokens (ss.map fun s => [.text s])

/-- The tokens of an entry: a key and a value. -/
def entryTokens (e : String × List Token) : List Token := .text e.1 :: .colon :: e.2

/-- The tokens of an object of values that may take several tokens. -/
def recordTokens (entries : List (String × List Token)) : List Token :=
  .opening .curly :: (itemTokens true (entries.map entryTokens) ++ [.closing .curly])

theorem mem_itemTokens {isFirst : Bool} {items : List (List Token)} {t : Token}
    (h : t ∈ itemTokens isFirst items) : t = .comma ∨ ∃ item ∈ items, t ∈ item := by
  induction items generalizing isFirst with
  | nil => cases h
  | cons item items ih =>
    rcases List.mem_append.mp h with h | h
    · rcases List.mem_append.mp h with h | h
      · cases isFirst with
        | true => cases h
        | false => exact Or.inl (List.mem_singleton.mp h)
      · exact Or.inr ⟨item, List.mem_cons_self, h⟩
    · exact (ih h).imp_right fun ⟨other, mem, h⟩ => ⟨other, List.mem_cons_of_mem _ mem, h⟩

theorem mem_itemTokens_of_mem {isFirst : Bool} {items : List (List Token)} {item : List Token}
    {t : Token} (mem : item ∈ items) (h : t ∈ item) : t ∈ itemTokens isFirst items := by
  induction items generalizing isFirst with
  | nil => cases mem
  | cons first items ih =>
    rcases List.mem_cons.mp mem with rfl | mem
    · exact List.mem_append_left _ (List.mem_append_right _ h)
    · exact List.mem_append_right _ (ih mem)

theorem mem_recordTokens {entries : List (String × List Token)} {e : String × List Token} {t : Token}
    (mem : e ∈ entries) (h : t ∈ e.2) : t ∈ recordTokens entries := by
  have entry : t ∈ entryTokens e := List.mem_cons_of_mem _ (List.mem_cons_of_mem _ h)
  refine List.mem_cons_of_mem _ (List.mem_append_left _ ?_)
  exact mem_itemTokens_of_mem (List.mem_map_of_mem mem) entry

/-- What is true of the marks, of all texts and of the values' tokens is true of all tokens. -/
theorem forall_mem_recordTokens {P : Token → Prop} {entries : List (String × List Token)}
    (opening : P (.opening .curly)) (closing : P (.closing .curly)) (comma : P .comma)
    (colon : P .colon) (text : ∀ s, P (.text s)) (values : ∀ e ∈ entries, ∀ t ∈ e.2, P t) :
    ∀ t ∈ recordTokens entries, P t := by
  intro t ht
  rcases List.mem_cons.mp ht with rfl | ht
  · exact opening
  · rcases List.mem_append.mp ht with ht | ht
    · obtain rfl | ⟨item, mem, ht⟩ := mem_itemTokens ht
      · exact comma
      · obtain ⟨e, he, rfl⟩ := List.mem_map.mp mem
        rcases List.mem_cons.mp ht with rfl | ht
        · exact text _
        · rcases List.mem_cons.mp ht with rfl | ht
          · exact colon
          · exact values e he t ht
    · rw [List.mem_singleton.mp ht]
      exact closing

theorem forall_mem_arrayTokens {P : Token → Prop} {items : List (List Token)}
    (opening : P (.opening .square)) (closing : P (.closing .square)) (comma : P .comma)
    (values : ∀ item ∈ items, ∀ t ∈ item, P t) : ∀ t ∈ arrayTokens items, P t := by
  intro t ht
  rcases List.mem_cons.mp ht with rfl | ht
  · exact opening
  · rcases List.mem_append.mp ht with ht | ht
    · obtain rfl | ⟨item, mem, ht⟩ := mem_itemTokens ht
      · exact comma
      · exact values item mem t ht
    · rw [List.mem_singleton.mp ht]
      exact closing

theorem entryTokens_injective : Function.Injective entryTokens := by
  rintro ⟨key, value⟩ ⟨key', value'⟩ h
  cases h
  rfl

/-- Items of one size are told apart, although commas stand between them. -/
theorem itemTokens_injective {n : Nat} {isFirst : Bool} {items others : List (List Token)}
    (sized : ∀ item ∈ items, item.length = n + 1) (sized' : ∀ item ∈ others, item.length = n + 1)
    (h : itemTokens isFirst items = itemTokens isFirst others) : items = others := by
  induction items generalizing isFirst others with
  | nil =>
    cases others with
    | nil => rfl
    | cons item others =>
      have length := congrArg List.length h
      simp only [itemTokens, List.length_append, sized' item List.mem_cons_self,
        List.length_nil] at length
      omega
  | cons item items ih =>
    obtain ⟨first, behind⟩ := List.forall_mem_cons.mp sized
    cases others with
    | nil =>
      have length := congrArg List.length h
      simp only [itemTokens, List.length_append, first, List.length_nil] at length
      omega
    | cons item' others =>
      obtain ⟨first', behind'⟩ := List.forall_mem_cons.mp sized'
      rw [itemTokens, itemTokens] at h
      obtain ⟨same, rest⟩ := List.append_inj h (by simp [first, first'])
      rw [List.append_cancel_left same, ih behind behind' rest]

/-- An object has one sequence of entries, if their values are of one token each. -/
theorem recordTokens_injective {entries others : List (String × List Token)}
    (single : ∀ e ∈ entries, e.2.length = 1) (single' : ∀ e ∈ others, e.2.length = 1)
    (h : recordTokens entries = recordTokens others) : entries = others := by
  have sized {entries : List (String × List Token)} (single : ∀ e ∈ entries, e.2.length = 1) :
      ∀ item ∈ entries.map entryTokens, item.length = 2 + 1 :=
    List.forall_mem_map.mpr fun e mem => by simp [entryTokens, single e mem]
  have same := List.append_cancel_right (List.cons_inj_right _ |>.mp h)
  exact entryTokens_injective.list_map (itemTokens_injective (sized single) (sized single') same)

end Keyring.Json
