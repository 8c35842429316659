import Keyring.Json.Token
import Keyring.Json.Writer
import Keyring.Proofs.Utf8

/-!
# JSON strings

What stands between the quotes of a string, said as a grammar: octets for themselves, escapes of one
letter, and code units by number, of which surrogates come in pairs. Reading follows the grammar.

* `Text.Spells` relates what stands between the quotes with the octets that it stands for.
* `token_eq_text_iff`: a string is read as a text exactly if it spells the octets of the text.
* `spells_escapes`: what is written for a text spells it.
-/

namespace Keyring.Json.Text

/-- What `raw` between quotes stands for, as octets. -/
inductive Spells : (raw octets : Bytes) → Prop where
  | nil : Spells [] []
  | octet (b : UInt8) {raw octets : Bytes} (plain : b ≠ 34 ∧ b ≠ 92 ∧ 32 ≤ b) :
    Spells raw octets → Spells (b :: raw) (b :: octets)
  | short (e b : UInt8) {raw octets : Bytes} (escape : shortEscape? e = some b) :
    Spells raw octets → Spells (92 :: e :: raw) (b :: octets)
  | unit (a b c d : UInt8) (n : Nat) {raw octets : Bytes} (digits : hexUnit? a b c d = some n)
    (single : isLead n = false ∧ isTrail n = false) :
    Spells raw octets →
      Spells (92 :: 117 :: a :: b :: c :: d :: raw)
        (String.utf8EncodeChar (Char.ofNat n) ++ octets)
  | pair (a b c d e f g h : UInt8) (n m : Nat) {raw octets : Bytes}
    (lead : hexUnit? a b c d = some n ∧ isLead n = true)
    (trail : hexUnit? e f g h = some m ∧ isTrail m = true) :
    Spells raw octets →
      Spells (92 :: 117 :: a :: b :: c :: d :: 92 :: 117 :: e :: f :: g :: h :: raw)
        (String.utf8EncodeChar (pairChar n m) ++ octets)

/-! ## Steps of the scanner -/

theorem scan_octet {b : UInt8} (plain : b ≠ 34 ∧ b ≠ 92 ∧ 32 ≤ b) (rest : Bytes) :
    scan (b :: rest) = (.octet b :: (scan rest).1, (scan rest).2) := by
  obtain ⟨quote, slash, printable⟩ := plain
  rw [scan, if_neg quote, if_neg (by simpa using printable)]
  all_goals
    intros
    simp_all

theorem scan_short {e b : UInt8} (escape : shortEscape? e = some b) (rest : Bytes) :
    scan (92 :: e :: rest) = (.octet b :: (scan rest).1, (scan rest).2) := by
  have other : e ≠ 117 := by
    rintro rfl
    cases escape
  rw [scan, escape]
  all_goals
    intros
    simp_all

theorem scan_unit {a b c d : UInt8} {n : Nat} (digits : hexUnit? a b c d = some n) (rest : Bytes) :
    scan (92 :: 117 :: a :: b :: c :: d :: rest) = (.unit n :: (scan rest).1, (scan rest).2) := by
  rw [scan, digits]

theorem scan_quote (rest : Bytes) : scan (34 :: rest) = ([], .closed rest) := by
  rw [scan, if_pos rfl]
  all_goals
    intros
    simp_all

/-- What the scanner takes for a closed string, with what follows its closing quote. -/
inductive Scans (rest : Bytes) : Bytes → List Piece → Prop where
  | quote : Scans rest (34 :: rest) []
  | octet (b : UInt8) {bytes : Bytes} {pieces : List Piece} (plain : b ≠ 34 ∧ b ≠ 92 ∧ 32 ≤ b) :
    Scans rest bytes pieces → Scans rest (b :: bytes) (.octet b :: pieces)
  | short (e b : UInt8) {bytes : Bytes} {pieces : List Piece} (escape : shortEscape? e = some b) :
    Scans rest bytes pieces → Scans rest (92 :: e :: bytes) (.octet b :: pieces)
  | unit (a b c d : UInt8) (n : Nat) {bytes : Bytes} {pieces : List Piece}
    (digits : hexUnit? a b c d = some n) :
    Scans rest bytes pieces →
      Scans rest (92 :: 117 :: a :: b :: c :: d :: bytes) (.unit n :: pieces)

theorem scans_of_scan {bytes rest : Bytes} {pieces : List Piece}
    (h : scan bytes = (pieces, .closed rest)) : Scans rest bytes pieces := by
  induction bytes using scan.induct generalizing pieces with
  | case1 => cases h
  | case2 a b c d bytes n digits _ _ _ ih =>
    rw [scan_unit digits] at h
    obtain ⟨rfl, closed⟩ := Prod.mk.inj h
    exact .unit a b c d n digits (ih (Prod.ext rfl closed))
  | case3 a b c d bytes digits =>
    rw [scan, digits] at h
    cases h
  | case4 tail few =>
    rw [scan] at h
    · cases h
    · exact few
  | case5 e bytes _ _ b escape _ _ _ ih =>
    rw [scan_short escape] at h
    obtain ⟨rfl, closed⟩ := Prod.mk.inj h
    exact .short e b escape (ih (Prod.ext rfl closed))
  | case6 e bytes digits other escape =>
    rw [scan, escape] at h
    · cases h
    · exact digits
    · exact other
  | case7 => cases h
  | case8 bytes =>
    rw [scan_quote] at h
    cases h
    exact .quote
  | case9 b bytes h₁ h₂ h₃ h₄ quote control =>
    rw [scan, if_neg quote, if_pos control] at h
    · cases h
    all_goals assumption
  | case10 b bytes _ _ h₃ h₄ quote control _ _ _ ih =>
    have plain : b ≠ 34 ∧ b ≠ 92 ∧ 32 ≤ b := by
      refine ⟨quote, ?_, UInt8.not_lt.mp control⟩
      rintro rfl
      cases bytes with
      | nil => exact h₄ rfl rfl
      | cons e bytes => exact h₃ e bytes rfl rfl
    rw [scan_octet plain] at h
    obtain ⟨rfl, closed⟩ := Prod.mk.inj h
    exact .octet b plain (ih (Prod.ext rfl closed))

/-! ## The grammar -/

theorem octets?_unit {n : Nat} (single : isLead n = false ∧ isTrail n = false)
    (pieces : List Piece) :
    octets? (.unit n :: pieces) =
      (octets? pieces).map (String.utf8EncodeChar (Char.ofNat n) ++ ·) := by
  obtain ⟨lead, trail⟩ := single
  cases pieces with
  | nil => simp [octets?, lead, trail]
  | cons piece pieces =>
    cases piece with
    | octet b => simp [octets?, lead, trail]
    | unit m => simp [octets?, lead, trail]

theorem octets?_pair {n m : Nat} (lead : isLead n = true) (trail : isTrail m = true)
    (pieces : List Piece) :
    octets? (.unit n :: .unit m :: pieces) =
      (octets? pieces).map (String.utf8EncodeChar (pairChar n m) ++ ·) := by
  rw [octets?, if_pos lead, if_pos trail]

/-- The octets of the pieces that a closed string is read as are what it spells. -/
theorem spells_of_scans {bytes rest octets : Bytes} {pieces : List Piece}
    (h : Scans rest bytes pieces) (value : octets? pieces = some octets) :
    ∃ raw, bytes = raw ++ 34 :: rest ∧ Spells raw octets := by
  induction pieces using octets?.induct generalizing bytes octets with
  | case1 =>
    cases h
    cases value
    exact ⟨[], rfl, .nil⟩
  | case2 b pieces ih =>
    obtain ⟨octets, inner, rfl⟩ := Option.map_eq_some_iff.mp value
    cases h with
    | octet _ plain behind =>
      obtain ⟨raw, rfl, spells⟩ := ih behind inner
      exact ⟨b :: raw, rfl, .octet b plain spells⟩
    | short e _ escape behind =>
      obtain ⟨raw, rfl, spells⟩ := ih behind inner
      exact ⟨92 :: e :: raw, rfl, .short e b escape spells⟩
  | case3 n m pieces lead trail ih =>
    rw [octets?_pair lead trail] at value
    obtain ⟨octets, inner, rfl⟩ := Option.map_eq_some_iff.mp value
    cases h with
    | unit a b c d _ digits behind =>
      cases behind with
      | unit e f g h _ digits' behind =>
        obtain ⟨raw, rfl, spells⟩ := ih behind inner
        exact ⟨_, rfl, .pair a b c d e f g h n m ⟨digits, lead⟩ ⟨digits', trail⟩ spells⟩
  | case4 n m pieces lead trail =>
    rw [octets?, if_pos lead, if_neg trail] at value
    cases value
  | case5 n m pieces lead trail =>
    rw [octets?, if_neg lead, if_pos trail] at value
    cases value
  | case6 n m pieces lead trail ih =>
    have single : isLead n = false ∧ isTrail n = false := by simpa using And.intro lead trail
    rw [octets?_unit single] at value
    obtain ⟨octets, inner, rfl⟩ := Option.map_eq_some_iff.mp value
    cases h with
    | unit a b c d _ digits behind =>
      obtain ⟨raw, rfl, spells⟩ := ih behind inner
      exact ⟨_, rfl, .unit a b c d n digits single spells⟩
  | case7 n pieces last lone =>
    rw [octets?, if_pos lone] at value
    · cases value
    · exact last
  | case8 n pieces last single ih =>
    have single : isLead n = false ∧ isTrail n = false := by simpa using single
    rw [octets?_unit single] at value
    obtain ⟨octets, inner, rfl⟩ := Option.map_eq_some_iff.mp value
    cases h with
    | unit a b c d _ digits behind =>
      obtain ⟨raw, rfl, spells⟩ := ih behind inner
      exact ⟨_, rfl, .unit a b c d n digits single spells⟩

theorem scan_of_spells {raw octets : Bytes} (h : Spells raw octets) (rest : Bytes) :
    ∃ pieces, scan (raw ++ 34 :: rest) = (pieces, .closed rest) ∧ octets? pieces = some octets := by
  induction h with
  | nil => exact ⟨[], scan_quote rest, rfl⟩
  | octet b plain _ ih =>
    obtain ⟨pieces, scanned, value⟩ := ih
    refine ⟨.octet b :: pieces, ?_, by rw [octets?, value]; rfl⟩
    rw [List.cons_append, scan_octet plain, scanned]
  | short e b escape _ ih =>
    obtain ⟨pieces, scanned, value⟩ := ih
    refine ⟨.octet b :: pieces, ?_, by rw [octets?, value]; rfl⟩
    rw [List.cons_append, List.cons_append, scan_short escape, scanned]
  | unit a b c d n digits single _ ih =>
    obtain ⟨pieces, scanned, value⟩ := ih
    refine ⟨.unit n :: pieces, ?_, by rw [octets?_unit single, value]; rfl⟩
    simp only [List.cons_append]
    rw [scan_unit digits, scanned]
  | pair a b c d e f g h n m lead trail _ ih =>
    obtain ⟨pieces, scanned, value⟩ := ih
    refine ⟨.unit n :: .unit m :: pieces, ?_, by rw [octets?_pair lead.2 trail.2, value]; rfl⟩
    simp only [List.cons_append]
    rw [scan_unit lead.1, scan_unit trail.1, scanned]

/-- A string is read as a text exactly if it spells the octets of the text. -/
theorem token_eq_text_iff {bytes rest : Bytes} {s : String} :
    token bytes = (.text s, rest) ↔
      ∃ raw, bytes = raw ++ 34 :: rest ∧ Spells raw (Bytes.ofText s) := by
  constructor
  · intro h
    unfold token at h
    split at h
    · rename_i pieces rest' scanned
      split at h
      · rename_i t value
        cases h
        obtain ⟨octets, read, text⟩ := Option.bind_eq_some_iff.mp value
        obtain rfl := Bytes.text?_eq_some_iff.mp text
        exact spells_of_scans (scans_of_scan scanned) read
      · cases h
    · cases h
  · rintro ⟨raw, rfl, spells⟩
    obtain ⟨pieces, scanned, read⟩ := scan_of_spells spells rest
    have value : value? pieces = some s := by
      rw [value?, read]
      exact Bytes.text?_eq_some_iff.mpr rfl
    unfold token
    rw [scanned]
    dsimp only
    rw [value]

/-! ## What is written -/

/-- A control character is written as a code unit. -/
theorem spells_control {c : Char} (control : c.toNat < 32) {raw octets : Bytes}
    (h : Spells raw octets) :
    Spells (Bytes.ofChars ['\\', 'u', '0', '0', Writer.hexDigit (c.toNat / 16),
      Writer.hexDigit (c.toNat % 16)] ++ raw) (String.utf8EncodeChar c ++ octets) := by
  have digits : ∀ n < 32, ∃ d e, Bytes.ofChars ['\\', 'u', '0', '0', Writer.hexDigit (n / 16),
      Writer.hexDigit (n % 16)] = [92, 117, 48, 48, d, e] ∧ hexUnit? 48 48 d e = some n := by
    intro n hn
    refine ⟨UInt8.ofNat (Writer.hexDigit (n / 16)).toNat,
      UInt8.ofNat (Writer.hexDigit (n % 16)).toNat, ?_⟩
    revert n
    decide
  obtain ⟨d, e, written, unit⟩ := digits c.toNat control
  have single : isLead c.toNat = false ∧ isTrail c.toNat = false := by
    simp only [isLead, isTrail, Bool.and_eq_false_iff, decide_eq_false_iff_not]
    omega
  have spells := Spells.unit 48 48 d e c.toNat unit single h
  rw [Char.ofNat_toNat] at spells
  rw [written]
  exact spells

/-- Any other character that is not escaped stands for itself. -/
theorem spells_plain {c : Char} (quote : c ≠ '"') (slash : c ≠ '\\') (printable : 32 ≤ c.toNat)
    {raw octets : Bytes} (h : Spells raw octets) :
    Spells (String.utf8EncodeChar c ++ raw) (String.utf8EncodeChar c ++ octets) := by
  have own (b : UInt8) (hb : b ∈ String.utf8EncodeChar c) : b ≠ 34 ∧ b ≠ 92 ∧ 32 ≤ b := by
    by_cases ascii : c.toNat < 128
    · rw [Bytes.utf8EncodeChar_of_lt ascii, List.mem_singleton] at hb
      have value : b.toNat = c.toNat := by
        rw [hb, UInt8.toNat_ofNat']
        omega
      refine ⟨?_, ?_, UInt8.le_iff_toNat_le.mpr (by rw [value]; exact printable)⟩
      · rintro rfl
        exact quote (Char.toNat_inj.mp value.symm)
      · rintro rfl
        exact slash (Char.toNat_inj.mp value.symm)
    · have high := Bytes.le_of_mem_utf8EncodeChar (Nat.not_lt.mp ascii) hb
      refine ⟨?_, ?_, UInt8.le_iff_toNat_le.mpr (Nat.le_trans (by decide) high)⟩
      · rintro rfl
        exact absurd high (by decide)
      · rintro rfl
        exact absurd high (by decide)
  revert own
  generalize String.utf8EncodeChar c = bytes
  intro own
  induction bytes with
  | nil => exact h
  | cons b bytes ih =>
    obtain ⟨first, others⟩ := List.forall_mem_cons.mp own
    exact .octet b first (ih others)

theorem spells_escape (c : Char) {raw octets : Bytes} (h : Spells raw octets) :
    Spells (Bytes.ofChars (Writer.escape c) ++ raw) (String.utf8EncodeChar c ++ octets) := by
  unfold Writer.escape
  repeat' split
  · subst_vars
    exact .short 34 34 (by decide) h
  · subst_vars
    exact .short 92 92 (by decide) h
  · subst_vars
    exact .short 98 8 (by decide) h
  · subst_vars
    exact .short 102 12 (by decide) h
  · subst_vars
    exact .short 110 10 (by decide) h
  · subst_vars
    exact .short 114 13 (by decide) h
  · subst_vars
    exact .short 116 9 (by decide) h
  · rename_i control
    exact spells_control control h
  · rename_i quote slash _ _ _ _ _ printable
    have plain := spells_plain quote slash (Nat.not_lt.mp printable) h
    simpa [Bytes.ofChars] using plain

/-- What is written between the quotes of a text spells the octets of the text. -/
theorem spells_escapes (s : String) :
    Spells (Bytes.ofChars (s.toList.flatMap Writer.escape)) (Bytes.ofText s) := by
  rw [Bytes.ofText_eq]
  generalize s.toList = cs
  induction cs with
  | nil => exact .nil
  | cons c cs ih =>
    rw [List.flatMap_cons, Bytes.ofChars_append, Bytes.ofChars_cons]
    exact spells_escape c ih

end Keyring.Json.Text
