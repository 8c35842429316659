import Mathlib.Data.List.TakeWhile
import Keyring.Text.Base64Url

/-!
# Base64url is read as it is written

Each sequence of octets has exactly one text, and nothing else is read. So a text that is read is the
one that would be written, and it holds no character beyond the 64 symbols.

* `decode_eq_ok_iff`: a text is read as octets exactly if it is what they are written as.
* `not_mem_encode`: what a symbol is not, a text does not hold.
-/

namespace Keyring.Base64Url

/-! ## Symbols -/

theorem bits?_symbol {n : Nat} (h : n < 64) : bits? (symbol n) = some n := by
  have all : ∀ k < 64, bits? (symbol k) = some k := by decide
  exact all n h

theorem symbol_of_bits? {c : UInt8} {n : Nat} (h : bits? c = some n) : symbol n = c ∧ n < 64 := by
  have all : ∀ k < 256, ∀ n ∈ bits? (UInt8.ofNat k), symbol n = UInt8.ofNat k ∧ n < 64 := by
    decide +kernel
  have octet : UInt8.ofNat c.toNat = c := UInt8.ofNat_toNat
  have found := all c.toNat c.toNat_lt n (by rw [octet]; exact h)
  rwa [octet] at found

theorem symbol_ne_pad {n : Nat} (h : n < 64) : symbol n ≠ pad := by
  have all : ∀ k < 64, symbol k ≠ pad := by decide
  exact all n h

/-- The numbers are six bits each. -/
def Sextets (ns : List Nat) : Prop := ∀ n ∈ ns, n < 64

@[simp] theorem sextets_nil : Sextets [] := by simp [Sextets]

@[simp] theorem sextets_cons {n : Nat} {ns : List Nat} : Sextets (n :: ns) ↔ n < 64 ∧ Sextets ns :=
  List.forall_mem_cons

theorem bitsFrom_symbols {ns : List Nat} (h : Sextets ns) (offset : Nat) :
    bitsFrom offset (ns.map symbol) = .ok ns := by
  induction ns generalizing offset with
  | nil => rfl
  | cons n ns ih =>
    obtain ⟨first, rest⟩ := sextets_cons.mp h
    have read : bitsAt offset (symbol n) = .ok n := by rw [bitsAt, bits?_symbol first]
    rw [List.map_cons, bitsFrom, read, ih rest]
    rfl

theorem symbols_of_bitsFrom {offset : Nat} {text : Bytes} {ns : List Nat}
    (h : bitsFrom offset text = .ok ns) : text = ns.map symbol ∧ Sextets ns := by
  induction text generalizing offset ns with
  | nil =>
    cases h
    exact ⟨rfl, sextets_nil⟩
  | cons c text ih =>
    rw [bitsFrom, bitsAt] at h
    cases hc : bits? c with
    | none =>
      rw [hc] at h
      cases h
    | some n =>
      rw [hc] at h
      cases hrest : bitsFrom (offset + 1) text with
      | error e =>
        rw [hrest] at h
        cases h
      | ok ms =>
        rw [hrest] at h
        cases h
        obtain ⟨rfl, small⟩ := ih hrest
        obtain ⟨rfl, first⟩ := symbol_of_bits? hc
        exact ⟨rfl, sextets_cons.mpr ⟨first, small⟩⟩

/-! ## Groups -/

/-- The octets of a whole group. -/
def octets (a b c d : Nat) : Bytes :=
  [UInt8.ofNat (a * 4 + b / 16), UInt8.ofNat (b % 16 * 16 + c / 4), UInt8.ofNat (c % 4 * 64 + d)]

theorem toNat_ofNat_of_lt {n : Nat} (h : n < 256) : (UInt8.ofNat n).toNat = n := by
  rw [UInt8.toNat_ofNat']
  exact Nat.mod_eq_of_lt h

theorem encode_octets_append {a b c d : Nat} (h : Sextets [a, b, c, d]) (rest : Bytes) :
    encode (octets a b c d ++ rest) = [a, b, c, d].map symbol ++ encode rest := by
  simp only [sextets_cons, sextets_nil, and_true] at h
  obtain ⟨ha, hb, hc, hd⟩ := h
  have first : (UInt8.ofNat (a * 4 + b / 16)).toNat = a * 4 + b / 16 :=
    toNat_ofNat_of_lt (by omega)
  have second : (UInt8.ofNat (b % 16 * 16 + c / 4)).toNat = b % 16 * 16 + c / 4 :=
    toNat_ofNat_of_lt (by omega)
  have third : (UInt8.ofNat (c % 4 * 64 + d)).toNat = c % 4 * 64 + d :=
    toNat_ofNat_of_lt (by omega)
  simp only [octets, List.cons_append, List.nil_append, encode, first, second, third,
    List.map_cons, List.map_nil]
  congr 1
  · congr 1
    omega
  · congr 1
    · congr 1
      omega
    · congr 1
      · congr 1
        omega
      · congr 1
        congr 1
        omega

/-- A last group of symbols only. -/
theorem decodeLast_symbols {ns : List Nat} (h : Sextets ns) (offset : Nat) :
    decodeLast offset (ns.map symbol) = finish offset ((ns.map symbol).getLast?.getD 0) ns := by
  have symbols : ∀ s ∈ ns.map symbol, (s != pad) = true := by
    intro s hs
    obtain ⟨n, hn, rfl⟩ := List.mem_map.mp hs
    simpa using symbol_ne_pad (h n hn)
  have all : (ns.map symbol).takeWhile (· != pad) = ns.map symbol :=
    List.takeWhile_eq_self_iff.mpr symbols
  have none : (ns.map symbol).dropWhile (· != pad) = [] := List.dropWhile_eq_nil_iff.mpr symbols
  rw [decodeLast, all, none, bitsFrom_symbols h]
  rfl

theorem symbols_of_decodeLast {offset : Nat} {group bytes : Bytes}
    (h : decodeLast offset group = .ok bytes) :
    ∃ ns, group = ns.map symbol ∧ Sextets ns ∧
      ∃ last, finish offset last ns = .ok bytes := by
  unfold decodeLast at h
  dsimp only at h
  cases hns : bitsFrom offset (group.takeWhile (· != pad)) with
  | error e =>
    rw [hns] at h
    cases h
  | ok ns =>
    rw [hns] at h
    obtain ⟨symbols, small⟩ := symbols_of_bitsFrom hns
    by_cases unpadded : (group.dropWhile (· != pad)).isEmpty = true
    · have whole : group = ns.map symbol := by
        have split := List.takeWhile_append_dropWhile (p := (· != pad)) (l := group)
        rw [List.isEmpty_iff.mp unpadded, List.append_nil, symbols] at split
        exact split.symm
      have finished : finish offset ((group.takeWhile (· != pad)).getLast?.getD 0) ns =
          .ok bytes := by
        simpa only [bind, Except.bind, unpadded, if_true] using h
      exact ⟨ns, whole, small, _, finished⟩
    · have refused : ∀ e e' : Error, (if (group.takeWhile (· != pad)).length < 2 ∨
          ((group.dropWhile (· != pad)).any (· != pad)) = true then Except.error e
          else Except.error e') ≠ .ok bytes := by
        intro e e'
        split <;> exact nofun
      simp only [bind, Except.bind, unpadded] at h
      exact absurd h (refused _ _)

theorem decodeFrom_group {a b c d : Nat} (h : Sextets [a, b, c, d]) (offset : Nat)
    (rest : Bytes) :
    decodeFrom offset ([a, b, c, d].map symbol ++ rest) =
      (decodeFrom (offset + 4) rest).map (octets a b c d ++ ·) := by
  cases rest with
  | nil => exact decodeLast_symbols h offset
  | cons e rest =>
    have group : decodeFrom offset ([a, b, c, d].map symbol ++ e :: rest) = (do
        let ns ← bitsFrom offset ([a, b, c, d].map symbol)
        let front ← finish offset (symbol d) ns
        let back ← decodeFrom (offset + 4) (e :: rest)
        pure (front ++ back)) := rfl
    rw [group, bitsFrom_symbols h]
    cases decodeFrom (offset + 4) (e :: rest) <;> rfl

/-! ## What is written is read -/

theorem encode_cons (a b c : UInt8) (rest : Bytes) :
    ∃ w x y z, Sextets [w, x, y, z] ∧ octets w x y z = [a, b, c] ∧
      encode (a :: b :: c :: rest) = [w, x, y, z].map symbol ++ encode rest := by
  have ha := a.toNat_lt
  have hb := b.toNat_lt
  have hc := c.toNat_lt
  obtain ⟨n, hn⟩ : ∃ n, n = a.toNat * 65536 + b.toNat * 256 + c.toNat := ⟨_, rfl⟩
  refine ⟨n / 262144, n / 4096 % 64, n / 64 % 64, n % 64, ?_, ?_, ?_⟩
  · simp only [sextets_cons, sextets_nil, and_true]
    omega
  · have first : n / 262144 * 4 + n / 4096 % 64 / 16 = a.toNat := by omega
    have second : n / 4096 % 64 % 16 * 16 + n / 64 % 64 / 4 = b.toNat := by omega
    have third : n / 64 % 64 % 4 * 64 + n % 64 = c.toNat := by omega
    simp only [octets, first, second, third, UInt8.ofNat_toNat]
  · rw [encode, hn]
    rfl

theorem encode_pair (a b : UInt8) :
    ∃ w x y, Sextets [w, x, y] ∧ encode [a, b] = [w, x, y].map symbol ∧
      ∀ offset last, finish offset last [w, x, y] = .ok [a, b] := by
  have ha := a.toNat_lt
  have hb := b.toNat_lt
  obtain ⟨n, hn⟩ : ∃ n, n = a.toNat * 1024 + b.toNat * 4 := ⟨_, rfl⟩
  refine ⟨n / 4096, n / 64 % 64, n % 64, ?_, ?_, ?_⟩
  · simp only [sextets_cons, sextets_nil, and_true]
    omega
  · rw [encode, hn]
    rfl
  · intro offset last
    have first : n / 4096 * 4 + n / 64 % 64 / 16 = a.toNat := by omega
    have second : n / 64 % 64 % 16 * 16 + n % 64 / 4 = b.toNat := by omega
    rw [finish, if_pos (by omega), first, second, UInt8.ofNat_toNat, UInt8.ofNat_toNat]

theorem encode_single (a : UInt8) :
    ∃ w x, Sextets [w, x] ∧ encode [a] = [w, x].map symbol ∧
      ∀ offset last, finish offset last [w, x] = .ok [a] := by
  have ha := a.toNat_lt
  obtain ⟨n, hn⟩ : ∃ n, n = a.toNat * 16 := ⟨_, rfl⟩
  refine ⟨n / 64, n % 64, ?_, ?_, ?_⟩
  · simp only [sextets_cons, sextets_nil, and_true]
    omega
  · rw [encode, hn]
    rfl
  · intro offset last
    have first : n / 64 * 4 + n % 64 / 16 = a.toNat := by omega
    rw [finish, if_pos (by omega), first, UInt8.ofNat_toNat]

theorem decodeFrom_encode (bytes : Bytes) (offset : Nat) :
    decodeFrom offset (encode bytes) = .ok bytes := by
  induction bytes using encode.induct generalizing offset with
  | case1 a b c rest ih =>
    obtain ⟨w, x, y, z, small, whole, written⟩ := encode_cons a b c rest
    rw [written, decodeFrom_group small, ih, whole]
    rfl
  | case2 a b =>
    obtain ⟨w, x, y, small, written, finished⟩ := encode_pair a b
    rw [written]
    exact (decodeLast_symbols small offset).trans (finished _ _)
  | case3 a =>
    obtain ⟨w, x, small, written, finished⟩ := encode_single a
    rw [written]
    exact (decodeLast_symbols small offset).trans (finished _ _)
  | case4 => rfl

theorem encode_symbols (bytes : Bytes) : ∃ ns, encode bytes = ns.map symbol ∧ Sextets ns := by
  induction bytes using encode.induct with
  | case1 a b c rest ih =>
    obtain ⟨w, x, y, z, small, -, written⟩ := encode_cons a b c rest
    obtain ⟨ns, behind, others⟩ := ih
    refine ⟨[w, x, y, z] ++ ns, ?_, List.forall_mem_append.mpr ⟨small, others⟩⟩
    rw [written, behind, List.map_append]
  | case2 a b =>
    obtain ⟨w, x, y, small, written, -⟩ := encode_pair a b
    exact ⟨_, written, small⟩
  | case3 a =>
    obtain ⟨w, x, small, written, -⟩ := encode_single a
    exact ⟨_, written, small⟩
  | case4 => exact ⟨[], rfl, sextets_nil⟩

/-- Only symbols are written. -/
theorem bits?_of_mem_encode {c : UInt8} {bytes : Bytes} (h : c ∈ encode bytes) : bits? c ≠ none := by
  obtain ⟨ns, written, small⟩ := encode_symbols bytes
  rw [written] at h
  obtain ⟨n, hn, rfl⟩ := List.mem_map.mp h
  rw [bits?_symbol (small n hn)]
  exact nofun

/-- What a symbol is not, a text does not hold. -/
theorem not_mem_encode {c : UInt8} (h : bits? c = none) (bytes : Bytes) : c ∉ encode bytes :=
  fun hc => bits?_of_mem_encode hc h

theorem toNat_lt_of_mem_encode {c : UInt8} {bytes : Bytes} (h : c ∈ encode bytes) :
    c.toNat < 128 := by
  have all : ∀ k < 256, bits? (UInt8.ofNat k) ≠ none → k < 128 := by decide +kernel
  refine all c.toNat c.toNat_lt ?_
  rw [UInt8.ofNat_toNat]
  exact bits?_of_mem_encode h

theorem decode_encode (bytes : Bytes) : decode (encode bytes) = .ok bytes := by
  have stray : strayLast? (encode bytes) = none := by
    unfold strayLast?
    split
    · rename_i last hlast
      have symbol := bits?_of_mem_encode (List.mem_of_getLast? hlast)
      rw [if_neg fun h => symbol h.2.2]
    · rfl
  rw [decode, stray]
  exact decodeFrom_encode bytes 0

/-! ## What is read was written -/

theorem encode_of_finish {offset : Nat} {last : UInt8} {ns : List Nat} {bytes : Bytes}
    (small : Sextets ns) (h : finish offset last ns = .ok bytes) :
    encode bytes = ns.map symbol := by
  unfold finish at h
  split at h
  · rename_i a b
    simp only [sextets_cons] at small
    obtain ⟨ha, hb, -⟩ := small
    split at h
    · cases h
      have first : (UInt8.ofNat (a * 4 + b / 16)).toNat = a * 4 + b / 16 :=
        toNat_ofNat_of_lt (by omega)
      have high : (a * 4 + b / 16) * 16 / 64 = a := by omega
      have low : (a * 4 + b / 16) * 16 % 64 = b := by omega
      simp only [encode, first, high, low, List.map_cons, List.map_nil]
    · cases h
  · rename_i a b c
    simp only [sextets_cons] at small
    obtain ⟨ha, hb, hc, -⟩ := small
    split at h
    · cases h
      have first : (UInt8.ofNat (a * 4 + b / 16)).toNat = a * 4 + b / 16 :=
        toNat_ofNat_of_lt (by omega)
      have second : (UInt8.ofNat (b % 16 * 16 + c / 4)).toNat = b % 16 * 16 + c / 4 :=
        toNat_ofNat_of_lt (by omega)
      obtain ⟨n, hn⟩ : ∃ n, n = (a * 4 + b / 16) * 1024 + (b % 16 * 16 + c / 4) * 4 := ⟨_, rfl⟩
      have high : n / 4096 = a := by omega
      have middle : n / 64 % 64 = b := by omega
      have low : n % 64 = c := by omega
      simp only [encode, first, second, ← hn, high, middle, low, List.map_cons, List.map_nil]
    · cases h
  · rename_i a b c d
    cases h
    have written := encode_octets_append small []
    rwa [List.append_nil, encode, List.append_nil] at written
  · cases h

theorem encode_of_decodeLast {offset : Nat} {group bytes : Bytes}
    (h : decodeLast offset group = .ok bytes) : encode bytes = group := by
  obtain ⟨ns, rfl, small, last, finished⟩ := symbols_of_decodeLast h
  exact encode_of_finish small finished

theorem encode_of_decodeFrom {offset : Nat} {text bytes : Bytes}
    (h : decodeFrom offset text = .ok bytes) : encode bytes = text := by
  induction offset, text using decodeFrom.induct generalizing bytes with
  | case1 offset a b c d e rest ih =>
    rw [decodeFrom] at h
    cases hns : bitsFrom offset [a, b, c, d] with
    | error e =>
      rw [hns] at h
      cases h
    | ok ns =>
      obtain ⟨symbols, small⟩ := symbols_of_bitsFrom hns
      obtain ⟨w, x, y, z, rfl⟩ : ∃ w x y z, ns = [w, x, y, z] := by
        have length : ns.length = 4 := by simpa using (congrArg List.length symbols).symm
        match ns, length with
        | [w, x, y, z], _ => exact ⟨w, x, y, z, rfl⟩
      cases hback : decodeFrom (offset + 4) (e :: rest) with
      | error e =>
        rw [hns, hback] at h
        cases h
      | ok back =>
        rw [hns, hback] at h
        have whole : bytes = octets w x y z ++ back := (Except.ok.inj h).symm
        rw [whole, encode_octets_append small, ← symbols, ih hback]
        rfl
  | case2 offset =>
    cases h
    rfl
  | case3 offset group short nonempty =>
    have last : decodeLast offset group = .ok bytes := by
      rw [← h, decodeFrom]
      · exact short
      · exact nonempty
    exact encode_of_decodeLast last

/-- A text is read as octets exactly if it is what they are written as. -/
theorem decode_eq_ok_iff {text bytes : Bytes} : decode text = .ok bytes ↔ encode bytes = text := by
  constructor
  · intro h
    unfold decode at h
    split at h
    · cases h
    · exact encode_of_decodeFrom h
  · rintro rfl
    exact decode_encode bytes

end Keyring.Base64Url
