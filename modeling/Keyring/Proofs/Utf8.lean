import Keyring.Bytes

/-!
# Texts as octets

The octets of a text are those of its characters, one after the other. Up to 127 a character is its
own octet, and the octets of any other are beyond 127.

* `Bytes.text?_eq_some_iff`: octets are read as the text that they are the octets of.
* `Bytes.ofText_ofList` gives the octets character by character.
-/

namespace Keyring

theorem Bytes.toList_loop (a : ByteArray) (i : Nat) (read : List UInt8) :
    ByteArray.toList.loop a i read = read.reverse ++ a.data.toList.drop i := by
  induction i, read using ByteArray.toList.loop.induct a with
  | case1 i read more ih =>
    have bound : i < a.data.toList.length := by simpa using more
    rw [ByteArray.toList.loop, if_pos more, ih, List.drop_eq_getElem_cons bound]
    have get : a.get! i = a.data.toList[i] := by
      rw [Array.getElem_toList]
      exact getElem!_pos a.data i more
    rw [get, List.reverse_cons, List.append_assoc, List.singleton_append]
  | case2 i read done =>
    have bound : a.data.toList.length ≤ i := by simpa using done
    rw [ByteArray.toList.loop, if_neg done, List.drop_eq_nil_of_le bound, List.append_nil]

theorem Bytes.toList_eq (a : ByteArray) : a.toList = a.data.toList := by
  rw [ByteArray.toList, toList_loop]
  rfl

namespace Bytes

/-- The octets of characters. -/
def ofChars (cs : List Char) : Bytes := cs.flatMap String.utf8EncodeChar

theorem ofChars_cons (c : Char) (cs : List Char) :
    ofChars (c :: cs) = String.utf8EncodeChar c ++ ofChars cs := List.flatMap_cons

theorem ofChars_append (cs ds : List Char) : ofChars (cs ++ ds) = ofChars cs ++ ofChars ds :=
  List.flatMap_append

theorem ofText_ofList (cs : List Char) : ofText (String.ofList cs) = ofChars cs := by
  rw [ofText, toList_eq]
  exact List.toList_data_toByteArray

theorem ofText_eq (s : String) : ofText s = ofChars s.toList := by
  rw [← ofText_ofList, String.ofList_toList]

/-- Octets are read as the text that they are the octets of. -/
theorem text?_eq_some_iff {bytes : Bytes} {s : String} : text? bytes = some s ↔ bytes = ofText s := by
  rw [ofText, toList_eq]
  unfold text? String.fromUTF8?
  constructor
  · intro h
    split at h
    · cases h
      rfl
    · cases h
  · rintro rfl
    have whole : ByteArray.mk (String.toUTF8 s).data.toList.toArray = s.toByteArray := rfl
    rw [dif_pos (whole ▸ s.isValidUTF8)]
    rfl

theorem ofText_injective {s t : String} (h : ofText s = ofText t) : s = t := by
  have read := text?_eq_some_iff.mpr h
  rw [text?_eq_some_iff.mpr rfl] at read
  exact Option.some.inj read

/-! ## Characters -/

theorem utf8EncodeChar_of_lt {c : Char} (h : c.toNat < 128) :
    String.utf8EncodeChar c = [UInt8.ofNat c.toNat] := by
  have small : c.val.toNat ≤ 0x7f := Nat.le_of_lt_succ h
  rw [String.utf8EncodeChar]
  exact if_pos small

theorem ofChars_map_ofUInt8 {bytes : Bytes} (small : ∀ b ∈ bytes, b.toNat < 128) :
    ofChars (bytes.map Char.ofUInt8) = bytes := by
  induction bytes with
  | nil => rfl
  | cons b bytes ih =>
    obtain ⟨first, rest⟩ := List.forall_mem_cons.mp small
    have code : (Char.ofUInt8 b).toNat = b.toNat := UInt8.toNat_toUInt32 b
    have octet : String.utf8EncodeChar (Char.ofUInt8 b) = [b] := by
      rw [utf8EncodeChar_of_lt (code ▸ first), code, UInt8.ofNat_toNat]
    rw [List.map_cons, ofChars_cons, octet, ih rest, List.singleton_append]

theorem le_of_mem_utf8EncodeChar {c : Char} (h : 128 ≤ c.toNat) {b : UInt8}
    (hb : b ∈ String.utf8EncodeChar c) : 128 ≤ b.toNat := by
  have large : ¬ c.val.toNat ≤ 0x7f := Nat.not_le_of_lt h
  simp only [String.utf8EncodeChar] at hb
  rw [if_neg large] at hb
  repeat' split at hb
  all_goals
    simp only [List.mem_cons, List.not_mem_nil, or_false] at hb
    rcases hb with rfl | rfl | rfl | rfl
    all_goals
      rw [UInt8.toNat_ofNat']
      omega

end Bytes

end Keyring
