import Keyring.Entropy
import Keyring.Json.Writer

/-!
# Random identifiers

Identifiers of 128 bits, of which 122 are random and the others say so. They are written as 36
characters: lower-case hexadecimal digits in five groups with dashes between them.

* `Uuid.random` draws an identifier, `Uuid.isRandom` tells whether a text is one.
* `Uuid.isRandom_random`: what is drawn is one.
-/

namespace Keyring.Uuid

/-- The two hexadecimal digits of an octet. -/
def octet (b : UInt8) : List Char :=
  [Json.Writer.hexDigit (b.toNat / 16), Json.Writer.hexDigit (b.toNat % 16)]

/-- Sets the digit that tells random identifiers, and the two bits that tell the layout. -/
def mark (octets : Bytes) : Bytes :=
  octets.mapIdx fun i b =>
    if i = 6 then (b &&& 0x0F) ||| 0x40 else if i = 8 then (b &&& 0x3F) ||| 0x80 else b

/-- Octets in groups of four, two, two, two and six. -/
def write (octets : Bytes) : List Char :=
  let group (start count : Nat) := ((octets.drop start).take count).flatMap octet
  group 0 4 ++ '-' :: group 4 2 ++ '-' :: group 6 2 ++ '-' :: group 8 2 ++ '-' :: group 10 6

/-- The `n`-th identifier of a pool. -/
def random (pool : Entropy) (n : Nat) : String :=
  String.ofList (write (mark ((pool.block n).take 16)))

def isHexDigit (c : Char) : Bool := Char.isDigit c || ('a' ≤ c && c ≤ 'f')

/-- What may stand at each of the places of a random identifier. -/
def places : List (Char → Bool) :=
  let digits (n : Nat) := List.replicate n isHexDigit
  digits 8 ++ (· == '-') :: digits 4 ++ (· == '-') :: (· == '4') :: digits 3 ++ (· == '-') ::
    (fun c => "89ab".toList.contains c) :: digits 3 ++ (· == '-') :: digits 12

/-- Whether a text is a random identifier. -/
def isRandom (text : String) : Bool :=
  text.toList.length == places.length &&
    (text.toList.zip places).all fun p => p.2 p.1

/-! ## What is drawn is random -/

theorem isHexDigit_hexDigit {n : Nat} (h : n < 16) : isHexDigit (Json.Writer.hexDigit n) = true := by
  revert n
  decide

theorem isHexDigit_high (b : UInt8) : isHexDigit (Json.Writer.hexDigit (b.toNat / 16)) = true := by
  have range := b.toNat_lt
  apply isHexDigit_hexDigit
  omega

theorem isHexDigit_low (n : Nat) : isHexDigit (Json.Writer.hexDigit (n % 16)) = true :=
  isHexDigit_hexDigit (Nat.mod_lt _ (by decide))

theorem marked_version (n : Nat) : (n &&& 15 ||| 64) / 16 = 4 := by
  have all : ∀ m < 16, (m ||| 64) / 16 = 4 := by decide
  exact all _ (Nat.lt_succ_of_le Nat.and_le_right)

theorem marked_layout (n : Nat) :
    Json.Writer.hexDigit ((n &&& 63 ||| 128) / 16) ∈ ['8', '9', 'a', 'b'] := by
  have all : ∀ m < 64, Json.Writer.hexDigit ((m ||| 128) / 16) ∈ ['8', '9', 'a', 'b'] := by decide
  exact all _ (Nat.lt_succ_of_le Nat.and_le_right)

theorem isRandom_write : ∀ {octets : Bytes}, octets.length = 16 →
    isRandom (String.ofList (write (mark octets))) = true
  | [_, _, _, _, _, _, version, _, layout, _, _, _, _, _, _, _], _ => by
    have digit : Json.Writer.hexDigit ((version.toNat &&& 15 ||| 64) / 16) = '4' := by
      rw [marked_version]
      rfl
    have bits := marked_layout layout.toNat
    simp only [List.mem_cons, List.not_mem_nil, or_false] at bits
    simp [isRandom, write, mark, places, octet, isHexDigit_high, isHexDigit_low, digit, bits]

/-- Every identifier of a pool is a random one. -/
theorem isRandom_random (pool : Entropy) (n : Nat) : isRandom (random pool n) = true := by
  apply isRandom_write
  simp [Entropy.block, Sha512.length_digest]

/-- A random identifier is not the empty text. -/
theorem ne_empty_of_isRandom {text : String} (h : isRandom text = true) : text ≠ "" := by
  rintro rfl
  revert h
  decide

end Keyring.Uuid
