/-!
# Bytes

Octet strings as lists, the form in which texts are signed, encoded and read.

* `Bytes.ofText` and `Bytes.text?` pass between texts and their UTF-8 octets; `text?` answers only
  for well-formed UTF-8.
* `Bytes.bigEndian` and `Bytes.littleEndian` write numbers of a fixed width,
  `Bytes.ofLittleEndian` reads them.
-/

namespace Keyring

abbrev Bytes := List UInt8

namespace Bytes

/-- The UTF-8 octets of a text. -/
def ofText (text : String) : Bytes := text.toUTF8.toList

/-- The text whose UTF-8 octets these are. -/
def text? (bytes : Bytes) : Option String := String.fromUTF8? (ByteArray.mk bytes.toArray)

/-- The low `width` octets of `n`, most significant first. -/
def bigEndian (width n : Nat) : Bytes :=
  (List.range width).reverse.map fun i => UInt8.ofNat (n / Nat.pow 256 i)

/-- The low `width` octets of `n`, least significant first. -/
def littleEndian (width n : Nat) : Bytes :=
  (List.range width).map fun i => UInt8.ofNat (n / Nat.pow 256 i)

/-- The number whose octets these are, least significant first. -/
def ofLittleEndian (bytes : Bytes) : Nat := bytes.foldr (fun b n => b.toNat + 256 * n) 0

/-- The number whose octets these are, most significant first. -/
def ofBigEndian (bytes : Bytes) : Nat := bytes.foldl (fun n b => 256 * n + b.toNat) 0

@[simp] theorem length_bigEndian (width n : Nat) : (bigEndian width n).length = width := by
  simp [bigEndian]

end Bytes

end Keyring
