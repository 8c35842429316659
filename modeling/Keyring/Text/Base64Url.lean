import Keyring.Bytes

/-!
# Base64url without padding

Groups of three octets are written as four symbols of six bits each; a last group of one or two
octets takes two or three symbols. Reading is strict: foreign symbols, padding, a single left-over
symbol and non-zero bits behind the last octet are refused, each with its place in the text.

* `Base64Url.encode` writes octets, `Base64Url.decode` reads them.
* `Base64Url.Error.message` words a refusal.
-/

namespace Keyring.Base64Url

/-- Why a text is not base64url. Offsets count octets of the text. -/
inductive Error where
  | symbol (value : UInt8) (offset : Nat)
  | length (n : Nat)
  | lastSymbol (value : UInt8) (offset : Nat)
  | padding
  deriving DecidableEq, Repr

def Error.message : Error → String
  | .symbol value offset => s!"Invalid symbol {value.toNat}, offset {offset}."
  | .length n => s!"Invalid input length: {n}"
  | .lastSymbol value offset => s!"Invalid last symbol {value.toNat}, offset {offset}."
  | .padding => "Invalid padding"

/-! ## Symbols -/

/-- The symbol of six bits: letters, digits, `-` and `_`. -/
def symbol (n : Nat) : UInt8 :=
  if n < 26 then UInt8.ofNat (65 + n)
  else if n < 52 then UInt8.ofNat (71 + n)
  else if n < 62 then UInt8.ofNat (n - 4)
  else if n = 62 then 45
  else 95

/-- The six bits of a symbol. -/
def bits? (c : UInt8) : Option Nat :=
  if 65 ≤ c ∧ c ≤ 90 then some (c.toNat - 65)
  else if 97 ≤ c ∧ c ≤ 122 then some (c.toNat - 71)
  else if 48 ≤ c ∧ c ≤ 57 then some (c.toNat + 4)
  else if c = 45 then some 62
  else if c = 95 then some 63
  else none

/-- The padding character, which is never part of this form. -/
def pad : UInt8 := 61

/-! ## Writing -/

def encode : Bytes → Bytes
  | a :: b :: c :: rest =>
    let n := a.toNat * 65536 + b.toNat * 256 + c.toNat
    symbol (n / 262144) :: symbol (n / 4096 % 64) :: symbol (n / 64 % 64) :: symbol (n % 64) ::
      encode rest
  | [a, b] =>
    let n := a.toNat * 1024 + b.toNat * 4
    [symbol (n / 4096), symbol (n / 64 % 64), symbol (n % 64)]
  | [a] =>
    let n := a.toNat * 16
    [symbol (n / 64), symbol (n % 64)]
  | [] => []

/-- The symbols as characters. -/
def encodeText (bytes : Bytes) : List Char := (encode bytes).map Char.ofUInt8

/-! ## Reading -/

/-- The bits of the symbol at `offset`. -/
def bitsAt (offset : Nat) (c : UInt8) : Except Error Nat :=
  match bits? c with
  | some n => .ok n
  | none => .error (.symbol c offset)

/-- Reads symbols that stand from `offset` on. -/
def bitsFrom : Nat → Bytes → Except Error (List Nat)
  | _, [] => .ok []
  | offset, c :: rest => do
    let n ← bitsAt offset c
    let ns ← bitsFrom (offset + 1) rest
    pure (n :: ns)

/-- The octets of a last group of two, three or four symbols; `last` is its last symbol. -/
def finish (offset : Nat) (last : UInt8) : List Nat → Except Error Bytes
  | [a, b] =>
    if b % 16 = 0 then .ok [UInt8.ofNat (a * 4 + b / 16)]
    else .error (.lastSymbol last (offset + 1))
  | [a, b, c] =>
    if c % 4 = 0 then
      .ok [UInt8.ofNat (a * 4 + b / 16), UInt8.ofNat (b % 16 * 16 + c / 4)]
    else .error (.lastSymbol last (offset + 2))
  | [a, b, c, d] =>
    .ok [UInt8.ofNat (a * 4 + b / 16), UInt8.ofNat (b % 16 * 16 + c / 4),
      UInt8.ofNat (c % 4 * 64 + d)]
  | ns => .error (.length (offset + ns.length))

/-- Reads the last group, at most four characters. Padding is named as such only where it could
stand in a padded text, behind two or three symbols and before nothing else. -/
def decodeLast (offset : Nat) (group : Bytes) : Except Error Bytes := do
  let symbols := group.takeWhile (· != pad)
  let padding := group.dropWhile (· != pad)
  let ns ← bitsFrom offset symbols
  if padding.isEmpty then finish offset (symbols.getLast?.getD 0) ns
  else if symbols.length < 2 ∨ padding.any (· != pad) then
    .error (.symbol pad (offset + symbols.length))
  else .error .padding

/-- Reads the groups from `offset` on. -/
def decodeFrom : Nat → Bytes → Except Error Bytes
  | offset, a :: b :: c :: d :: e :: rest => do
    let ns ← bitsFrom offset [a, b, c, d]
    let front ← finish offset d ns
    let back ← decodeFrom (offset + 4) (e :: rest)
    pure (front ++ back)
  | _, [] => .ok []
  | offset, group => decodeLast offset group

/-- Whether the text has one character too many and that is no symbol, as a line feed would be. -/
def strayLast? (text : Bytes) : Option Error :=
  match text.getLast? with
  | some last =>
    if text.length % 4 = 1 ∧ last ≠ pad ∧ bits? last = none then
      some (.symbol last (text.length - 1))
    else none
  | none => none

/-- Reads base64url. A stray last character is reported before any other fault. -/
def decode (text : Bytes) : Except Error Bytes :=
  match strayLast? text with
  | some e => .error e
  | none => decodeFrom 0 text

end Keyring.Base64Url
