import Keyring.Json.Number

/-!
# JSON tokens

A text is cut into tokens from the left. Cutting stops behind the first token that is not JSON, so
a reader that takes tokens in order meets the first problem of the text first. Some tokens are
faulty only for a reader that wants their value: a string that is not Unicode text may still be
skipped, and so may a number of any size.

* `Token.ofBytes` cuts a text into tokens.
* `Text.scan` reads a string up to its closing quote, `Text.value?` gives its text.
-/

namespace Keyring.Json

inductive Bracket where
  | square
  | curly
  deriving DecidableEq, Repr

inductive Token where
  | opening (b : Bracket)
  | closing (b : Bracket)
  | comma
  | colon
  | null
  | bool (value : Bool)
  | number (n : Number)
  | text (s : String)
  /-- A closed string that is not Unicode text: lone surrogates, octets that are not UTF-8. -/
  | looseText
  /-- A string that does not close, or holds what no string may hold. -/
  | brokenText (flaw : Flaw)
  /-- A name or number that breaks off or goes on wrongly. -/
  | broken (flaw : Flaw)
  /-- A character that starts no token. -/
  | junk
  deriving DecidableEq, Repr

/-! ## Strings -/

namespace Text

/-- A string holds octets of its own and code units that were written by number. -/
inductive Piece where
  | octet (b : UInt8)
  | unit (n : Nat)

/-- How a string ends: at its closing quote, before `rest`, or at a flaw. -/
inductive Ending where
  | closed (rest : Bytes)
  | broken (flaw : Flaw)

def hexDigit? (b : UInt8) : Option Nat :=
  if 48 ≤ b ∧ b ≤ 57 then some (b.toNat - 48)
  else if 97 ≤ b ∧ b ≤ 102 then some (b.toNat - 87)
  else if 65 ≤ b ∧ b ≤ 70 then some (b.toNat - 55)
  else none

def hexUnit? (a b c d : UInt8) : Option Nat := do
  let a ← hexDigit? a
  let b ← hexDigit? b
  let c ← hexDigit? c
  let d ← hexDigit? d
  pure (((a * 16 + b) * 16 + c) * 16 + d)

/-- The octet that an escape of one letter stands for. -/
def shortEscape? (b : UInt8) : Option UInt8 :=
  if b = 34 ∨ b = 92 ∨ b = 47 then some b
  else if b = 98 then some 8
  else if b = 102 then some 12
  else if b = 110 then some 10
  else if b = 114 then some 13
  else if b = 116 then some 9
  else none

/-- Reads a string behind its opening quote. -/
def scan : Bytes → List Piece × Ending
  | [] => ([], .broken .ended)
  | 92 :: 117 :: a :: b :: c :: d :: rest =>
    match hexUnit? a b c d with
    | some n =>
      let (pieces, ending) := scan rest
      (.unit n :: pieces, ending)
    | none => ([], .broken .malformed)
  | 92 :: 117 :: _ => ([], .broken .ended)
  | 92 :: e :: rest =>
    match shortEscape? e with
    | some b =>
      let (pieces, ending) := scan rest
      (.octet b :: pieces, ending)
    | none => ([], .broken .malformed)
  | [92] => ([], .broken .ended)
  | b :: rest =>
    if b = 34 then ([], .closed rest)
    else if b < 32 then ([], .broken .malformed)
    else
      let (pieces, ending) := scan rest
      (.octet b :: pieces, ending)

def isLead (n : Nat) : Bool := 0xD800 ≤ n && n ≤ 0xDBFF

def isTrail (n : Nat) : Bool := 0xDC00 ≤ n && n ≤ 0xDFFF

/-- The character of a pair of surrogates. -/
def pairChar (lead trail : Nat) : Char :=
  Char.ofNat (0x10000 + (lead - 0xD800) * 0x400 + (trail - 0xDC00))

/-- The octets of the pieces; surrogates must come in pairs. -/
def octets? : List Piece → Option Bytes
  | [] => some []
  | .octet b :: rest => (octets? rest).map (b :: ·)
  | .unit n :: .unit m :: rest =>
    if isLead n then
      if isTrail m then (octets? rest).map (String.utf8EncodeChar (pairChar n m) ++ ·) else none
    else if isTrail n then none
    else (octets? (.unit m :: rest)).map (String.utf8EncodeChar (Char.ofNat n) ++ ·)
  | .unit n :: rest =>
    if isLead n ∨ isTrail n then none
    else (octets? rest).map (String.utf8EncodeChar (Char.ofNat n) ++ ·)

/-- The text of the pieces. -/
def value? (pieces : List Piece) : Option String := (octets? pieces).bind Bytes.text?

/-- Whether the pieces hold a surrogate that no later piece can complete. -/
def hasLone : List Piece → Bool
  | [] => false
  | .octet _ :: rest => hasLone rest
  | [.unit n] => isTrail n
  | .unit n :: .unit m :: rest =>
    if isLead n then !isTrail m || hasLone rest
    else isTrail n || hasLone (.unit m :: rest)
  | .unit n :: .octet _ :: rest => isLead n || isTrail n || hasLone rest

/-- The token of a string and what follows it. Of a lone surrogate and the end of the text the one
that comes first counts. -/
def token (bytes : Bytes) : Token × Bytes :=
  match scan bytes with
  | (pieces, .closed rest) =>
    match value? pieces with
    | some s => (.text s, rest)
    | none => (.looseText, rest)
  | (pieces, .broken flaw) => (.brokenText (if hasLone pieces then .malformed else flaw), [])

end Text

/-! ## Cutting -/

namespace Token

def isBlank (b : UInt8) : Bool := b = 32 || b = 10 || b = 9 || b = 13

/-- Takes the letters of a name from the front. -/
def scanName : Bytes → Bytes → Except Flaw Bytes
  | [], bytes => .ok bytes
  | _ :: _, [] => .error .ended
  | c :: name, b :: bytes => if b = c then scanName name bytes else .error .malformed

def name (token : Token) (letters bytes : Bytes) : Token × Bytes :=
  match scanName letters bytes with
  | .ok rest => (token, rest)
  | .error flaw => (.broken flaw, [])

def numeral (bytes : Bytes) : Token × Bytes :=
  match Number.Parts.scan bytes with
  | .ok (parts, rest) => (.number parts.number, rest)
  | .error flaw => (.broken flaw, [])

/-- The token that starts with octet `b`, and the text behind it. -/
def first (b : UInt8) (rest : Bytes) : Token × Bytes :=
  if b = 123 then (.opening .curly, rest)
  else if b = 125 then (.closing .curly, rest)
  else if b = 91 then (.opening .square, rest)
  else if b = 93 then (.closing .square, rest)
  else if b = 44 then (.comma, rest)
  else if b = 58 then (.colon, rest)
  else if b = 34 then Text.token rest
  else if b = 110 then name .null [117, 108, 108] rest
  else if b = 116 then name (.bool true) [114, 117, 101] rest
  else if b = 102 then name (.bool false) [97, 108, 115, 101] rest
  else if b = 45 ∨ Number.isDigit b then numeral (b :: rest)
  else (.junk, [])

/-- The tokens of a text, in order. -/
def ofBytes (bytes : Bytes) : List Token :=
  match bytes.dropWhile isBlank with
  | [] => []
  | b :: rest =>
    let (token, behind) := first b rest
    if _h : behind.length < bytes.length then token :: ofBytes behind else [token]
termination_by bytes.length

end Token

end Keyring.Json
