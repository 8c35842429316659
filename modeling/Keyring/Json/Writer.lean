import Keyring.Text.Decimal

/-!
# Writing JSON values

Values are written without blanks between tokens. In a string the quote, the backslash and the
control characters are escaped, five of them by letter, and nothing else is.

* `Writer.text`, `Writer.texts`, `Writer.natural`, `Writer.integer` write plain values.
* `Writer.object` writes a record's fields in the given order.
-/

namespace Keyring.Json.Writer

def hexDigit (n : Nat) : Char := if n < 10 then Char.ofNat (48 + n) else Char.ofNat (87 + n)

/-- A character inside a string. -/
def escape (c : Char) : List Char :=
  if c = '"' then ['\\', '"']
  else if c = '\\' then ['\\', '\\']
  else if c = '\x08' then ['\\', 'b']
  else if c = '\x0c' then ['\\', 'f']
  else if c = '\n' then ['\\', 'n']
  else if c = '\r' then ['\\', 'r']
  else if c = '\t' then ['\\', 't']
  else if c.toNat < 32 then ['\\', 'u', '0', '0', hexDigit (c.toNat / 16), hexDigit (c.toNat % 16)]
  else [c]

def text (s : String) : List Char := '"' :: s.toList.flatMap escape ++ ['"']

def natural (n : Nat) : List Char := Decimal.digits n

def integer (n : Int) : List Char := Decimal.ofInt n

/-- Items with commas between them. -/
def separated : List (List Char) → List Char
  | [] => []
  | [item] => item
  | item :: items => item ++ ',' :: separated items

def array (items : List (List Char)) : List Char := '[' :: separated items ++ [']']

def texts (ss : List String) : List Char := array (ss.map text)

/-- An object of values that are already written. -/
def object (fields : List (String × List Char)) : List Char :=
  '{' :: separated (fields.map fun f => text f.1 ++ ':' :: f.2) ++ ['}']

end Keyring.Json.Writer
