import Keyring.Json.Writer
import Keyring.Text.Printable

/-!
# Diagnostic texts

Values in the form in which they are shown to people who look for faults: quoted texts, and records
with named fields. A record may be left open, to say that it has more fields than are shown.

* `Diagnostic.quoted` writes a text, `Diagnostic.record` a record.
-/

namespace Keyring.Diagnostic

/-- Hexadecimal digits without leading zeros. -/
def hex (n : Nat) : List Char :=
  if n < 16 then [Json.Writer.hexDigit n] else hex (n / 16) ++ [Json.Writer.hexDigit (n % 16)]
termination_by n
decreasing_by omega

/-- A character inside quotes: five are escaped by letter, others that do not print by number. -/
def escape (c : Char) : List Char :=
  if c = '"' then ['\\', '"']
  else if c = '\\' then ['\\', '\\']
  else if c = '\n' then ['\\', 'n']
  else if c = '\r' then ['\\', 'r']
  else if c = '\t' then ['\\', 't']
  else if c.toNat = 0 then ['\\', '0']
  else if Printable.isPrintable c then [c]
  else ['\\', 'u', '{'] ++ hex c.toNat ++ ['}']

def quoted (s : String) : List Char := '"' :: s.toList.flatMap escape ++ ['"']

/-- Items with a comma and a space between them. -/
def listed (items : List (List Char)) : List Char := [',', ' '].intercalate items

/-- A list in brackets. -/
def list (items : List (List Char)) : List Char := '[' :: listed items ++ [']']

/-- A record with the fields that are shown; if it is open, two dots stand for the others. -/
def record (name : String) (fields : List (String × List Char)) (isOpen : Bool) : String :=
  let shown := fields.map fun f => f.1.toList ++ [':', ' '] ++ f.2
  let all := if isOpen then shown ++ [['.', '.']] else shown
  String.ofList (name.toList ++ [' ', '{', ' '] ++ listed all ++ [' ', '}'])

end Keyring.Diagnostic
