import Keyring.Json.Writer

/-!
# JSON values

Values of any shape, with whole numbers only.

* `Value.write` writes a value, the entries of its objects in the order of their keys.
-/

namespace Keyring.Json

inductive Value where
  | null
  | bool (b : Bool)
  | integer (n : Int)
  | text (s : String)
  | array (items : List Value)
  | object (entries : List (String × Value))

namespace Value

/-- Entries in the order of their keys, octet by octet of their UTF-8 form. -/
def inOrder (entries : List (String × List Char)) : List (String × List Char) :=
  entries.mergeSort fun a b => !decide (b.1 < a.1)

mutual

def write : Value → List Char
  | null => "null".toList
  | bool b => (if b then "true" else "false").toList
  | integer n => Writer.integer n
  | text s => Writer.text s
  | array items => Writer.array (writeItems items)
  | object entries => Writer.object (inOrder (writeEntries entries))

def writeItems : List Value → List (List Char)
  | [] => []
  | v :: vs => write v :: writeItems vs

def writeEntries : List (String × Value) → List (String × List Char)
  | [] => []
  | (key, v) :: rest => (key, write v) :: writeEntries rest

end

end Value

end Keyring.Json
