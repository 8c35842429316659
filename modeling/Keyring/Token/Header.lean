import Keyring.Json.Reader
import Keyring.Json.Writer

/-!
# Token headers

The header of a signed token names its algorithm and the key that signed it. Reading follows the
JOSE rules: known parameters have their types and stand once, others are skipped.

* `Header.toJson` writes the header of a token that is issued, `Header.ofJson?` reads any.
-/

namespace Keyring

structure Header where
  algorithm : String
  keyName : Option String
  deriving DecidableEq, Repr

namespace Header

/-- The algorithm that tokens are signed with. -/
def edDsa : String := "EdDSA"

/-- The algorithms that a header may name. -/
def algorithms : List String :=
  ["HS256", "HS384", "HS512", "ES256", "ES384", "RS256", "RS384", "RS512", "PS256", "PS384",
   "PS512", edDsa]

/-- The header of tokens that the named key signs. -/
def toJson (keyName : String) : String :=
  String.ofList <| Json.Writer.object
    [("typ", Json.Writer.text "JWT"), ("alg", Json.Writer.text edDsa),
     ("kid", Json.Writer.text keyName)]

/-- The parameters that were given, and the values of two of them. -/
structure Draft where
  given : List String
  algorithm : Option String
  keyName : Option String

/-- A parameter whose value is only checked for its type. -/
def parameter {α : Type} (name : String) (read : Json.Reader Empty α) : Json.Field Empty Draft :=
  ⟨name, fun d => d.given.contains name,
    fun d => read.map fun _ => { d with given := name :: d.given }⟩

def readNull : Json.Reader Empty Unit
  | .null :: ts => .ok ((), ts)
  | t :: _ => .error t.mismatch
  | [] => .error .ended

/-- The name of an algorithm, or an object with the name as its key and nothing behind it. -/
def readAlgorithm : Json.Reader Empty String :=
  Json.Reader.check
    (fun
      | .opening .curly :: .text name :: .colon :: .null :: .closing .curly :: ts => .ok (name, ts)
      | ts => Json.Reader.text ts)
    fun name => if algorithms.contains name then .ok name else .error .invalidValue

def shape : Json.Shape Empty Draft where
  fields :=
    [parameter "typ" (Json.Reader.optional Json.Reader.text),
     ⟨"alg", fun d => d.algorithm.isSome,
      fun d => readAlgorithm.map fun v => { d with algorithm := some v }⟩,
     parameter "cty" (Json.Reader.optional Json.Reader.text),
     parameter "jku" (Json.Reader.optional Json.Reader.text),
     parameter "jwk" readNull,
     ⟨"kid", fun d => d.given.contains "kid",
      fun d => (Json.Reader.optional Json.Reader.text).map fun v =>
        { d with given := "kid" :: d.given, keyName := v }⟩,
     parameter "x5u" (Json.Reader.optional Json.Reader.text),
     parameter "x5c" (Json.Reader.optional Json.Reader.texts),
     parameter "x5t" (Json.Reader.optional Json.Reader.text),
     parameter "x5t#S256" (Json.Reader.optional Json.Reader.text)]
  skipsUnknown := true
  mayEndEarly := false

def Draft.finish (d : Draft) : Except (Json.Error Empty) Header :=
  match d.algorithm with
  | some algorithm => .ok ⟨algorithm, d.keyName⟩
  | none => .error (.missingField "alg")

/-- Reads a header from JSON octets. -/
def ofJson? (bytes : Bytes) : Option Header :=
  match ((shape.read ⟨[], none, none⟩).check Draft.finish).parse bytes with
  | .ok h => some h
  | .error _ => none

end Header

end Keyring
