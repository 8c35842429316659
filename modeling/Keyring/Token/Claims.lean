import Keyring.Json.Reader
import Keyring.Json.Writer
import Keyring.Time.Instant

/-!
# Token claims

What a token says: whose it is, its own identifier, and the seconds at which it was issued and at
which it expires. It is still valid in the instant of its expiry.

* `Claims.isExpiredAt` and `Claims.remainingAt` compare the expiry with an instant.
* `Claims.toJson` writes claims, `Claims.ofJson` reads them: four fields, once each, and no others.
-/

namespace Keyring

/-- The seconds are whole numbers of 64 bits, and need not be instants. -/
structure Claims where
  subject : String
  tokenId : String
  issued : Int
  expires : Int
  deriving DecidableEq, Repr

namespace Claims

def issuedAt (c : Claims) : Instant := Instant.ofSecond c.issued

/-- The instant of expiry, the earliest of all if the second is out of range. -/
def expiresAt (c : Claims) : Instant := Instant.ofSecond c.expires

def isExpiredAt (c : Claims) (now : Instant) : Bool := decide (c.expiresAt < now)

/-- The life left, none once the token has expired. -/
def remainingAt (c : Claims) (now : Instant) : Duration := c.expiresAt.since now

/-! ## JSON -/

def toJson (c : Claims) : String :=
  String.ofList <| Json.Writer.object
    [("sub", Json.Writer.text c.subject), ("jti", Json.Writer.text c.tokenId),
     ("iat", Json.Writer.integer c.issued), ("exp", Json.Writer.integer c.expires)]

/-- The claims as far as they are known. -/
structure Draft where
  subject : Option String
  tokenId : Option String
  issued : Option Int
  expires : Option Int

def shape : Json.Shape Empty Draft where
  fields :=
    [⟨"sub", fun d => d.subject.isSome,
      fun d => Json.Reader.text.map fun v => { d with subject := some v }⟩,
     ⟨"jti", fun d => d.tokenId.isSome,
      fun d => Json.Reader.text.map fun v => { d with tokenId := some v }⟩,
     ⟨"iat", fun d => d.issued.isSome,
      fun d => Json.Reader.signed.map fun v => { d with issued := some v }⟩,
     ⟨"exp", fun d => d.expires.isSome,
      fun d => Json.Reader.signed.map fun v => { d with expires := some v }⟩]
  skipsUnknown := false
  mayEndEarly := false

def Draft.finish (d : Draft) : Except (Json.Error Empty) Claims :=
  match d.subject, d.tokenId, d.issued, d.expires with
  | some subject, some tokenId, some issued, some expires =>
    .ok ⟨subject, tokenId, issued, expires⟩
  | none, _, _, _ => .error (.missingField "sub")
  | some _, none, _, _ => .error (.missingField "jti")
  | some _, some _, none, _ => .error (.missingField "iat")
  | some _, some _, some _, none => .error (.missingField "exp")

def read : Json.Reader Empty Claims := (shape.read ⟨none, none, none, none⟩).check Draft.finish

/-- Reads claims from JSON text. -/
def ofJson (text : String) : Except (Json.Error Empty) Claims := read.parse (Bytes.ofText text)

/-- Reads claims from JSON octets that hold an object, as tokens carry them. -/
def ofObject? (bytes : Bytes) : Option Claims :=
  match (Json.Reader.parse readObject bytes : Except (Json.Error Empty) Claims) with
  | .ok c => some c
  | .error _ => none
where
  readObject : Json.Reader Empty Claims
    | .opening .curly :: ts => read (.opening .curly :: ts)
    | _ => .error .invalidType

end Claims

end Keyring
