import Keyring.Json.Value
import Keyring.Key
import Keyring.Token.Claims
import Keyring.Token.Header

/-!
# Signed tokens

A token is three parts in base64url with dots between them: a header, claims, and a signature over
the first two as they are written.

* `Token.encode` issues a token; its expiry is rounded up to a whole second.
* `Token.decode` checks a token against candidate keys, of which one has to verify the signature.
-/

namespace Keyring.Token

/-! ## Issuing -/

/-- The text that is signed. -/
def signedText (header claims : String) : Bytes :=
  Base64Url.encode (Bytes.ofText header) ++ 46 :: Base64Url.encode (Bytes.ofText claims)

/-- The token of claims under a key. -/
def sign (scheme : Scheme) (key : Key) (claims : Claims) : String :=
  let signed := signedText (Header.toJson key.name) claims.toJson
  String.ofList <|
    (signed ++ 46 :: Base64Url.encode (scheme.sign key.seed signed)).map Char.ofUInt8

/-- The claims of a token issued now: the first rule that is broken is reported. -/
def issue (user : String) (lifetime : Duration) (tokenId : String) (now : Instant) :
    Except Error Claims := do
  if lifetime < Duration.ofSeconds 1 then throw (.invalid .shortLifetime)
  if user.isEmpty then throw (.invalid .emptyUserId)
  if tokenId.isEmpty then throw (.invalid .emptyTokenId)
  match now.plus? lifetime with
  | none => throw (.invalid .lifetimeOutOfRange)
  | some expiry => pure ⟨user, tokenId, now.second, expiry.ceilSecond⟩

/-- Issues a token with the given key, if there is one. -/
def encode (scheme : Scheme) (user : String) (lifetime : Duration) (key : Option Key)
    (tokenId : String) (now : Instant) : Except Error String :=
  match key with
  | none => .error (.invalid .noSigningKey)
  | some key => (issue user lifetime tokenId now).map (sign scheme key)

/-- A token that nobody has signed: any header and any claims, and a signature without octets. -/
def unsigned (header claims : Json.Value) : String :=
  let part (v : Json.Value) := Base64Url.encodeText (Bytes.ofText (String.ofList v.write))
  String.ofList (part header ++ '.' :: part claims ++ ['.'])

/-! ## Checking -/

/-- What stands before and behind the last `c`. -/
def splitLast? (c : UInt8) (bytes : Bytes) : Option (Bytes × Bytes) :=
  match bytes.reverse.dropWhile (· != c) with
  | [] => none
  | _ :: front => some (front.reverse, (bytes.reverse.takeWhile (· != c)).reverse)

/-- The parts of a token. -/
structure Parts where
  header : Bytes
  claims : Bytes
  signature : Bytes

namespace Parts

/-- Splits a token at its last two dots. -/
def ofBytes? (token : Bytes) : Option Parts := do
  let (signed, signature) ← splitLast? 46 token
  let (header, claims) ← splitLast? 46 signed
  some ⟨header, claims, signature⟩

/-- The text that the signature is of. -/
def signed (p : Parts) : Bytes := p.header ++ 46 :: p.claims

end Parts

def decodeBase64? (bytes : Bytes) : Option Bytes :=
  match Base64Url.decode bytes with
  | .ok b => some b
  | .error _ => none

/-- The header of a token. -/
def header? (p : Parts) : Option Header := (decodeBase64? p.header).bind Header.ofJson?

/-- The claims of a token, if its signature is the candidate's. -/
def claims? (scheme : Scheme) (p : Parts) (candidate : PublicKey) : Option Claims := do
  let signature ← decodeBase64? p.signature
  if scheme.verify candidate.bytes p.signed signature then
    (decodeBase64? p.claims).bind Claims.ofObject?
  else none

/-- The candidates, those of the given name first. -/
def ordered (keyName : Option String) (candidates : List PublicKey) : List PublicKey :=
  candidates.filter (fun k => some k.name == keyName) ++
    candidates.filter (fun k => some k.name != keyName)

/-- Checks a token against candidate keys at an instant. -/
def decode (scheme : Scheme) (token : String) (candidates : List PublicKey) (now : Instant) :
    Except Rejection Claims :=
  if token.isEmpty then .error .emptyToken
  else
    match (Parts.ofBytes? (Bytes.ofText token)).bind fun p => (header? p).map fun h => (p, h) with
    | none => .error .malformedHeader
    | some (parts, header) =>
      if header.algorithm ≠ Header.edDsa then .error .unsupportedAlgorithm
      else
        match (ordered header.keyName candidates).findSome? (claims? scheme parts) with
        | none => .error .noKeyVerifies
        | some claims =>
          if claims.expires ≤ claims.issued then .error .expiryNotAfterIssue
          else if claims.isExpiredAt now then .error .expired
          else .ok claims

end Keyring.Token
