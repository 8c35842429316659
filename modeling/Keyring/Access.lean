import Keyring.Event

/-!
# Callers that rotate keys

Rotation is asked for by automation, which names itself in two headers: its user agent, and an
identity token. The token is checked by a verifier, and its subject has to be on a list.

* `bearerToken` reads the token from an `Authorization` header.
* `Access.authorize` decides, and says what there is to log.
-/

namespace Keyring

/-- The token of a header `Bearer token`, in which only the scheme is free in its case. -/
def bearerToken (header : String) : Option String :=
  let trimmed := Blank.trim header.toList
  match trimmed.dropWhile (· != ' ') with
  | [] => none
  | _ :: rest =>
    let token := Blank.trim rest
    if (trimmed.takeWhile (· != ' ')).map Char.toLower = "bearer".toList ∧ !token.isEmpty then
      some (String.ofList token)
    else none

/-- The subject that an identity token stands for, or why there is none. -/
abbrev IdentityVerifier := String → Except Error String

/-- The headers of a request for rotation, and the subjects that are let through. -/
structure Access where
  userAgent : String
  authorization : String
  allowedPrincipals : List String

namespace Access

/-- The subject of an authorized caller, and the events on the way to the decision. -/
def authorize (a : Access) (expectedAgent : String) (verify : IdentityVerifier) :
    Except Error String × List Event :=
  if a.userAgent ≠ expectedAgent then (.error (.unauthorized .userAgent), [])
  else
    match bearerToken a.authorization with
    | none => (.error (.unauthorized .noBearerToken), [])
    | some token =>
      match verify token with
      | .error e => (.error (.unauthorized .identityRejected), [.identityRejected e])
      | .ok subject =>
        if a.allowedPrincipals.contains subject then (.ok subject, [])
        else (.error (.unauthorized (.principal subject)), [])

end Access

/-- The verifier that knows exactly these tokens; of two with the same text the later one counts. -/
def identitiesVerifier (identities : List (String × String)) : IdentityVerifier := fun token =>
  match identities.reverse.find? fun p => p.1 == token with
  | some (_, subject) => .ok subject
  | none => .error .invalidCredentials

end Keyring
