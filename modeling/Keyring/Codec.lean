import Keyring.Event
import Keyring.Token

/-!
# Token codecs

How tokens are issued and checked, as the gate sees it.

* `Codec.signed` is the codec of signed tokens; it logs why a token is rejected, and says so to
  nobody else.
-/

namespace Keyring

structure Codec where
  /-- Issues a token: for whom, for how long, with which key, under which identifier, and when. -/
  encode (user : String) (lifetime : Duration) (key : Option Key) (tokenId : String)
    (now : Instant) : Except Error String
  /-- Checks a token against candidate keys, and gives its claims. -/
  decode (token : String) (candidates : List PublicKey) (now : Instant) :
    Except Error Claims × List Event

/-- The codec of tokens that are signed by a scheme. -/
def Codec.signed (scheme : Scheme) : Codec where
  encode := Token.encode scheme
  decode token candidates now :=
    match Token.decode scheme token candidates now with
    | .ok claims => (.ok claims, [])
    | .error reason => (.error .invalidCredentials, [.tokenRejected reason])

end Keyring
