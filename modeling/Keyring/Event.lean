import Keyring.Error

/-!
# Log events

What the service reports while it works. The events about keys and logins form an audit trail; they
name their subject and say how the action ended.

* `Event.level`, `Event.message` and `Event.fields` give an event's form in the log.
-/

namespace Keyring

inductive Level where
  | trace
  | debug
  | info
  | warn
  | error
  deriving DecidableEq, Repr

inductive Event where
  | cacheRefreshed (count : Nat) (newest : Option String)
  | listFailed (cause : StoreError)
  | outOfOrder
  | unusableKey (name : String) (cause : Error)
  | cacheFresh
  | refreshedMeanwhile
  | refreshFailed (cause : Error)
  | rotationDenied (cause : Error)
  | callerAuthorized (subject : String)
  | keyRotated (name : String)
  | newKeySpared (name : String)
  | keyPruned (name : String)
  | pruneFailed (name : String) (cause : StoreError)
  | rotationComplete (retained pruned : Nat)
  | triggerSucceeded (name : String) (pruned : Nat)
  | triggerFailed (cause : Error)
  | hookRun (name : String)
  | hookRefreshFailed (cause : Error)
  | identityRejected (cause : Error)
  | tokenRejected (reason : Rejection)
  | decodeFailed (cause : Error)
  | tokenRenewed (user : String)
  | renewalFailed (user : String) (cause : Error)
  | loginSucceeded (user : String)
  | loginFailed (user : String)
  deriving DecidableEq

namespace Event

def level : Event → Level
  | hookRun _ => .trace
  | cacheFresh | refreshedMeanwhile | callerAuthorized _ | rotationComplete _ _
  | identityRejected _ | tokenRejected _ | decodeFailed _ | tokenRenewed _ => .debug
  | cacheRefreshed _ _ | keyRotated _ | keyPruned _ | triggerSucceeded _ _ | loginSucceeded _
  | loginFailed _ => .info
  | listFailed _ | outOfOrder | refreshFailed _ | rotationDenied _ | newKeySpared _
  | pruneFailed _ _ | hookRefreshFailed _ | renewalFailed _ _ => .warn
  | unusableKey _ _ | triggerFailed _ => .error

/-- Events of the audit trail share one message. -/
def message : Event → String
  | cacheRefreshed _ _ | rotationDenied _ | keyRotated _ | keyPruned _ | pruneFailed _ _
  | loginSucceeded _ | loginFailed _ => "audit_event"
  | listFailed _ => "key list failed; keeping previous snapshot"
  | outOfOrder => "repository returned keys out of creation order; using repository order"
  | unusableKey _ _ => "unusable signing key; keeping previous snapshot"
  | cacheFresh => "key cache fresh; skipping refresh"
  | refreshedMeanwhile => "key cache refreshed concurrently; skipping refresh"
  | refreshFailed _ => "key cache refresh failed; serving previous keys"
  | callerAuthorized _ => "rotation caller authorized"
  | newKeySpared _ => "repository listed the new key past the retention bound; not deleting it"
  | rotationComplete _ _ => "rotation complete"
  | triggerSucceeded _ _ => "signing key rotated"
  | triggerFailed _ => "signing key rotation failed"
  | hookRun _ => "running response interceptor"
  | hookRefreshFailed _ => "post-response key cache refresh failed"
  | identityRejected _ => "identity token rejected"
  | tokenRejected _ => "token rejected"
  | decodeFailed _ => "token decode failed"
  | tokenRenewed _ => "token renewed"
  | renewalFailed _ _ => "token renewal failed; keeping current token"

inductive Value where
  | text (s : String)
  | count (n : Nat)
  deriving DecidableEq, Repr

/-- The fields of an audit event. -/
def audit (action resource result : String) : List (String × Value) :=
  [("audit.action", .text action), ("audit.resource", .text resource),
   ("audit.result", .text result)]

def fields : Event → List (String × Value)
  | cacheRefreshed count newest =>
    audit "refresh_key_cache" "signing_keys" "success" ++
      [("audit.key_count", .count count), ("current", .text (newest.getD "<none>"))]
  | listFailed cause => [("error", .text cause.message)]
  | outOfOrder | cacheFresh | refreshedMeanwhile => []
  | unusableKey name cause => [("key", .text name), ("error", .text cause.message)]
  | refreshFailed cause | triggerFailed cause | hookRefreshFailed cause | identityRejected cause
  | decodeFailed cause => [("error", .text cause.message)]
  | rotationDenied cause =>
    audit "rotate_signing_key" "signing_keys" "denied" ++ [("error", .text cause.message)]
  | callerAuthorized subject => [("principal", .text subject)]
  | keyRotated name => audit "rotate_signing_key" name "success"
  | newKeySpared name => [("key", .text name)]
  | keyPruned name => audit "prune_signing_key" name "success"
  | pruneFailed name cause =>
    audit "prune_signing_key" name "failure" ++ [("error", .text cause.message)]
  | rotationComplete retained pruned =>
    [("retained", .count retained), ("pruned", .count pruned)]
  | triggerSucceeded name pruned => [("key", .text name), ("pruned", .count pruned)]
  | hookRun name => [("interceptor", .text name)]
  | tokenRejected reason => [("reason", .text reason.message)]
  | tokenRenewed user => [("user_id", .text user)]
  | renewalFailed user cause => [("user_id", .text user), ("error", .text cause.message)]
  | loginSucceeded user => audit "login" user "success"
  | loginFailed user => audit "login" user "failure"

end Event

end Keyring
