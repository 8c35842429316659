import Keyring.Config
import Keyring.Json.Reader
import Keyring.Json.Writer

/-!
# Configurations as JSON

A configuration is an object of its six settings, durations being spelled out in units. Settings
that are not given take their defaults; others are refused.

* `Config.toJson` writes a configuration, `Config.ofJson` reads and checks one.
-/

namespace Keyring.Config

def toJson (c : Config) : String :=
  let duration (d : Duration) := Json.Writer.text (String.ofList d.spelled)
  String.ofList <| Json.Writer.object
    [("max_backups", Json.Writer.natural c.maxBackups),
     ("refresh_interval", duration c.refreshInterval),
     ("token_ttl", duration c.tokenLifetime),
     ("renewal_delta", duration c.renewalDelta),
     ("automation_user_agent", Json.Writer.text c.userAgent),
     ("allowed_principals", Json.Writer.texts c.allowedPrincipals)]

def readDuration : Json.Reader Error Duration :=
  Json.Reader.text.check fun s =>
    match Duration.ofSpelled? s.toList with
    | some d => .ok d
    | none => .error .invalidValue

def shape : Json.Shape Error Draft where
  fields :=
    [⟨"max_backups", fun d => d.maxBackups.isSome,
      fun d => Json.Reader.unsigned.map fun v => { d with maxBackups := some v }⟩,
     ⟨"refresh_interval", fun d => d.refreshInterval.isSome,
      fun d => readDuration.map fun v => { d with refreshInterval := some v }⟩,
     ⟨"token_ttl", fun d => d.tokenLifetime.isSome,
      fun d => readDuration.map fun v => { d with tokenLifetime := some v }⟩,
     ⟨"renewal_delta", fun d => d.renewalDelta.isSome,
      fun d => readDuration.map fun v => { d with renewalDelta := some v }⟩,
     ⟨"automation_user_agent", fun d => d.userAgent.isSome,
      fun d => Json.Reader.text.map fun v => { d with userAgent := some v }⟩,
     ⟨"allowed_principals", fun d => d.allowedPrincipals.isSome,
      fun d => Json.Reader.texts.map fun v => { d with allowedPrincipals := some v }⟩]
  skipsUnknown := false
  mayEndEarly := true

/-- A configuration as its text holds it, before the rules are checked. -/
structure Raw where
  maxBackups : Nat
  refreshInterval : Duration
  tokenLifetime : Duration
  renewalDelta : Duration
  userAgent : String
  allowedPrincipals : List String

/-- What was read, with its own defaults for the fields that are not given. -/
def Draft.raw (d : Draft) : Raw where
  maxBackups := d.maxBackups.getD defaults.maxBackups
  refreshInterval := d.refreshInterval.getD defaults.refreshInterval
  tokenLifetime := d.tokenLifetime.getD defaults.tokenLifetime
  renewalDelta := d.renewalDelta.getD defaults.renewalDelta
  userAgent := d.userAgent.getD defaults.userAgent
  allowedPrincipals := d.allowedPrincipals.getD []

/-- The configuration that was read, if it keeps all rules. -/
def Raw.toConfig (r : Raw) : Except Error Config :=
  ofSettings
    { maxBackups := r.maxBackups
      refreshInterval := r.refreshInterval
      tokenLifetime := r.tokenLifetime
      renewalDelta := r.renewalDelta
      userAgent := r.userAgent
      allowedPrincipals := r.allowedPrincipals }

/-- Checks what was read; the rules count before anything that follows the value. -/
def Draft.finish (d : Draft) : Except (Json.Error Error) Config :=
  match d.raw.toConfig with
  | .ok c => .ok c
  | .error e => .error (.refused e)

/-- Reads a configuration from JSON text. -/
def ofJson (text : String) : Except (Json.Error Error) Config :=
  Json.Reader.parse ((shape.read Draft.empty).check Draft.finish) (Bytes.ofText text)

end Keyring.Config
