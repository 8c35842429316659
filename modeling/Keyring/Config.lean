import Keyring.Error

/-!
# Configuration

How many keys are kept, how often the key cache is refreshed, how long tokens live and when they are
renewed, and who may trigger a rotation.

* `Config` holds only valid settings; `Config.Draft.build` checks them and fills in defaults.
* `checkRetention` is the rule for the number of keys.
* `Settings.Valid` lists all rules, and `Settings.check_eq_ok_iff` says that these are checked.
-/

namespace Keyring

/-- The numbers of keys that may be kept. -/
def checkRetention (bound : Nat) : Except Error Unit :=
  if 1 ≤ bound ∧ bound ≤ 32 then .ok () else .error (.invalid (.retention bound))

theorem checkRetention_eq_ok_iff {bound : Nat} :
    checkRetention bound = .ok () ↔ 1 ≤ bound ∧ bound ≤ 32 := by
  unfold checkRetention
  by_cases range : 1 ≤ bound ∧ bound ≤ 32 <;> simp [range]

/-- The settings, valid or not. -/
structure Settings where
  maxBackups : Nat
  refreshInterval : Duration
  tokenLifetime : Duration
  renewalDelta : Duration
  userAgent : String
  allowedPrincipals : List String
  deriving DecidableEq

namespace Settings

/-- The rules for settings. -/
structure Valid (s : Settings) : Prop where
  retention : 1 ≤ s.maxBackups ∧ s.maxBackups ≤ 32
  interval : 0 < s.refreshInterval.inNanos
  lifetime : Duration.ofSeconds 1 ≤ s.tokenLifetime
  renewal : s.renewalDelta < s.tokenLifetime
  agent : Blank.trim s.userAgent.toList ≠ []

/-- The first rule that the settings break. -/
def check (s : Settings) : Except Error Unit := do
  checkRetention s.maxBackups
  if s.refreshInterval.isZero then throw (.invalid .zeroRefreshInterval)
  if s.tokenLifetime < Duration.ofSeconds 1 then throw (.invalid .shortTokenLifetime)
  if s.tokenLifetime ≤ s.renewalDelta then
    throw (.invalid (.lateRenewal s.renewalDelta s.tokenLifetime))
  if (Blank.trim s.userAgent.toList).isEmpty then throw (.invalid .emptyUserAgent)

/-! Rules in a row are kept if each of them is. -/

theorem bind_eq_ok_iff {first : Except Error Unit} {others : Unit → Except Error Unit} :
    (first >>= others) = .ok () ↔ first = .ok () ∧ others () = .ok () := by
  cases first <;> simp [bind, Except.bind]

theorem rule_eq_ok_iff {broken : Prop} [Decidable broken] {e : Error}
    {others : Unit → Except Error Unit} :
    (if broken then throw e >>= others else others ()) = .ok () ↔ ¬ broken ∧ others () = .ok () := by
  by_cases h : broken
  · simp [h, bind, Except.bind, throw, throwThe, MonadExceptOf.throw]
  · simp [h]

theorem last_eq_ok_iff {broken : Prop} [Decidable broken] {e : Error} :
    (if broken then throw e else pure () : Except Error Unit) = .ok () ↔ ¬ broken := by
  by_cases h : broken
  · simp [h, throw, throwThe, MonadExceptOf.throw]
  · simp [h, pure, Except.pure]

theorem check_eq_ok_iff {s : Settings} : s.check = .ok () ↔ s.Valid := by
  have positive : ¬ s.refreshInterval.isZero = true ↔ 0 < s.refreshInterval.inNanos := by
    simp only [Duration.isZero, Duration.inNanos, Bool.and_eq_true, beq_iff_eq]
    omega
  have visible : ¬ (Blank.trim s.userAgent.toList).isEmpty = true ↔
      Blank.trim s.userAgent.toList ≠ [] := by
    simp
  unfold check
  simp only [bind_eq_ok_iff, rule_eq_ok_iff, last_eq_ok_iff, checkRetention_eq_ok_iff, positive,
    Duration.not_lt, Duration.not_le, visible]
  constructor
  · rintro ⟨retention, interval, lifetime, renewal, agent⟩
    exact ⟨retention, interval, lifetime, renewal, agent⟩
  · rintro ⟨retention, interval, lifetime, renewal, agent⟩
    exact ⟨retention, interval, lifetime, renewal, agent⟩

end Settings

/-- Settings that keep all rules. -/
structure Config extends Settings where
  valid : toSettings.check = .ok ()

namespace Config

theorem rules (c : Config) : c.toSettings.Valid := Settings.check_eq_ok_iff.mp c.valid

/-- The settings that are given; the others take their defaults. -/
structure Draft where
  maxBackups : Option Nat
  refreshInterval : Option Duration
  tokenLifetime : Option Duration
  renewalDelta : Option Duration
  userAgent : Option String
  allowedPrincipals : Option (List String)

def Draft.empty : Draft := ⟨none, none, none, none, none, none⟩

/-- Three keys, a refresh each minute, tokens for a day renewed in the last hour. -/
def defaults : Settings where
  maxBackups := 3
  refreshInterval := Duration.ofSeconds 60
  tokenLifetime := Duration.ofSeconds 86400
  renewalDelta := Duration.ofSeconds 3600
  userAgent := "Google-Cloud-Scheduler"
  allowedPrincipals := []

theorem valid_defaults : defaults.Valid :=
  ⟨by decide, by decide, by decide, by decide, by decide +kernel⟩

def Draft.settings (d : Draft) : Settings where
  maxBackups := d.maxBackups.getD defaults.maxBackups
  refreshInterval := d.refreshInterval.getD defaults.refreshInterval
  tokenLifetime := d.tokenLifetime.getD defaults.tokenLifetime
  renewalDelta := d.renewalDelta.getD defaults.renewalDelta
  userAgent := d.userAgent.getD defaults.userAgent
  allowedPrincipals := d.allowedPrincipals.getD defaults.allowedPrincipals

/-- The configuration of settings, if they keep all rules. -/
def ofSettings (s : Settings) : Except Error Config :=
  match h : s.check with
  | .ok () => .ok ⟨s, h⟩
  | .error e => .error e

def Draft.build (d : Draft) : Except Error Config := ofSettings d.settings

end Config

end Keyring
