import MindMapVault.Foundations.Result
import MindMapVault.Vault.MindMap
import MindMapVault.Vault.VersionId

/-!
# The settings of an instance

The one row an operator edits from the admin console, with the ranges its limits
have to lie in. What an update accepts lies in them again, so every limit the
throttles are ever given does.
-/

namespace MindMapVault
namespace Throttle

open Result
open Vault (DateTime)

/-- `InstanceSettings`. -/
structure InstanceSettings where
  registrationEnabled : Bool
  userStorageLimitBytes : Int
  maxAttachmentSizeBytes : Int
  authRateLimitPerMinute : Int
  lookupRateLimitPerMinute : Int
  failedLoginThreshold : Int
  failedLoginLockoutMinutes : Int
  trustedProxyCidrs : List String
  legacyTrustProxyHeaders : Bool
  updatedAt : DateTime
  deriving DecidableEq

namespace InstanceSettings

/-- `InstanceSettings::default`, made at the given time. -/
def default (now : DateTime) : InstanceSettings where
  registrationEnabled := true
  userStorageLimitBytes := 0
  maxAttachmentSizeBytes := 0
  authRateLimitPerMinute := 30
  lookupRateLimitPerMinute := 120
  failedLoginThreshold := 10
  failedLoginLockoutMinutes := 15
  trustedProxyCidrs := []
  legacyTrustProxyHeaders := false
  updatedAt := now

/-- The limits lie in the ranges the admin console accepts. -/
structure InRange (settings : InstanceSettings) : Prop where
  userStorageLimitBytes : 0 ≤ settings.userStorageLimitBytes
  maxAttachmentSizeBytes : 0 ≤ settings.maxAttachmentSizeBytes
  authRateLimit : 0 ≤ settings.authRateLimitPerMinute ∧ settings.authRateLimitPerMinute ≤ 100000
  lookupRateLimit : 0 ≤ settings.lookupRateLimitPerMinute ∧
    settings.lookupRateLimitPerMinute ≤ 100000
  failedLoginThreshold : 0 ≤ settings.failedLoginThreshold ∧ settings.failedLoginThreshold ≤ 1000
  failedLoginLockout : 1 ≤ settings.failedLoginLockoutMinutes ∧
    settings.failedLoginLockoutMinutes ≤ 1440

theorem default_inRange (now : DateTime) : (default now).InRange := by
  constructor <;> simp [default]

end InstanceSettings

/-- Settings whose limits lie in the accepted ranges. -/
abbrev AcceptedSettings := {settings : InstanceSettings // settings.InRange}

/-- `UpdateInstanceSettingsRequest`. -/
structure UpdateInstanceSettingsRequest where
  registrationEnabled : Option Bool
  userStorageLimitBytes : Option Int
  maxAttachmentSizeBytes : Option Int
  authRateLimitPerMinute : Option Int
  lookupRateLimitPerMinute : Option Int
  failedLoginThreshold : Option Int
  failedLoginLockoutMinutes : Option Int
  trustedProxyCidrs : Option (List String)
  deriving DecidableEq

namespace UpdateInstanceSettingsRequest

/-- One number of an update: left alone where absent, refused where it is not
accepted, stored otherwise. -/
def editNumber (value : Option Int) (accepts : Int → Bool) (refusal : String)
    (store : InstanceSettings → Int → InstanceSettings)
    (next : InstanceSettings) : Except String InstanceSettings :=
  match value with
  | none => .ok next
  | some value => if accepts value then .ok (store next value) else .error refusal

/-- The proxy ranges of an update, trimmed and without empty entries. -/
def editTrustedProxies (rejectedCidrs : List String → List String)
    (value : Option (List String)) (next : InstanceSettings) :
    Except String InstanceSettings :=
  match value with
  | none => .ok next
  | some entries =>
      if rejectedCidrs entries ≠ [] then
        .error ("trusted_proxy_cidrs entries are not addresses or CIDR ranges: " ++
          ", ".intercalate (rejectedCidrs entries))
      else
        .ok { next with
          legacyTrustProxyHeaders := false
          trustedProxyCidrs := (entries.map Vault.trim).filter (· != "") }

/-- `UpdateInstanceSettingsRequest::apply`. `rejectedCidrs` is the list of the
entries `TrustedProxies::parse` could not read. -/
def apply (rejectedCidrs : List String → List String)
    (request : UpdateInstanceSettingsRequest) (current : InstanceSettings)
    (now : DateTime) : Except String InstanceSettings := do
  let next := { current with
    registrationEnabled := request.registrationEnabled.getD current.registrationEnabled }
  let next ← editNumber request.userStorageLimitBytes (fun value => 0 ≤ value)
    "user_storage_limit_bytes must be 0 (unlimited) or more"
    (fun next value => { next with userStorageLimitBytes := value }) next
  let next ← editNumber request.maxAttachmentSizeBytes (fun value => 0 ≤ value)
    "max_attachment_size_bytes must be 0 (unlimited) or more"
    (fun next value => { next with maxAttachmentSizeBytes := value }) next
  let next ← editNumber request.authRateLimitPerMinute
    (fun value => 0 ≤ value ∧ value ≤ 100000)
    "auth_rate_limit_per_minute must be between 0 and 100000"
    (fun next value => { next with authRateLimitPerMinute := value }) next
  let next ← editNumber request.lookupRateLimitPerMinute
    (fun value => 0 ≤ value ∧ value ≤ 100000)
    "lookup_rate_limit_per_minute must be between 0 and 100000"
    (fun next value => { next with lookupRateLimitPerMinute := value }) next
  let next ← editNumber request.failedLoginThreshold
    (fun value => 0 ≤ value ∧ value ≤ 1000)
    "failed_login_threshold must be between 0 and 1000"
    (fun next value => { next with failedLoginThreshold := value }) next
  let next ← editNumber request.failedLoginLockoutMinutes
    (fun value => 1 ≤ value ∧ value ≤ 1440)
    "failed_login_lockout_minutes must be between 1 and 1440"
    (fun next value => { next with failedLoginLockoutMinutes := value }) next
  let next ← editTrustedProxies rejectedCidrs request.trustedProxyCidrs next
  .ok { next with updatedAt := now }

/-- Editing one number keeps the ranges where every accepted value does. -/
theorem editNumber_inRange {value : Option Int} {accepts : Int → Bool} {refusal : String}
    {store : InstanceSettings → Int → InstanceSettings} {current next : InstanceSettings}
    (edited : editNumber value accepts refusal store current = .ok next) (inRange : current.InRange)
    (stored : ∀ value, accepts value = true → (store current value).InRange) :
    next.InRange := by
  cases value with
  | none => exact Except.ok.inj edited ▸ inRange
  | some value =>
      by_cases accepted : accepts value = true
      · rw [editNumber, if_pos accepted] at edited
        exact Except.ok.inj edited ▸ stored value accepted
      · rw [editNumber, if_neg accepted] at edited
        cases edited

theorem editTrustedProxies_inRange
    {rejectedCidrs : List String → List String} {value : Option (List String)}
    {current next : InstanceSettings}
    (edited : editTrustedProxies rejectedCidrs value current = .ok next)
    (inRange : current.InRange) : next.InRange := by
  cases value with
  | none => exact Except.ok.inj edited ▸ inRange
  | some entries =>
      unfold editTrustedProxies at edited
      by_cases rejected : rejectedCidrs entries ≠ []
      · simp only [if_pos rejected] at edited
        cases edited
      · simp only [if_neg rejected] at edited
        exact Except.ok.inj edited ▸ { inRange with }

/-- An accepted update leaves every limit in its range. -/
theorem apply_inRange {rejectedCidrs : List String → List String}
    {request : UpdateInstanceSettingsRequest} {current next : InstanceSettings} {now : DateTime}
    (applied : request.apply rejectedCidrs current now = .ok next)
    (inRange : current.InRange) : next.InRange := by
  unfold apply at applied
  obtain ⟨storage, edited, applied⟩ := bind_eq_ok.mp applied
  have range₁ : storage.InRange :=
    editNumber_inRange edited { inRange with } fun value accepted =>
      { inRange with userStorageLimitBytes := of_decide_eq_true accepted }
  obtain ⟨attachment, edited, applied⟩ := bind_eq_ok.mp applied
  have range₂ : attachment.InRange :=
    editNumber_inRange edited range₁ fun value accepted =>
      { range₁ with maxAttachmentSizeBytes := of_decide_eq_true accepted }
  obtain ⟨auth, edited, applied⟩ := bind_eq_ok.mp applied
  have range₃ : auth.InRange :=
    editNumber_inRange edited range₂ fun value accepted =>
      { range₂ with authRateLimit := of_decide_eq_true accepted }
  obtain ⟨lookup, edited, applied⟩ := bind_eq_ok.mp applied
  have range₄ : lookup.InRange :=
    editNumber_inRange edited range₃ fun value accepted =>
      { range₃ with lookupRateLimit := of_decide_eq_true accepted }
  obtain ⟨threshold, edited, applied⟩ := bind_eq_ok.mp applied
  have range₅ : threshold.InRange :=
    editNumber_inRange edited range₄ fun value accepted =>
      { range₄ with failedLoginThreshold := of_decide_eq_true accepted }
  obtain ⟨lockout, edited, applied⟩ := bind_eq_ok.mp applied
  have range₆ : lockout.InRange :=
    editNumber_inRange edited range₅ fun value accepted =>
      { range₅ with failedLoginLockout := of_decide_eq_true accepted }
  obtain ⟨proxies, edited, applied⟩ := bind_eq_ok.mp applied
  have range₇ : proxies.InRange := editTrustedProxies_inRange edited range₆
  exact Except.ok.inj applied ▸ { range₇ with }

end UpdateInstanceSettingsRequest

end Throttle
end MindMapVault
