import MindMapVault.Instance.ProxyEntries
import MindMapVault.Throttle.InstanceSettings

/-!
# The settings row

The settings as they are seeded from the environment, edited by an operator and kept in one row
of the database. Whatever is stored lies in the accepted ranges and is read back as it was
stored.
-/

namespace MindMapVault
namespace Instance

open Result
open Vault (DateTime)
open Throttle (InstanceSettings UpdateInstanceSettingsRequest takeDigits IpNet)

/-- A row of `instance_settings`. -/
structure SettingsRow where
  registrationEnabled : Bool
  userStorageLimitBytes : Int
  maxAttachmentSizeBytes : Int
  authRateLimitPerMinute : Int
  failedLoginThreshold : Int
  failedLoginLockoutMinutes : Int
  trustProxyHeaders : Bool
  trustedProxyCidrs : String
  lookupRateLimitPerMinute : Int
  updatedAt : DateTime
  deriving DecidableEq

/-- The columns that are written. -/
def toRow (settings : InstanceSettings) : SettingsRow where
  registrationEnabled := settings.registrationEnabled
  userStorageLimitBytes := settings.userStorageLimitBytes
  maxAttachmentSizeBytes := settings.maxAttachmentSizeBytes
  authRateLimitPerMinute := settings.authRateLimitPerMinute
  failedLoginThreshold := settings.failedLoginThreshold
  failedLoginLockoutMinutes := settings.failedLoginLockoutMinutes
  trustProxyHeaders := settings.legacyTrustProxyHeaders
  trustedProxyCidrs := joinCidrs settings.trustedProxyCidrs
  lookupRateLimitPerMinute := settings.lookupRateLimitPerMinute
  updatedAt := settings.updatedAt

/-- The settings that are read. -/
def ofRow (row : SettingsRow) : InstanceSettings where
  registrationEnabled := row.registrationEnabled
  userStorageLimitBytes := row.userStorageLimitBytes
  maxAttachmentSizeBytes := row.maxAttachmentSizeBytes
  authRateLimitPerMinute := row.authRateLimitPerMinute
  lookupRateLimitPerMinute := row.lookupRateLimitPerMinute
  failedLoginThreshold := row.failedLoginThreshold
  failedLoginLockoutMinutes := row.failedLoginLockoutMinutes
  trustedProxyCidrs := splitCidrs row.trustedProxyCidrs
  legacyTrustProxyHeaders := row.trustProxyHeaders
  updatedAt := row.updatedAt

/-! ### The seed -/

/-- `env_bool`. -/
def envBool (env : String → Option String) (key : String) : Option Bool :=
  (env key).bind fun raw =>
    let word := (Vault.trim raw).toList.map Char.toLower
    if word ∈ ["1".toList, "true".toList, "yes".toList, "on".toList] then some true
    else if word ∈ ["0".toList, "false".toList, "no".toList, "off".toList] then some false
    else none

/-- `i64::from_str`. -/
def parseI64 (text : List Char) : Option Int :=
  let (negative, unsigned) :=
    match text with
    | '-' :: rest => (true, rest)
    | '+' :: rest => (false, rest)
    | rest => (false, rest)
  match takeDigits 10 unsigned with
  | (digit :: digits, []) =>
      let magnitude : Int :=
        ((digit :: digits).foldl (fun value digit => value * 10 + digit) 0 : Nat)
      let value := if negative then -magnitude else magnitude
      if -9223372036854775808 ≤ value ∧ value ≤ 9223372036854775807 then some value else none
  | _ => none

/-- `env_i64`. -/
def envI64 (env : String → Option String) (key : String) : Option Int :=
  (env key).bind fun raw => parseI64 (Vault.trim raw).toList

/-- `env_list`. -/
def envList (env : String → Option String) (key : String) : Option (List String) :=
  ((env key).map splitCidrs).filter (· ≠ [])

/-- `value.max(0)`. -/
def atLeastZero (value : Int) : Int := if value < 0 then 0 else value

/-- `InstanceSettings::from_env_seed`. -/
def fromEnvSeed (env : String → Option String) (now : DateTime) : InstanceSettings :=
  let settings := InstanceSettings.default now
  { settings with
    registrationEnabled := (envBool env "REGISTRATION_ENABLED").getD settings.registrationEnabled
    userStorageLimitBytes := ((envI64 env "USER_STORAGE_LIMIT_BYTES").map atLeastZero).getD
      settings.userStorageLimitBytes
    maxAttachmentSizeBytes := ((envI64 env "MAX_ATTACHMENT_SIZE_BYTES").map atLeastZero).getD
      settings.maxAttachmentSizeBytes
    trustedProxyCidrs := (envList env "TRUSTED_PROXY_CIDRS").getD settings.trustedProxyCidrs
    legacyTrustProxyHeaders := (envBool env "TRUST_PROXY_HEADERS").getD
      settings.legacyTrustProxyHeaders }

/-! ### Sound settings -/

/-- Settings that can be stored: their limits in the accepted ranges, their proxy ranges one
entry each. -/
structure Sound (settings : InstanceSettings) : Prop extends settings.InRange where
  entries : ∀ entry ∈ settings.trustedProxyCidrs, IsEntry entry

section Sound

variable {settings current next : InstanceSettings} {now : DateTime}

/-- Sound settings are read back as they were stored. -/
theorem ofRow_toRow (sound : Sound settings) : ofRow (toRow settings) = settings := by
  have entries := splitCidrs_joinCidrs sound.entries
  rw [ofRow, toRow]
  simp only [entries]

theorem sound_fromEnvSeed (env : String → Option String) (now : DateTime) :
    Sound (fromEnvSeed env now) := by
  have limit (value : Option Int) : 0 ≤ (value.map atLeastZero).getD 0 := by
    cases value with
    | none => exact Int.le_refl 0
    | some value =>
        rw [Option.map_some, Option.getD_some, atLeastZero]
        split_ifs
        · exact Int.le_refl 0
        · omega
  have initially := InstanceSettings.default_inRange now
  have inRange : (fromEnvSeed env now).InRange :=
    { initially with
      userStorageLimitBytes := limit _
      maxAttachmentSizeBytes := limit _ }
  refine ⟨inRange, fun entry listed => ?_⟩
  rw [fromEnvSeed] at listed
  simp only [envList] at listed
  cases read : env "TRUSTED_PROXY_CIDRS" with
  | none =>
      rw [read] at listed
      exact absurd listed List.not_mem_nil
  | some raw =>
      rw [read, Option.map_some] at listed
      by_cases none : splitCidrs raw = []
      · rw [none] at listed
        exact absurd listed List.not_mem_nil
      · rw [Option.filter_some_pos (by simpa using none), Option.getD_some] at listed
        exact isEntry_of_mem_splitCidrs listed

end Sound

/-! ### Updates -/

/-- What an operator can edit. -/
structure Editable where
  registrationEnabled : Bool
  userStorageLimitBytes : Int
  maxAttachmentSizeBytes : Int
  authRateLimitPerMinute : Int
  lookupRateLimitPerMinute : Int
  failedLoginThreshold : Int
  failedLoginLockoutMinutes : Int
  trustedProxyCidrs : List String
  deriving DecidableEq

def editable (settings : InstanceSettings) : Editable where
  registrationEnabled := settings.registrationEnabled
  userStorageLimitBytes := settings.userStorageLimitBytes
  maxAttachmentSizeBytes := settings.maxAttachmentSizeBytes
  authRateLimitPerMinute := settings.authRateLimitPerMinute
  lookupRateLimitPerMinute := settings.lookupRateLimitPerMinute
  failedLoginThreshold := settings.failedLoginThreshold
  failedLoginLockoutMinutes := settings.failedLoginLockoutMinutes
  trustedProxyCidrs := settings.trustedProxyCidrs

/-- What a request carries, over what is there where it carries nothing. -/
def writeOver (request : UpdateInstanceSettingsRequest) (current : Editable) : Editable where
  registrationEnabled := request.registrationEnabled.getD current.registrationEnabled
  userStorageLimitBytes := request.userStorageLimitBytes.getD current.userStorageLimitBytes
  maxAttachmentSizeBytes := request.maxAttachmentSizeBytes.getD current.maxAttachmentSizeBytes
  authRateLimitPerMinute := request.authRateLimitPerMinute.getD current.authRateLimitPerMinute
  lookupRateLimitPerMinute := request.lookupRateLimitPerMinute.getD current.lookupRateLimitPerMinute
  failedLoginThreshold := request.failedLoginThreshold.getD current.failedLoginThreshold
  failedLoginLockoutMinutes :=
    request.failedLoginLockoutMinutes.getD current.failedLoginLockoutMinutes
  trustedProxyCidrs := (request.trustedProxyCidrs.map cleaned).getD current.trustedProxyCidrs

/-- What a request does not carry is the same in both. -/
structure UncarriedKept
    (request : UpdateInstanceSettingsRequest) (read row : Editable) : Prop where
  registrationEnabled : request.registrationEnabled = none →
    read.registrationEnabled = row.registrationEnabled
  userStorageLimitBytes : request.userStorageLimitBytes = none →
    read.userStorageLimitBytes = row.userStorageLimitBytes
  maxAttachmentSizeBytes : request.maxAttachmentSizeBytes = none →
    read.maxAttachmentSizeBytes = row.maxAttachmentSizeBytes
  authRateLimitPerMinute : request.authRateLimitPerMinute = none →
    read.authRateLimitPerMinute = row.authRateLimitPerMinute
  lookupRateLimitPerMinute : request.lookupRateLimitPerMinute = none →
    read.lookupRateLimitPerMinute = row.lookupRateLimitPerMinute
  failedLoginThreshold : request.failedLoginThreshold = none →
    read.failedLoginThreshold = row.failedLoginThreshold
  failedLoginLockoutMinutes : request.failedLoginLockoutMinutes = none →
    read.failedLoginLockoutMinutes = row.failedLoginLockoutMinutes
  trustedProxyCidrs : request.trustedProxyCidrs = none →
    read.trustedProxyCidrs = row.trustedProxyCidrs

section Updates

variable {request : UpdateInstanceSettingsRequest}
variable {current next : InstanceSettings} {now : DateTime}

theorem getD_eq_getD_iff {α : Type} {carried : Option α} {read row : α} :
    carried.getD read = carried.getD row ↔ (carried = none → read = row) := by
  cases carried with
  | none => simp
  | some value => simp

/-- Written over other settings a request leaves the same exactly if they agree where it
carries nothing. -/
theorem writeOver_eq_iff {read row : Editable} :
    writeOver request read = writeOver request row ↔ UncarriedKept request read row := by
  simp only [writeOver, Editable.mk.injEq, getD_eq_getD_iff, Option.map_eq_none_iff]
  constructor
  · rintro ⟨registration, storage, attachment, auth, lookup, threshold, lockout, proxies⟩
    exact ⟨registration, storage, attachment, auth, lookup, threshold, lockout, proxies⟩
  · rintro ⟨registration, storage, attachment, auth, lookup, threshold, lockout, proxies⟩
    exact ⟨registration, storage, attachment, auth, lookup, threshold, lockout, proxies⟩

/-- One number of an update is stored if the request carries it. -/
theorem editable_editNumber (get : Editable → Int) (set : Editable → Int → Editable)
    {value : Option Int} {accepts : Int → Bool} {refusal : String}
    {store : InstanceSettings → Int → InstanceSettings} {before after : InstanceSettings}
    (same : ∀ edited, set edited (get edited) = edited)
    (stored : ∀ value, editable (store before value) = set (editable before) value)
    (edited : UpdateInstanceSettingsRequest.editNumber value accepts refusal store before =
      .ok after) :
    editable after = set (editable before) (value.getD (get (editable before))) := by
  cases value with
  | none => rw [← Except.ok.inj edited, Option.getD_none, same]
  | some value =>
      rw [UpdateInstanceSettingsRequest.editNumber] at edited
      split_ifs at edited
      rw [← Except.ok.inj edited, Option.getD_some, stored]

theorem editable_editTrustedProxies {rejected : List String → List String}
    {value : Option (List String)} {before after : InstanceSettings}
    (edited : UpdateInstanceSettingsRequest.editTrustedProxies rejected value before = .ok after) :
    editable after = { editable before with
        trustedProxyCidrs := (value.map cleaned).getD (editable before).trustedProxyCidrs } ∧
      ∀ entries ∈ value, rejected entries = [] := by
  cases value with
  | none =>
      rw [← Except.ok.inj edited]
      exact ⟨rfl, nofun⟩
  | some entries =>
      rw [UpdateInstanceSettingsRequest.editTrustedProxies] at edited
      by_cases refused : rejected entries ≠ []
      · rw [if_pos refused] at edited
        cases edited
      · rw [if_neg refused] at edited
        rw [← Except.ok.inj edited]
        refine ⟨rfl, ?_⟩
        rintro _ ⟨⟩
        exact not_not.mp refused

/-- What an accepted update stores. -/
theorem apply_spec {rejected : List String → List String}
    (applied : request.apply rejected current now = .ok next) :
    editable next = writeOver request (editable current) ∧
      ∀ entries ∈ request.trustedProxyCidrs, rejected entries = [] := by
  unfold UpdateInstanceSettingsRequest.apply at applied
  obtain ⟨storage, isStorage, applied⟩ := bind_eq_ok.mp applied
  obtain ⟨attachment, isAttachment, applied⟩ := bind_eq_ok.mp applied
  obtain ⟨auth, isAuth, applied⟩ := bind_eq_ok.mp applied
  obtain ⟨lookup, isLookup, applied⟩ := bind_eq_ok.mp applied
  obtain ⟨threshold, isThreshold, applied⟩ := bind_eq_ok.mp applied
  obtain ⟨lockout, isLockout, applied⟩ := bind_eq_ok.mp applied
  obtain ⟨proxies, isProxies, applied⟩ := bind_eq_ok.mp applied
  obtain ⟨editedProxies, accepted⟩ := editable_editTrustedProxies isProxies
  have last : editable next = editable proxies := by
    rw [← Except.ok.inj applied]
    rfl
  refine ⟨?_, accepted⟩
  rw [last, editedProxies,
    editable_editNumber (·.failedLoginLockoutMinutes)
      (fun edited value => { edited with failedLoginLockoutMinutes := value })
      (fun _ => rfl) (fun _ => rfl) isLockout,
    editable_editNumber (·.failedLoginThreshold)
      (fun edited value => { edited with failedLoginThreshold := value })
      (fun _ => rfl) (fun _ => rfl) isThreshold,
    editable_editNumber (·.lookupRateLimitPerMinute)
      (fun edited value => { edited with lookupRateLimitPerMinute := value })
      (fun _ => rfl) (fun _ => rfl) isLookup,
    editable_editNumber (·.authRateLimitPerMinute)
      (fun edited value => { edited with authRateLimitPerMinute := value })
      (fun _ => rfl) (fun _ => rfl) isAuth,
    editable_editNumber (·.maxAttachmentSizeBytes)
      (fun edited value => { edited with maxAttachmentSizeBytes := value })
      (fun _ => rfl) (fun _ => rfl) isAttachment,
    editable_editNumber (·.userStorageLimitBytes)
      (fun edited value => { edited with userStorageLimitBytes := value })
      (fun _ => rfl) (fun _ => rfl) isStorage]
  rfl

/-- An accepted update of sound settings is sound. -/
theorem sound_apply {parseNet : List Char → Option IpNet}
    (noComma : ∀ text net, parseNet text = some net → ',' ∉ text)
    (applied : request.apply (rejectedCidrs parseNet) current now = .ok next)
    (sound : Sound current) : Sound next := by
  obtain ⟨edited, accepted⟩ := apply_spec applied
  refine ⟨UpdateInstanceSettingsRequest.apply_inRange applied sound.toInRange, ?_⟩
  have proxies : next.trustedProxyCidrs =
      (request.trustedProxyCidrs.map cleaned).getD current.trustedProxyCidrs :=
    congrArg Editable.trustedProxyCidrs edited
  rw [proxies]
  cases carried : request.trustedProxyCidrs with
  | none => exact sound.entries
  | some entries => exact isEntry_of_not_rejected parseNet noComma (accepted entries carried)

end Updates

end Instance
end MindMapVault
