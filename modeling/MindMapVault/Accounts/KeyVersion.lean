import MindMapVault.Foundations.Threads

/-!
# The key-version cache and the check on writes

One account's key version in the database, its entry in the in-process cache,
and the requests that touch either: sign-ins that load the version and later
store it in the cache, rotations that commit a new version and then publish it,
and the check every write makes. The cache is filled without looking at what is
there, so a slow sign-in can put an old version back, and a rotation publishes
some time after its commit. Checks are sound in every run in which neither
happens: what is put into the cache is current, and no check reads the cache in
between.
-/

namespace MindMapVault
namespace Accounts

open Transition Threads

/-- What a write check decided. `startedAt` and `decidedAt` are the versions in
the database when the check began and when it answered. -/
structure Decision where
  tokenKv : UInt32
  startedAt : UInt32
  decidedAt : UInt32
  admitted : Bool
  deriving DecidableEq

/-- The key version of one account, in the database and in the cache, and the
decisions made so far. -/
structure KeyVersions where
  keyVersion : UInt32
  cached : Option UInt32
  decisions : List Decision
  deriving DecidableEq

/-- A request under way, with what it has loaded. -/
inductive KeyVersionFlight
  | signingIn (loaded : UInt32)
  | publishing (newKeyVersion : UInt32)
  | coldCheck (tokenKv startedAt : UInt32)
  | seeding (tokenKv startedAt loaded : UInt32)
  | finished
  deriving DecidableEq

/-- The requests of an account. A check carries the `kv` claim of its access
token, a refresh that of its refresh token. -/
inductive KeyVersionRequest
  | login
  | refresh (tokenKv : Option UInt32)
  | callback
  | rotateCredentials (newKeyVersion : UInt32)
  | verifyWriter (tokenKv : Option UInt32)
  deriving DecidableEq

namespace KeyVersions

/-- `KeyVersionCache::set`. -/
def setCached (account : KeyVersions) (keyVersion : UInt32) : KeyVersions :=
  { account with cached := some keyVersion }

/-- Answer a check by comparing the token with the version it found. -/
def decide (account : KeyVersions) (tokenKv startedAt current : UInt32) : KeyVersions :=
  { account with
    decisions :=
      { tokenKv := tokenKv
        startedAt := startedAt
        decidedAt := account.keyVersion
        admitted := tokenKv == current } :: account.decisions }

end KeyVersions

/-- The first database or cache operation of a request. -/
def beginRequest (account : KeyVersions) :
    KeyVersionRequest → Option (KeyVersions × KeyVersionFlight)
  | .login | .callback => some (account, .signingIn account.keyVersion)
  | .refresh tokenKv =>
      if tokenKv = some account.keyVersion then
        some (account, .signingIn account.keyVersion)
      else
        some (account, .finished)
  | .rotateCredentials newKeyVersion =>
      if newKeyVersion = account.keyVersion + 1 then
        some ({ account with keyVersion := newKeyVersion }, .publishing newKeyVersion)
      else
        some (account, .finished)
  | .verifyWriter none => some (account, .finished)
  | .verifyWriter (some tokenKv) =>
      match account.cached with
      | some current =>
          some (account.decide tokenKv account.keyVersion current, .finished)
      | none => some (account, .coldCheck tokenKv account.keyVersion)

/-- The next operation of a request. -/
def advanceRequest (account : KeyVersions) :
    KeyVersionFlight → Unit → Option (KeyVersions × KeyVersionFlight)
  | .signingIn loaded, _ => some (account.setCached loaded, .finished)
  | .publishing newKeyVersion, _ =>
      some (account.setCached newKeyVersion, .finished)
  | .coldCheck tokenKv startedAt, _ =>
      some (account, .seeding tokenKv startedAt account.keyVersion)
  | .seeding tokenKv startedAt loaded, _ =>
      some ((account.setCached loaded).decide tokenKv startedAt loaded, .finished)
  | .finished, _ => none

/-- Any number of requests of one account, interleaved operation by
operation. -/
def keyVersionRequests :
    Program KeyVersions KeyVersionFlight Empty KeyVersionRequest Unit where
  outside := fun _ event => nomatch event
  spawn := beginRequest
  advance := advanceRequest

/-- An account and its requests under way. -/
abbrev KeyVersionPool := Pool KeyVersions KeyVersionFlight

/-- A move of the account's requests. -/
abbrev KeyVersionMove := Move Empty KeyVersionRequest Unit

/-- The check refused a token older than the version committed when it began,
and admitted one of that version unless another rotation came between. -/
def Decision.Sound (decision : Decision) : Prop :=
  (decision.tokenKv < decision.startedAt → decision.admitted = false) ∧
    (decision.tokenKv = decision.startedAt →
      decision.decidedAt = decision.startedAt → decision.admitted = true)

instance (decision : Decision) : Decidable decision.Sound :=
  inferInstanceAs (Decidable (_ ∧ _))

/-- All checks so far decided as they should. -/
def ChecksSound (account : KeyVersions) : Prop := ∀ decision ∈ account.decisions, decision.Sound

instance (account : KeyVersions) : Decidable (ChecksSound account) :=
  inferInstanceAs (Decidable (∀ _ ∈ _, _))

/-- The version a request is about to put into the cache. -/
def KeyVersionFlight.fills : KeyVersionFlight → Option UInt32
  | .signingIn loaded | .publishing loaded | .seeding _ _ loaded => some loaded
  | .coldCheck _ _ | .finished => none

/-- A rotation has committed, and its handler has yet to set the cache. -/
def KeyVersionFlight.isPublishing : KeyVersionFlight → Bool
  | .publishing _ => true
  | .signingIn _ | .coldCheck _ _ | .seeding _ _ _ | .finished => false

/-- What a move must not run into: whatever is put into the cache was loaded with
no rotation committed since, no check reads a warm cache while a rotation has
committed and not yet set it, and no rotation wraps the version around. -/
def FillsCurrent (pool : KeyVersionPool) : KeyVersionMove → Prop
  | .advance thread _ =>
      ∀ flight ∈ pool.threads[thread]?, ∀ loaded ∈ flight.fills, loaded = pool.shared.keyVersion
  | .spawn (.verifyWriter (some _)) =>
      pool.shared.cached.isSome → ∀ flight ∈ pool.threads, flight.isPublishing = false
  | .spawn (.rotateCredentials newKeyVersion) =>
      newKeyVersion = pool.shared.keyVersion + 1 → pool.shared.keyVersion < newKeyVersion
  | _ => True

instance (pool : KeyVersionPool) (move : KeyVersionMove) :
    Decidable (FillsCurrent pool move) :=
  match move with
  | .advance _ _ =>
      @Option.decidableForallMem _ _ (fun _ => Option.decidableForallMem _) _
  | .spawn (.verifyWriter (some _)) => inferInstanceAs (Decidable (_ → _))
  | .spawn (.rotateCredentials _) => inferInstanceAs (Decidable (_ → _))
  | .spawn (.verifyWriter none) | .spawn .login | .spawn .callback
  | .spawn (.refresh _) | .outside _ => .isTrue trivial

/-- The cache is current, or a rotation has yet to publish. -/
def CacheCurrent (pool : KeyVersionPool) : Prop :=
  (∀ current ∈ pool.shared.cached, current = pool.shared.keyVersion) ∨
    ∃ newKeyVersion, .publishing newKeyVersion ∈ pool.threads

theorem beginRequest_frame {account after : KeyVersions} {request : KeyVersionRequest}
    {flight : KeyVersionFlight} (taken : beginRequest account request = some (after, flight)) :
    (after.keyVersion = account.keyVersion ∧ after.cached = account.cached) ∨
      ∃ newKeyVersion, flight = .publishing newKeyVersion := by
  cases request with
  | login | callback =>
      cases taken
      exact .inl ⟨rfl, rfl⟩
  | refresh tokenKv =>
      simp only [beginRequest] at taken
      split_ifs at taken <;> cases taken <;> exact .inl ⟨rfl, rfl⟩
  | rotateCredentials newKeyVersion =>
      simp only [beginRequest] at taken
      split_ifs at taken
      · cases taken
        exact .inr ⟨newKeyVersion, rfl⟩
      · cases taken
        exact .inl ⟨rfl, rfl⟩
  | verifyWriter tokenKv =>
      cases tokenKv with
      | none =>
          cases taken
          exact .inl ⟨rfl, rfl⟩
      | some tokenKv =>
          simp only [beginRequest] at taken
          split at taken <;> cases taken <;> exact .inl ⟨rfl, rfl⟩

theorem cacheCurrent_preserved
    (pool : KeyVersionPool) (move : KeyVersionMove) (next : KeyVersionPool)
    (current : CacheCurrent pool) (fills : FillsCurrent pool move)
    (taken : keyVersionRequests.system pool move = some next) :
    CacheCurrent next := by
  revert fills
  refine Program.system_cases
    (motive := fun move next => FillsCurrent pool move → CacheCurrent next)
    ?_ ?_ ?_ taken
  · exact fun event => nomatch event
  · intro request after flight action _
    rcases beginRequest_frame action with ⟨version, cached⟩ | ⟨published, rfl⟩
    · rcases current with fresh | ⟨published, pending⟩
      · left
        rw [version, cached]
        exact fresh
      · exact .inr ⟨published, List.mem_append_left _ pending⟩
    · exact .inr ⟨published, by simp⟩
  · intro thread act before after flight present action fills
    have filled := fills before present
    cases before with
    | signingIn loaded =>
        cases action
        exact .inl fun _ stored => Option.some.inj stored ▸ filled loaded rfl
    | publishing loaded =>
        cases action
        exact .inl fun _ stored => Option.some.inj stored ▸ filled loaded rfl
    | seeding tokenKv startedAt loaded =>
        cases action
        exact .inl fun _ stored => Option.some.inj stored ▸ filled loaded rfl
    | coldCheck tokenKv startedAt =>
        cases action
        rcases current with fresh | ⟨published, pending⟩
        · exact .inl fresh
        · exact .inr ⟨published, mem_set_of_ne present pending (by simp)⟩
    | finished => cases action

/-- Versions only grow: what a check has seen is no newer than the database. -/
def KeyVersionFlight.Known (account : KeyVersions) : KeyVersionFlight → Prop
  | .coldCheck _ startedAt => startedAt ≤ account.keyVersion
  | .seeding _ startedAt loaded =>
      startedAt ≤ loaded ∧ loaded ≤ account.keyVersion
  | .signingIn _ | .publishing _ | .finished => True

/-- What a check has seen stays true as the version grows. -/
theorem KeyVersionFlight.Known.mono {account after : KeyVersions}
    (grows : account.keyVersion ≤ after.keyVersion) :
    ∀ flight : KeyVersionFlight, flight.Known account → flight.Known after
  | .coldCheck _ _, known => UInt32.le_trans known grows
  | .seeding _ _ _, known => ⟨known.1, UInt32.le_trans known.2 grows⟩
  | .signingIn _, _ | .publishing _, _ | .finished, _ => trivial

/-- A check is sound that compares with a version the database had between its begin and its
answer. -/
theorem ChecksSound.decide {account : KeyVersions} (sound : ChecksSound account)
    {tokenKv startedAt loaded : UInt32}
    (first : startedAt ≤ loaded) (second : loaded ≤ account.keyVersion) :
    ChecksSound (account.decide tokenKv startedAt loaded) := by
  refine List.forall_mem_cons.mpr ⟨?_, sound⟩
  simp only [Decision.Sound, beq_eq_false_iff_ne, beq_iff_eq]
  refine ⟨fun less => ?_, fun same unchanged => ?_⟩
  · exact UInt32.ne_of_lt (UInt32.lt_of_lt_of_le less first)
  · subst same
    exact UInt32.le_antisymm first (unchanged ▸ second)

/-- The first operation of a request keeps the checks sound: the entry a check finds is
current, as no rotation has yet to publish. -/
theorem beginRequest_sound {pool : KeyVersionPool} {request : KeyVersionRequest}
    {after : KeyVersions} {flight : KeyVersionFlight}
    (sound : ChecksSound pool.shared) (current : CacheCurrent pool)
    (fills : FillsCurrent pool (.spawn request))
    (taken : beginRequest pool.shared request = some (after, flight)) :
    ChecksSound after ∧ flight.Known after ∧ pool.shared.keyVersion ≤ after.keyVersion := by
  have same := UInt32.le_refl pool.shared.keyVersion
  cases request with
  | login | callback =>
      cases taken
      exact ⟨sound, trivial, same⟩
  | refresh tokenKv =>
      simp only [beginRequest] at taken
      split_ifs at taken <;> cases taken <;> exact ⟨sound, trivial, same⟩
  | rotateCredentials newKeyVersion =>
      simp only [beginRequest] at taken
      split_ifs at taken with follows <;> cases taken
      · exact ⟨sound, trivial, UInt32.le_of_lt (fills follows)⟩
      · exact ⟨sound, trivial, same⟩
  | verifyWriter tokenKv =>
      cases tokenKv with
      | none =>
          cases taken
          exact ⟨sound, trivial, same⟩
      | some tokenKv =>
          simp only [beginRequest] at taken
          split at taken
          · next entry stored =>
              cases taken
              have fresh : entry = pool.shared.keyVersion := by
                rcases current with fresh | ⟨newKeyVersion, pending⟩
                · exact fresh entry stored
                · exact absurd (fills (Option.isSome_of_mem stored) _ pending) nofun
              rw [fresh]
              exact ⟨sound.decide same same, trivial, same⟩
          · cases taken
            exact ⟨sound, same, same⟩

/-- Every later operation keeps the checks sound. -/
theorem advanceRequest_sound
    {account after : KeyVersions} {before flight : KeyVersionFlight} {act : Unit}
    (sound : ChecksSound account) (known : before.Known account)
    (taken : advanceRequest account before act = some (after, flight)) :
    ChecksSound after ∧ flight.Known after ∧ account.keyVersion ≤ after.keyVersion := by
  have same := UInt32.le_refl account.keyVersion
  cases before with
  | signingIn loaded | publishing loaded =>
      cases taken
      exact ⟨sound, trivial, same⟩
  | coldCheck tokenKv startedAt =>
      cases taken
      exact ⟨sound, ⟨known, same⟩, same⟩
  | seeding tokenKv startedAt loaded =>
      cases taken
      exact ⟨ChecksSound.decide sound known.1 known.2, trivial, same⟩
  | finished => cases taken

theorem checksSound_preserved
    (pool : KeyVersionPool) (move : KeyVersionMove) (next : KeyVersionPool)
    (holds : Holds ChecksSound KeyVersionFlight.Known pool)
    (permitted : CacheCurrent pool ∧ FillsCurrent pool move)
    (taken : keyVersionRequests.system pool move = some next) :
    Holds ChecksSound KeyVersionFlight.Known next := by
  refine holds_preserved (fun pool move => CacheCurrent pool ∧ FillsCurrent pool move)
    ?_ ?_ ?_ pool move next holds permitted taken
  · exact fun _ event => nomatch event
  · intro pool request after flight ⟨sound, _⟩ ⟨current, fills⟩ action
    obtain ⟨afterSound, known, grows⟩ := beginRequest_sound sound current fills action
    exact ⟨afterSound, known, KeyVersionFlight.Known.mono grows⟩
  · intro pool thread act before after flight ⟨sound, _⟩ _ _ known action
    obtain ⟨afterSound, afterKnown, grows⟩ := advanceRequest_sound sound known action
    exact ⟨afterSound, afterKnown, KeyVersionFlight.Known.mono grows⟩

/-- An account with no request under way, its cache entry absent or current. -/
def idleAccount (keyVersion : UInt32) (warm : Bool) : KeyVersionPool where
  shared :=
    { keyVersion := keyVersion
      cached := if warm then some keyVersion else none
      decisions := [] }
  threads := []

theorem idleAccount_cacheCurrent (keyVersion : UInt32) (warm : Bool) :
    CacheCurrent (idleAccount keyVersion warm) := by
  left
  intro current stored
  cases warm with
  | false => cases stored
  | true => exact (Option.some.inj stored).symm

/-- In a run that puts current versions only into the cache, and whose checks read
it while no rotation has yet to publish, no check admits a token older than a
rotation that had returned, nor refuses one of its version. -/
theorem checksSound_of_fillsCurrent (keyVersion : UInt32) (warm : Bool) (run : List KeyVersionMove)
    (fills : EveryStepAllowed keyVersionRequests.system FillsCurrent
      (idleAccount keyVersion warm) run) :
    EveryState keyVersionRequests.system
      (fun pool => ChecksSound pool.shared) (idleAccount keyVersion warm) run := by
  refine everyState_of_allowed (fun pool move next
      (holds : CacheCurrent pool ∧ Holds ChecksSound KeyVersionFlight.Known pool)
      fills taken => ?_)
    (fun _ holds => holds.2.1) ⟨idleAccount_cacheCurrent keyVersion warm, nofun, nofun⟩ fills
  exact ⟨cacheCurrent_preserved pool move next holds.1 fills taken,
    checksSound_preserved pool move next holds.2 ⟨holds.1, fills⟩ taken⟩

/-- A sign-in, a rotation, and a check by a token of each version. -/
theorem checksSound_of_fillsCurrent_example :
    EveryState keyVersionRequests.system
      (fun pool => ChecksSound pool.shared) (idleAccount 1 false)
      [.spawn .login, .advance 0 (), .spawn (.rotateCredentials 2),
        .advance 1 (), .spawn (.verifyWriter (some 1)),
        .spawn (.verifyWriter (some 2))] :=
  checksSound_of_fillsCurrent _ _ _ (by decide)

/-- A sign-in that loads the version before a rotation and fills the cache after
it lets a token of the old version through. -/
theorem slow_login_readmits_old_token :
    ¬ EveryState keyVersionRequests.system
      (fun pool => ChecksSound pool.shared) (idleAccount 1 false)
      [.spawn .login, .spawn (.rotateCredentials 2), .advance 1 (),
        .advance 0 (), .spawn (.verifyWriter (some 1))] := by
  decide

end Accounts
end MindMapVault
