import MindMapVault.Accounts.Login

/-!
# What a salt lookup gives away

An invented salt is the same for every spelling of a name, since the name is put in
normal form first. A stored one is found under the exact spelling only. So the
answers for two spellings agree exactly when the accounts do: here that is stated
over the rows, together with what asking again later answers.
-/

namespace MindMapVault
namespace Accounts

open Throttle

/-- An account of exactly this name has this salt. -/
def KnownAs (state : AuthSqlState) (username : String) (salt : SaltResponse) : Prop :=
  ∃ user ∈ state.users.rows, user.username = username ∧ user.argon2Salt ≠ "" ∧
    salt = ⟨user.argon2Salt, user.argon2Params⟩

/-- Every salt an account of the first name has, an account of the second has, or
it is the one invented for a second name that has none. -/
def SaltsCoveredBy (externals : Externals) (state : AuthSqlState) (username : String)
    (state' : AuthSqlState) (username' : String) : Prop :=
  ∀ salt, KnownAs state username salt →
    KnownAs state' username' salt ∨
      (∀ other, ¬ KnownAs state' username' other) ∧ salt = inventedSalt externals state' username'

/-- No account is created or rotated between the two states: those of the later one
were there before, with the same names and salts. -/
structure NoneCreatedOrRotated (before after : AuthSqlState) : Prop where
  saltPepper : after.saltPepper = before.saltPepper
  accounts : ∀ user' ∈ after.users.rows, ∃ user ∈ before.users.rows,
    user.id = user'.id ∧ user.username = user'.username ∧
      user.argon2Salt = user'.argon2Salt ∧ user.argon2Params = user'.argon2Params

section Answers

variable {externals : Externals} {state : AuthSqlState}

/-- The salt found for a name is the one its account has. -/
theorem passwordSalt_eq_some {username : String} {salt : SaltResponse} :
    (state.loadUserByUsername username).bind passwordSalt = some salt ↔
      KnownAs state username salt := by
  constructor
  · intro found
    obtain ⟨user, loaded, stored⟩ := Option.bind_eq_some_iff.mp found
    obtain ⟨present, named⟩ := Table.find?_eq_some.mp loaded
    by_cases empty : user.argon2Salt = ""
    · rw [passwordSalt, if_pos empty] at stored
      cases stored
    · rw [passwordSalt, if_neg empty, Option.some.injEq] at stored
      exact ⟨user, present, named, empty, stored.symm⟩
  · rintro ⟨user, present, named, stored, rfl⟩
    have loaded : state.loadUserByUsername username = some user :=
      Table.find?_eq_some.mpr ⟨present, named⟩
    rw [loaded, Option.bind_some, passwordSalt, if_neg stored]

/-- A request that is let through is answered from the accounts, or invented. -/
theorem getSalt_eq_ok {throttle : AuthThrottle} {now : Nat} {clientIp : IpAddr} {username : String}
    {answer : SaltResponse}
    (answered : (getSalt externals state throttle now clientIp username).1 = .ok answer) :
    answer = ((state.loadUserByUsername username).bind passwordSalt).getD
      (inventedSalt externals state username) := by
  unfold getSalt at answered
  cases counted : countAuthRequest externals state throttle now clientIp .lookup with
  | mk passed throttle' =>
      rw [counted] at answered
      cases passed with
      | error error => cases answered
      | ok passed =>
          by_cases empty : username = ""
          · simp only [if_pos empty] at answered
            cases answered
          · simp only [if_neg empty] at answered
            exact (Except.ok.inj answered).symm

/-- Two lookups agree exactly when each name's salts cover the other's. -/
theorem getD_eq_iff {state' : AuthSqlState} {username username' : String}
    (invented : inventedSalt externals state' username' = inventedSalt externals state username) :
    ((state.loadUserByUsername username).bind passwordSalt).getD
        (inventedSalt externals state username) =
      ((state'.loadUserByUsername username').bind passwordSalt).getD
        (inventedSalt externals state' username') ↔
      SaltsCoveredBy externals state username state' username' ∧
        SaltsCoveredBy externals state' username' state username := by
  have none_known : ∀ {state : AuthSqlState} {username : String},
      (state.loadUserByUsername username).bind passwordSalt = none →
        ∀ salt, ¬ KnownAs state username salt := fun found salt known => by
    rw [passwordSalt_eq_some.mpr known] at found
    cases found
  have only : ∀ {state : AuthSqlState} {username : String} {salt other : SaltResponse},
      (state.loadUserByUsername username).bind passwordSalt = some salt →
        KnownAs state username other → other = salt := fun found known => by
    rw [passwordSalt_eq_some.mpr known, Option.some.injEq] at found
    exact found
  cases here : (state.loadUserByUsername username).bind passwordSalt with
  | none =>
      cases there : (state'.loadUserByUsername username').bind passwordSalt with
      | none =>
          rw [Option.getD_none, Option.getD_none, invented]
          exact iff_of_true rfl
            ⟨fun salt known => absurd known (none_known here salt),
              fun salt known => absurd known (none_known there salt)⟩
      | some salt' =>
          rw [Option.getD_none, Option.getD_some]
          constructor
          · rintro equal
            refine ⟨fun salt known => absurd known (none_known here salt),
              fun salt known => .inr ⟨none_known here, ?_⟩⟩
            rw [only there known, equal]
          · rintro ⟨_, covered⟩
            rcases covered salt' (passwordSalt_eq_some.mp there) with known | ⟨_, equal⟩
            · exact absurd known (none_known here salt')
            · exact equal.symm
  | some salt =>
      cases there : (state'.loadUserByUsername username').bind passwordSalt with
      | none =>
          rw [Option.getD_none, Option.getD_some]
          constructor
          · rintro equal
            refine ⟨fun other known => .inr ⟨none_known there, ?_⟩,
              fun other known => absurd known (none_known there other)⟩
            rw [only here known, equal]
          · rintro ⟨covered, _⟩
            rcases covered salt (passwordSalt_eq_some.mp here) with known | ⟨_, equal⟩
            · exact absurd known (none_known there salt)
            · exact equal
      | some salt' =>
          rw [Option.getD_some, Option.getD_some]
          constructor
          · rintro rfl
            refine ⟨fun other known => .inl ?_, fun other known => .inl ?_⟩
            · rw [only here known]
              exact passwordSalt_eq_some.mp there
            · rw [only there known]
              exact passwordSalt_eq_some.mp here
          · rintro ⟨covered, _⟩
            rcases covered salt (passwordSalt_eq_some.mp here) with known | ⟨none, _⟩
            · exact only there known
            · exact absurd (passwordSalt_eq_some.mp there) (none salt')

/-- Spellings with one normal form are answered with one invented salt. -/
theorem inventedSalt_congr
    {state' : AuthSqlState} (saltPepper : state'.saltPepper = state.saltPepper)
    {username username' : String}
    (spelled : normalize externals.toLowercase username' =
      normalize externals.toLowercase username) :
    inventedSalt externals state' username' = inventedSalt externals state username := by
  unfold inventedSalt pseudoSalt
  rw [saltPepper, spelled]

end Answers

/-- Two spellings of a name get one answer, and the first gets it again later,
exactly when the salts stored under the two spellings cover each other and a salt
stored under the first is still stored, up to salts that are the invented ones. -/
theorem getSalt_answers_agree_iff (externals : Externals) {state later : AuthSqlState}
    (unchanged : NoneCreatedOrRotated state later) (username username' : String)
    (spelled : normalize externals.toLowercase username' = normalize externals.toLowercase username)
    {throttle throttle' throttle'' : AuthThrottle} {now now' now'' : Nat}
    {clientIp clientIp' clientIp'' : IpAddr} {answer answer' answer'' : SaltResponse}
    (answered : (getSalt externals state throttle now clientIp username).1 = .ok answer)
    (answered' : (getSalt externals state throttle' now' clientIp' username').1 = .ok answer')
    (answered'' : (getSalt externals later throttle'' now'' clientIp'' username).1 = .ok answer'') :
    (answer = answer' ∧ answer = answer'') ↔
      (SaltsCoveredBy externals state username state username' ∧
        SaltsCoveredBy externals state username' state username) ∧
      SaltsCoveredBy externals state username later username := by
  have still : SaltsCoveredBy externals later username state username := by
    rintro salt ⟨user', present, named, stored, rfl⟩
    obtain ⟨user, known, _, sameName, sameSalt, sameParams⟩ := unchanged.accounts user' present
    exact .inl ⟨user, known, sameName.trans named, sameSalt ▸ stored, by rw [sameSalt, sameParams]⟩
  rw [getSalt_eq_ok answered, getSalt_eq_ok answered', getSalt_eq_ok answered'',
    getD_eq_iff (inventedSalt_congr rfl spelled),
    getD_eq_iff (inventedSalt_congr unchanged.saltPepper rfl)]
  exact and_congr_right fun _ => ⟨And.left, fun covers => ⟨covers, still⟩⟩

section Sample

/-- A name nobody has is answered alike in both spellings. -/
theorem getSalt_answers_agree_iff_sample :
    inventedSalt sampleExternals noAccounts "Ghost" =
      inventedSalt sampleExternals noAccounts " ghost " := by
  have asked : (getSalt sampleExternals noAccounts .new 0
      (IpAddr.ofOctets 203 0 113 7) "Ghost").1 =
      .ok (inventedSalt sampleExternals noAccounts "Ghost") := by decide +kernel
  have askedPadded : (getSalt sampleExternals noAccounts .new 0
      (IpAddr.ofOctets 203 0 113 7) " ghost ").1 =
      .ok (inventedSalt sampleExternals noAccounts " ghost ") := by decide +kernel
  have unknown : ∀ username salt, ¬ KnownAs noAccounts username salt :=
    fun username salt known => by
      obtain ⟨_, present, _⟩ := known
      cases present
  exact ((getSalt_answers_agree_iff sampleExternals
    ⟨rfl, fun _ present => by cases present⟩ "Ghost" " ghost " (by decide +kernel)
    asked askedPadded asked).mpr
      ⟨⟨fun salt known => absurd known (unknown _ salt),
        fun salt known => absurd known (unknown _ salt)⟩,
        fun salt known => absurd known (unknown _ salt)⟩).1

/-- The account `bob` is found as `bob` and not as `Bob`: the two spellings are
answered with different salts. -/
theorem spellings_told_apart :
    ¬ ∀ (externals : Externals) (state : AuthSqlState) (username username' : String),
      normalize externals.toLowercase username' = normalize externals.toLowercase username →
      ∀ (throttle throttle' : AuthThrottle) (now now' : Nat)
        (clientIp clientIp' : IpAddr) (answer answer' : SaltResponse),
      (getSalt externals state throttle now clientIp username).1 = .ok answer →
      (getSalt externals state throttle' now' clientIp' username').1 = .ok answer' →
      answer = answer' := by
  intro claimed
  have answer := claimed sampleExternals (oneAccount "hash") "bob" "Bob"
    (by decide +kernel) .new .new 0 0 (IpAddr.ofOctets 203 0 113 7)
    (IpAddr.ofOctets 203 0 113 7) ⟨"salt", Argon2Params.default⟩
    (inventedSalt sampleExternals (oneAccount "hash") "Bob")
    (by decide +kernel) (by decide +kernel)
  revert answer
  decide +kernel

end Sample

end Accounts
end MindMapVault
