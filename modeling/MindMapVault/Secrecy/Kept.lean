import MindMapVault.Secrecy.Steps

/-!
# What stays in

The browsers keep to a policy: passwords and drawn keys never get out, private keys are sealed
under master keys only, a device key seals nothing but a master key, and the key of a map that
was sealed for its owner stays in with the map. It is kept by every event, whatever the server
answers, so that a session is always one of a typed password and of private keys that a browser
drew.
-/

namespace MindMapVault
namespace Secrecy

open Crypto
open Symbolic (Scheme Policy Derives)

/-- The master key of some password. -/
def IsMasterKey (term : Term) : Prop :=
  ∃ password salt params, term = masterKeyOf password salt params

/-- The key of some share passphrase. -/
def IsShareKey (term : Term) : Prop :=
  ∃ passphrase salt params, term = shareKeyOf passphrase salt params

/-- A private key that a browser drew. -/
def IsPrivateKey (term : Term) : Prop :=
  ∃ kind index, (kind = .classical ∨ kind = .pq) ∧ term = drawnSecret kind index

/-- What a browser seals under a key that stays in. -/
inductive Uses : Term → Term → Prop
  | privateKey {key plain} : IsMasterKey key → IsPrivateKey plain → Uses key plain
  | shared {key plain} : IsShareKey key → Uses key plain
  | device {index plain} : IsMasterKey plain → Uses (drawnSecret .device index) plain
  | drawn {kind index plain} : kind = .file ∨ kind = .dek → Uses (drawnSecret kind index) plain
  | derived {info master plain} : Uses (derivedKey info master) plain

/-- The policy of the browsers, with the names that have got out. -/
def policy (exposed : Name → Prop) : Policy Name OneWay where
  exposed := exposed
  released := fun function => function = .hkdfSha256 "crypt-mind-auth-v1"
  uses := Uses

theorem Uses.isPrivateKey {key plain : Term} (uses : Uses key plain) (isMaster : IsMasterKey key) :
    IsPrivateKey plain := by
  obtain ⟨password, salt, params, rfl⟩ := isMaster
  cases uses with
  | privateKey _ isPrivate => exact isPrivate
  | shared isShare =>
      obtain ⟨passphrase, salt', params', same⟩ := isShare
      simp [masterKeyOf, shareKeyOf, drawnSecret] at same

theorem Uses.isMasterKey {index : Nat} {plain : Term}
    (uses : Uses (drawnSecret .device index) plain) : IsMasterKey plain := by
  generalize isKey : drawnSecret .device index = key at uses
  cases uses with
  | privateKey isMaster _ =>
      obtain ⟨password, salt, params, rfl⟩ := isMaster
      simp [drawnSecret, masterKeyOf] at isKey
  | shared isShare =>
      obtain ⟨passphrase, salt, params, rfl⟩ := isShare
      simp [drawnSecret, shareKeyOf] at isKey
  | device isMaster => exact isMaster
  | drawn other =>
      obtain ⟨rfl, -⟩ : Kind.device = _ ∧ index = _ := by simpa [drawnSecret] using isKey
      rcases other with other | other <;> cases other
  | derived => simp [drawnSecret, derivedKey] at isKey

section Closed

variable {exposed : Name → Prop} {breaks : Scheme → Prop}
  (contained : ∀ name, exposed name → name.kind = .content ∨ name.kind = .dek)

include contained

/-- What a browser draws, but content and keys of maps, is never open. -/
theorem not_open_drawn {kind : Kind} (index : Nat) (other : kind ≠ .content ∧ kind ≠ .dek) :
    ¬(policy exposed).Open breaks (drawnSecret kind index) :=
  fun isOpen => (contained _ isOpen).elim other.1 other.2

theorem not_open_masterKey {term : Term} (isMaster : IsMasterKey term) :
    ¬(policy exposed).Open breaks term := by
  obtain ⟨password, salt, params, rfl⟩ := isMaster
  rintro (released | ⟨isOpen, -⟩)
  · cases released
  · exact not_open_drawn contained password (by decide) isOpen

theorem not_open_shareKey {term : Term} (isShare : IsShareKey term) :
    ¬(policy exposed).Open breaks term := by
  obtain ⟨passphrase, salt, params, rfl⟩ := isShare
  rintro (released | ⟨isOpen, -⟩)
  · cases released
  · exact not_open_drawn contained passphrase (by decide) isOpen

theorem not_open_derivedKey {term : Term} {info : String} (other : info ≠ "crypt-mind-auth-v1")
    (isMaster : IsMasterKey term) : ¬(policy exposed).Open breaks (derivedKey info term) := by
  rintro (released | isOpen)
  · exact other (OneWay.hkdfSha256.inj released)
  · exact not_open_masterKey contained isMaster isOpen

end Closed

/-- A session of a typed password and drawn private keys. -/
structure KeptSession (session : Session Term) : Prop where
  masterKey : IsMasterKey session.masterKey
  classical : IsPrivateKey session.classicalPrivKey
  pq : IsPrivateKey session.pqPrivKey

/-- Everything that browsers hold and have sent keeps to the policy. -/
structure Kept (exposed : Name → Prop) (breaks : Scheme → Prop) (held : Outcome) : Prop where
  sessions : ∀ session ∈ held.sessions, KeptSession session
  logins : ∀ key ∈ held.logins, IsMasterKey key
  rotations : ∀ key ∈ held.rotations, IsMasterKey key
  devices : ∀ key ∈ held.devices, ∃ index, key = drawnSecret .device index
  shares : ∀ key ∈ held.shares, IsShareKey key
  told : ∀ term ∈ held.told, (policy exposed).Open breaks term

/-- Everything that browsers hold and have sent. -/
def World.held (world : World) : Outcome where
  sessions := world.sessions
  logins := world.logins
  rotations := world.rotations
  devices := world.devices
  shares := world.shares
  told := world.sent

section Steps

variable {exposed : Name → Prop} {breaks : Scheme → Prop} {world : World} {event : Event}
  {outcome : Outcome}

/-- What is held stays kept when a step adds kept things. -/
theorem Kept.after (before : Kept exposed breaks world.held) (added : Kept exposed breaks outcome) :
    Kept exposed breaks (world.after outcome).held where
  sessions := List.forall_mem_append.mpr ⟨before.sessions, added.sessions⟩
  logins := List.forall_mem_append.mpr ⟨before.logins, added.logins⟩
  rotations := List.forall_mem_append.mpr ⟨before.rotations, added.rotations⟩
  devices := List.forall_mem_append.mpr ⟨before.devices, added.devices⟩
  shares := List.forall_mem_append.mpr ⟨before.shares, added.shares⟩
  told := List.forall_mem_append.mpr ⟨before.told, added.told⟩

/-- An event that opens sessions and sends. -/
theorem kept_opened {sessions : List (Session Term)} {terms : List Term}
    (allKept : ∀ session ∈ sessions, KeptSession session)
    (allOpen : ∀ term ∈ terms, (policy exposed).Open breaks term) :
    Kept exposed breaks { sessions := sessions, told := terms } :=
  ⟨allKept, List.forall_mem_nil _, List.forall_mem_nil _, List.forall_mem_nil _,
    List.forall_mem_nil _, allOpen⟩

/-- Content is open if each written piece of it is exposed and what it was received in is
open. -/
theorem open_content {content : Content} :
    (policy exposed).Open breaks content.term ↔
      (∀ index ∈ content.written, exposed ⟨.content, index⟩) ∧
        (policy exposed).Open breaks content.received := by
  obtain ⟨written, received⟩ := content
  induction written with
  | nil => exact ⟨fun isOpen => ⟨List.forall_mem_nil _, isOpen⟩, And.right⟩
  | cons index written ih =>
      rw [List.forall_mem_cons, and_assoc, ← ih]
      exact Iff.rfl

theorem kept_newSession (index : Nat) {masterKey : Term} (isMaster : IsMasterKey masterKey) :
    KeptSession (newSession index masterKey) where
  masterKey := isMaster
  classical := ⟨.classical, index, .inl rfl, rfl⟩
  pq := ⟨.pq, index, .inr rfl, rfl⟩

variable (contained : ∀ name, exposed name → name.kind = .content ∨ name.kind = .dek)

include contained

/-- A session that was opened with a master key is one of drawn private keys. -/
theorem Opens.kept {masterKey : Term} {bundle : AccountKeys Term} {session : Session Term}
    (opens : Opens masterKey bundle session) (isMaster : IsMasterKey masterKey)
    (answered : ∀ term ∈ accountTerms bundle, (policy exposed).Open breaks term) :
    KeptSession session := by
  have stays : ¬(policy exposed).Open breaks masterKey := not_open_masterKey contained isMaster
  obtain ⟨classicalLock, isClassical⟩ := opens.classical
  obtain ⟨pqLock, isPq⟩ := opens.pq
  have classical := answered bundle.classicalPrivEncrypted (by simp [accountTerms])
  have pq := answered bundle.pqPrivEncrypted (by simp [accountTerms])
  rw [isClassical] at classical
  rw [isPq] at pq
  exact {
    masterKey := opens.masterKey_eq ▸ isMaster
    classical := (Policy.uses_of_open classical stays).isPrivateKey isMaster
    pq := (Policy.uses_of_open pq stays).isPrivateKey isMaster }

/-- A private key under a master key may be sent. -/
theorem open_privateKey {masterKey plain : Term} (nonce : Nat) (isMaster : IsMasterKey masterKey)
    (isPrivate : IsPrivateKey plain) :
    (policy exposed).Open breaks (.locked masterKey nonce plain) :=
  Policy.open_locked (.privateKey isMaster isPrivate) fun isOpen =>
    absurd isOpen (not_open_masterKey contained isMaster)

/-- So may anything under a key derived from it. -/
theorem open_derived {masterKey plain : Term} (nonce : Nat) {info : String}
    (other : info ≠ "crypt-mind-auth-v1") (isMaster : IsMasterKey masterKey) :
    (policy exposed).Open breaks (.locked (derivedKey info masterKey) nonce plain) :=
  Policy.open_locked .derived fun isOpen =>
    absurd isOpen (not_open_derivedKey contained other isMaster)

/-- New keys are sent with their private parts under the master key. -/
theorem open_newKeyTerms (index : Nat) (salt : String) {masterKey : Term}
    (isMaster : IsMasterKey masterKey) :
    ∀ term ∈ newKeyTerms index masterKey salt, (policy exposed).Open breaks term := by
  intro term listed
  simp only [newKeyTerms, List.mem_cons, List.not_mem_nil, or_false] at listed
  rcases listed with rfl | rfl | rfl | rfl | rfl
  · trivial
  · trivial
  · trivial
  · exact open_privateKey contained index isMaster ⟨.classical, index, .inl rfl, rfl⟩
  · exact open_privateKey contained index isMaster ⟨.pq, index, .inr rfl, rfl⟩

/-- A file is sent under its key, and the key under the master key. -/
theorem open_uploadTerms (index : Nat) (plain : Term) {masterKey : Term}
    (isMaster : IsMasterKey masterKey) :
    ∀ term ∈ uploadTerms index masterKey plain, (policy exposed).Open breaks term := by
  intro term listed
  simp only [uploadTerms, List.mem_cons, List.not_mem_nil, or_false] at listed
  rcases listed with rfl | rfl
  · exact Policy.open_locked (.drawn (.inl rfl)) fun isOpen =>
      absurd isOpen (not_open_drawn contained index (by decide))
  · exact open_derived contained index (by decide) isMaster

/-- A save gets out the key of its map, and the map, only where both its public keys are the
server's. -/
theorem open_saveTerms {session : Session Term} {title tree : Content} {classical pq : Term}
    (isMaster : IsMasterKey session.masterKey)
    (isClassical : session.classicalPubKey = .publicKey .agreement classical)
    (isPq : session.pqPubKey = .publicKey .encapsulation pq)
    (toServer : SealsForServer breaks session → exposed ⟨.dek, world.drawn⟩)
    (withMap : exposed ⟨.dek, world.drawn⟩ → (policy exposed).Open breaks tree.term) :
    ∀ term ∈ saveTerms world.drawn session.masterKey title.term tree.term classical pq,
      (policy exposed).Open breaks term := by
  have drawn : ∀ {scheme : Scheme} {priv : Term}, IsDrawn (.publicKey scheme priv) →
      ¬(policy exposed).Open breaks priv := by
    rintro scheme priv ⟨scheme', kind, index, listed, same⟩
    obtain ⟨-, rfl⟩ := Symbolic.Term.publicKey.inj same
    refine not_open_drawn contained index ?_
    simp only [List.mem_cons, List.not_mem_nil, or_false] at listed
    rcases listed with rfl | rfl | rfl <;> decide
  intro term listed
  simp only [saveTerms, List.mem_cons, List.not_mem_nil, or_false] at listed
  rcases listed with rfl | rfl | rfl | rfl | rfl
  · exact open_derived contained world.drawn (by decide) isMaster
  · trivial
  · trivial
  · refine Policy.open_locked .derived fun isOpen => toServer ?_
    obtain released | ⟨agreed, enclosed⟩ := isOpen
    · exact absurd (OneWay.hkdfSha256.inj released) (by decide)
    · rw [SealsForServer, isClassical, isPq]
      constructor
      · rcases agreed with broken | own | other
        · exact .inl broken
        · exact absurd own (not_open_drawn contained world.drawn (by decide))
        · exact .inr fun isDrawn => drawn isDrawn other
      · rcases enclosed with broken | other | own
        · exact .inl broken
        · exact .inr fun isDrawn => drawn isDrawn other
        · exact absurd own (not_open_drawn contained world.drawn (by decide))
  · exact Policy.open_locked (.drawn (.inr rfl)) withMap

/-- What a rotation seals anew it seals under a key that stays in. -/
theorem Resealed.open {answered : List Term} {oldMaster newMaster term : Term} {nonce : Nat}
    (resealed : Resealed answered oldMaster newMaster nonce term)
    (isOld : IsMasterKey oldMaster) (isNew : IsMasterKey newMaster)
    (allOpen : ∀ term ∈ answered, (policy exposed).Open breaks term) :
    (policy exposed).Open breaks term := by
  cases resealed with
  | privateKey listed =>
      have uses := Policy.uses_of_open (allOpen _ listed) (not_open_masterKey contained isOld)
      exact open_privateKey contained nonce isNew (uses.isPrivateKey isOld)
  | derived info other _ => exact open_derived contained nonce other isNew

/-- Every event keeps to the policy, where what it leaks has got out, and the key of its map only
if it leaks it. -/
theorem kept_respond (before : Kept exposed breaks world.held)
    (answered : ∀ term ∈ answers event, (policy exposed).Open breaks term)
    (leaked : ∀ name, Leaks breaks world event name → exposed name)
    (own : exposed ⟨.dek, world.drawn⟩ → Leaks breaks world event ⟨.dek, world.drawn⟩)
    (responds : respond world event = some outcome) : Kept exposed breaks outcome := by
  revert answered leaked own
  refine respond_cases (motive := fun event outcome =>
    (∀ term ∈ answers event, (policy exposed).Open breaks term) →
    (∀ name, Leaks breaks world event name → exposed name) →
    (exposed ⟨.dek, world.drawn⟩ → Leaks breaks world event ⟨.dek, world.drawn⟩) →
      Kept exposed breaks outcome) ?_ ?_ ?_ ?_ ?_ ?_ ?_ ?_ ?_ ?_ ?_ ?_ ?_ ?_ ?_ responds
  · rintro username password salt inviteCode masterKey isKey - - -
    have isMaster : IsMasterKey masterKey := ⟨_, _, _, isKey⟩
    refine kept_opened (List.forall_mem_singleton.mpr (kept_newSession _ isMaster)) ?_
    refine List.forall_mem_append.mpr ⟨List.forall_mem_append.mpr ⟨?_, ?_⟩, ?_⟩
    · exact List.forall_mem_cons.mpr ⟨trivial, List.forall_mem_singleton.mpr (.inl rfl)⟩
    · exact open_newKeyTerms contained _ salt isMaster
    · intro term listed
      obtain ⟨code, -, rfl⟩ := Option.map_eq_some_iff.mp (Option.mem_toList.mp listed)
      trivial
  · rintro username password salt masterKey isKey - - -
    have isMaster : IsMasterKey masterKey := ⟨_, _, _, isKey⟩
    exact kept_opened (List.forall_mem_singleton.mpr (kept_newSession _ isMaster))
      (List.forall_mem_cons.mpr ⟨trivial, open_newKeyTerms contained _ salt isMaster⟩)
  · rintro username password salt params masterKey isKey - - -
    exact ⟨List.forall_mem_nil _, List.forall_mem_singleton.mpr ⟨_, _, _, isKey⟩,
      List.forall_mem_nil _, List.forall_mem_nil _, List.forall_mem_nil _,
      List.forall_mem_cons.mpr ⟨trivial, List.forall_mem_singleton.mpr (.inl rfl)⟩⟩
  · rintro login bundle masterKey session isLogin opens answered - -
    exact kept_opened (List.forall_mem_singleton.mpr
      (opens.kept contained (before.logins _ isLogin) answered)) (List.forall_mem_nil _)
  · rintro password bundle masterKey sessions isKey opens answered - -
    exact kept_opened (fun session isSession =>
      (opens session isSession).kept contained ⟨_, _, _, isKey⟩ answered) (List.forall_mem_nil _)
  · rintro password label bundle masterKey sessions isKey opens answered - -
    have isMaster : IsMasterKey masterKey := ⟨_, _, _, isKey⟩
    refine ⟨fun session isSession => (opens session isSession).kept contained isMaster answered,
      List.forall_mem_nil _, List.forall_mem_nil _, List.forall_mem_singleton.mpr ⟨_, rfl⟩,
      List.forall_mem_nil _,
      List.forall_mem_cons.mpr ⟨trivial, List.forall_mem_singleton.mpr ?_⟩⟩
    exact Policy.open_locked (.device isMaster) fun isOpen =>
      absurd isOpen (not_open_drawn contained world.drawn (by decide))
  · rintro device wrapped bundle key lock masterKey session isDevice isWrapped opens answered - -
    obtain ⟨index, rfl⟩ := before.devices key isDevice
    have wrappedOpen := answered wrapped List.mem_cons_self
    rw [isWrapped] at wrappedOpen
    have uses := Policy.uses_of_open wrappedOpen (not_open_drawn contained index (by decide))
    exact kept_opened (List.forall_mem_singleton.mpr (opens.kept contained uses.isMasterKey
      fun term listed => answered term (List.mem_cons_of_mem _ listed))) (List.forall_mem_nil _)
  · rintro oldPassword newPassword newSalt profile vaults attachments oldMaster newMaster told
      isOld isNew resealed answered - -
    have isMaster : IsMasterKey newMaster := ⟨_, _, _, isNew⟩
    refine ⟨List.forall_mem_nil _, List.forall_mem_nil _,
      List.forall_mem_singleton.mpr isMaster, List.forall_mem_nil _, List.forall_mem_nil _,
      fun term listed => ?_⟩
    rcases resealed term listed with rfl | rfl | rfl | again
    · exact .inl rfl
    · exact .inl rfl
    · trivial
    · exact again.open contained ⟨_, _, _, isOld⟩ isMaster answered
  · rintro rotation index newMasterKey session isRotation isSession - - -
    have kept := before.sessions session isSession
    exact kept_opened (List.forall_mem_singleton.mpr
      ⟨before.rotations _ isRotation, kept.classical, kept.pq⟩) (List.forall_mem_nil _)
  · rintro index title tree session classical pq isSession isClassical isPq answered leaked own
    have kept := before.sessions session (List.mem_of_getElem? isSession)
    refine kept_opened (List.forall_mem_nil _)
      (open_saveTerms contained kept.masterKey isClassical isPq
        (fun toServer => ?_) fun isOut => ?_)
    · exact leaked _ ⟨⟨session, isSession, toServer⟩, .inl rfl⟩
    · obtain ⟨toServer, -⟩ := own isOut
      exact open_content.mpr ⟨fun piece isPiece => leaked _ ⟨toServer, .inr ⟨rfl, isPiece⟩⟩,
        answered _ (List.mem_cons_of_mem _ List.mem_cons_self)⟩
  · rintro index text session isSession - - -
    exact kept_opened (List.forall_mem_nil _) (List.forall_mem_singleton.mpr
      (open_derived contained _ (by decide) (before.sessions session isSession).masterKey))
  · rintro index file session isSession - - -
    exact kept_opened (List.forall_mem_nil _)
      (open_uploadTerms contained _ _ (before.sessions session isSession).masterKey)
  · rintro passphrase salt name title tree shareKey isKey answered leaked -
    have isShare : IsShareKey shareKey := ⟨_, _, _, isKey⟩
    refine ⟨List.forall_mem_nil _, List.forall_mem_nil _, List.forall_mem_nil _,
      List.forall_mem_nil _, List.forall_mem_singleton.mpr isShare, ?_⟩
    refine List.forall_mem_cons.mpr ⟨?_, List.forall_mem_cons.mpr
      ⟨trivial, List.forall_mem_singleton.mpr ?_⟩⟩
    · cases name with
      | some name => trivial
      | none =>
          cases title with
          | none => trivial
          | some title =>
              exact ⟨open_content.mpr ⟨fun piece isPiece => leaked _ ⟨rfl, isPiece⟩,
                answered _ (List.mem_cons_of_mem _ List.mem_cons_self)⟩, trivial⟩
    · exact Policy.open_locked (.shared isShare) fun isOpen =>
        absurd isOpen (not_open_shareKey contained isShare)
  · rintro share index ciphertext encryptionMeta shareKey plain isShare - - - -
    have shared := before.shares shareKey isShare
    exact kept_opened (List.forall_mem_nil _) (List.forall_mem_singleton.mpr
      (Policy.open_locked (.shared shared) fun isOpen =>
        absurd isOpen (not_open_shareKey contained shared)))
  · rintro index passphrase saltB64 params ciphertext session shareKey lock plain isSession - - - -
    exact kept_opened (List.forall_mem_nil _)
      (open_uploadTerms contained _ plain (before.sessions session isSession).masterKey)

end Steps

end Secrecy
end MindMapVault
