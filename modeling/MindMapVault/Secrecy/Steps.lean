import MindMapVault.Secrecy.World

/-!
# What a browser sends in an event

Read over messages, the functions of the client fail only where something does not open or a
public key is of the wrong kind. `respond_cases` says for every event what a browser has opened
and what it has sent then, so that an invariant is checked without the functions.
-/

namespace MindMapVault
namespace Secrecy

open Accounts (Argon2Params)
open Crypto

variable {world : World} {key plain text masterKey : Term} {session : Session Term}
  {bundle : AccountKeys Term}

/-- The master key of a password. -/
def masterKeyOf (password : Nat) (salt : Term) (params : Argon2Params) : Term :=
  .apply (.argon2id params) (.pair (drawnSecret .password password) salt)

/-- The key of a share passphrase. -/
def shareKeyOf (passphrase : Nat) (salt : Term) (params : Argon2Params) : Term :=
  .apply (.argon2id params) (.pair (drawnSecret .passphrase passphrase) salt)

/-- The key that `info` names, from a master key. -/
def derivedKey (info : String) (masterKey : Term) : Term := .apply (.hkdfSha256 info) masterKey

/-! ### Opening -/

/-- What opens was locked with this key. -/
theorem unlockTerm_eq_some :
    unlockTerm key text = some plain ↔ ∃ nonce, text = .locked key nonce plain := by
  constructor
  · intro opens
    cases text with
    | locked lock nonce inner =>
        rw [unlockTerm] at opens
        obtain ⟨rfl, same⟩ := Option.ite_none_right_eq_some.mp opens
        exact ⟨nonce, Option.some.inj same ▸ rfl⟩
    | text | secret | pair | apply | publicKey | agreed | capsule | encapsulated => cases opens
  · rintro ⟨nonce, rfl⟩
    rw [unlockTerm, if_pos rfl]

theorem openText_eq_some :
    symbols.openText key text = some plain ↔ ∃ nonce, text = .locked key nonce plain :=
  unlockTerm_eq_some

/-- A session that a master key and a bundle open. -/
structure Opens (masterKey : Term) (bundle : AccountKeys Term) (session : Session Term) :
    Prop where
  masterKey_eq : session.masterKey = masterKey
  classicalPubKey_eq : session.classicalPubKey = bundle.classicalPublicKey
  pqPubKey_eq : session.pqPubKey = bundle.pqPublicKey
  classical : ∃ nonce,
    bundle.classicalPrivEncrypted = .locked masterKey nonce session.classicalPrivKey
  pq : ∃ nonce, bundle.pqPrivEncrypted = .locked masterKey nonce session.pqPrivKey

/-- A session that unlocks has what its bundle was sealed around. -/
theorem opens_of_openWithMasterKey
    (opens : symbols.openWithMasterKey masterKey bundle = some session) :
    Opens masterKey bundle session := by
  obtain ⟨classical, classicalOpens, opens⟩ := Option.bind_eq_some_iff.mp opens
  obtain ⟨pq, pqOpens, opens⟩ := Option.bind_eq_some_iff.mp opens
  obtain rfl := Option.some.inj opens
  exact ⟨rfl, rfl, rfl, openText_eq_some.mp classicalOpens, openText_eq_some.mp pqOpens⟩

/-! ### Sealing -/

/-- A text that is sealed anew holds what it held. -/
theorem reencrypt_eq_some {oldKey newKey sealed : Term} {nonce : Nat}
    (done : symbols.reencrypt oldKey newKey nonce text = some sealed) :
    ∃ lock plain, text = .locked oldKey lock plain ∧ sealed = .locked newKey nonce plain := by
  obtain ⟨plain, opens, same⟩ := Option.bind_eq_some_iff.mp done
  obtain ⟨lock, rfl⟩ := openText_eq_some.mp opens
  exact ⟨lock, plain, rfl, (Option.some.inj same).symm⟩

/-- Keys agree with public keys only. -/
theorem agreeTerm_eq_some {own other shared : Term} (agrees : agreeTerm own other = some shared) :
    ∃ priv, other = .publicKey .agreement priv ∧ shared = .agreed own priv := by
  cases other with
  | publicKey scheme priv =>
      cases scheme with
      | agreement => exact ⟨priv, rfl, (Option.some.inj agrees).symm⟩
      | encapsulation => cases agrees
  | text | secret | pair | apply | locked | agreed | capsule | encapsulated => cases agrees

theorem encapsulateTerm_eq_some {seed recipient : Term} {result : Term × Term}
    (done : encapsulateTerm seed recipient = some result) :
    ∃ priv, recipient = .publicKey .encapsulation priv ∧
      result = (.capsule priv seed, .encapsulated priv seed) := by
  cases recipient with
  | publicKey scheme priv =>
      cases scheme with
      | encapsulation => exact ⟨priv, rfl, (Option.some.inj done).symm⟩
      | agreement => cases done
  | text | secret | pair | apply | locked | agreed | capsule | encapsulated => cases done

/-- The key that a map's own key is wrapped with. -/
def combinedKey (index : Nat) (classical pq : Term) : Term :=
  derivedKey "crypt-mind-dek-v1"
    (.pair (.agreed (drawnSecret .ephemeral index) classical)
      (.encapsulated pq (drawnSecret .seed index)))

/-- The messages of a save for the private halves of two public keys. -/
def saveTerms (index : Nat) (masterKey title tree classical pq : Term) : List Term :=
  [.locked (derivedKey "crypt-mind-title-v1" masterKey) index title,
    .publicKey .agreement (drawnSecret .ephemeral index),
    .capsule pq (drawnSecret .seed index),
    .locked (combinedKey index classical pq) index (drawnSecret .dek index),
    .locked (drawnSecret .dek index) index tree]

/-- What a save sends, for a session with two public keys. -/
theorem handleSave_eq_some {title tree : Term} {saved : SavedVault Term Term}
    (done : symbols.handleSave session title tree world.encapsulationDraws world.drawn
      world.drawn = some saved) :
    ∃ classical pq, session.classicalPubKey = .publicKey .agreement classical ∧
      session.pqPubKey = .publicKey .encapsulation pq ∧
      savedTerms saved = saveTerms world.drawn session.masterKey title tree classical pq := by
  rw [Suite.handleSave] at done
  obtain ⟨titleEnc, titled, done⟩ := Option.bind_eq_some_iff.mp done
  obtain ⟨encap, encapsulated, done⟩ := Option.bind_eq_some_iff.mp done
  obtain ⟨blob, sealed, done⟩ := Option.bind_eq_some_iff.mp done
  rw [Suite.hybridEncap] at encapsulated
  obtain ⟨shared, agrees, encapsulated⟩ := Option.bind_eq_some_iff.mp encapsulated
  obtain ⟨result, encloses, encapsulated⟩ := Option.bind_eq_some_iff.mp encapsulated
  obtain ⟨wrapped, wraps, encapsulated⟩ := Option.bind_eq_some_iff.mp encapsulated
  obtain ⟨classical, isClassical, rfl⟩ := agreeTerm_eq_some agrees
  obtain ⟨pq, isPq, rfl⟩ := encapsulateTerm_eq_some encloses
  obtain rfl := Option.some.inj titled
  obtain rfl := Option.some.inj wraps
  obtain rfl := Option.some.inj encapsulated
  obtain rfl := Option.some.inj sealed
  obtain rfl := Option.some.inj done
  exact ⟨classical, pq, isClassical, isPq, rfl⟩

/-- The messages of an upload. -/
def uploadTerms (index : Nat) (masterKey plain : Term) : List Term :=
  [.locked (drawnSecret .file index) index plain,
    .locked (derivedKey "crypt-mind-attachment-wrap-v1" masterKey) index (drawnSecret .file index)]

/-! ### Rotations -/

theorem mapM_mem {Item Result : Type} {f : Item → Option Result} {items : List Item}
    {results : List Result} (mapped : items.mapM f = some results) :
    ∀ result ∈ results, ∃ item ∈ items, f item = some result := by
  induction items generalizing results with
  | nil =>
      obtain rfl := Option.some.inj mapped
      exact List.forall_mem_nil _
  | cons item items ih =>
      rw [List.mapM_cons] at mapped
      obtain ⟨first, isFirst, mapped⟩ := Option.bind_eq_some_iff.mp mapped
      obtain ⟨others, areOthers, mapped⟩ := Option.bind_eq_some_iff.mp mapped
      obtain rfl := Option.some.inj mapped
      refine List.forall_mem_cons.mpr ⟨⟨item, List.mem_cons_self, isFirst⟩, ?_⟩
      intro result listed
      obtain ⟨source, isSource, same⟩ := ih areOthers result listed
      exact ⟨source, List.mem_cons_of_mem _ isSource, same⟩

/-- A message of a rotation that seals anew what an answer holds: a private key, a title or note,
or a file key. -/
inductive Resealed (answered : List Term) (oldMaster newMaster : Term) (nonce : Nat) :
    Term → Prop
  | privateKey {lock plain} : .locked oldMaster lock plain ∈ answered →
      Resealed answered oldMaster newMaster nonce (.locked newMaster nonce plain)
  | derived {oldKey lock plain} (info : String) (_ : info ≠ "crypt-mind-auth-v1") :
      .locked oldKey lock plain ∈ answered →
        Resealed answered oldMaster newMaster nonce
          (.locked (derivedKey info newMaster) nonce plain)

section Rotations

variable {oldMaster newMaster : Term} {newSalt : String} {answered : List Term}

/-- The texts of a vault are sealed anew or left as they were answered. -/
theorem reencryptVault_resealed {vault rotated : VaultTexts Term}
    (done : symbols.reencryptVault (world.rotationDraws newSalt) oldMaster newMaster vault =
      some rotated)
    (listed : ∀ term ∈ vaultTerms vault, term ∈ answered) :
    ∀ term ∈ vaultTerms rotated, Resealed answered oldMaster newMaster world.drawn term := by
  obtain ⟨title, titled, done⟩ := Option.bind_eq_some_iff.mp done
  obtain ⟨note, noted, done⟩ := Option.bind_eq_some_iff.mp done
  obtain rfl := Option.some.inj done
  obtain ⟨lock, plain, isTitle, rfl⟩ := reencrypt_eq_some titled
  refine List.forall_mem_cons.mpr ⟨?_, fun term isNote => ?_⟩
  · exact .derived _ (by decide) (isTitle ▸ listed _ List.mem_cons_self)
  · obtain rfl := Option.mem_toList.mp isNote
    rw [Suite.reencryptNote] at noted
    cases raw : vault.vaultNoteEncrypted.filter fun note => !symbols.isEmpty note with
    | none =>
        rw [raw] at noted
        cases noted
    | some rawNote =>
        rw [raw] at noted
        obtain ⟨sealed, resealed, same⟩ := Option.map_eq_some_iff.mp noted
        obtain rfl := Option.some.inj same
        obtain ⟨lock, plain, rfl, rfl⟩ := reencrypt_eq_some resealed
        have present := Option.mem_toList.mpr (Option.filter_eq_some_iff.mp raw).1
        exact .derived _ (by decide) (listed _ (List.mem_cons_of_mem _ present))

theorem unwrapFileKey_eq_some {encryptionMeta : AttachmentMeta Term} {fileKey : Term}
    (done : symbols.unwrapFileKey encryptionMeta masterKey = some fileKey) :
    ∃ lock, .locked (symbols.attachmentWrapKey masterKey encryptionMeta) lock fileKey ∈
      encryptionMeta.wrappedKeyB64.toList := by
  obtain ⟨wrapped, isWrapped, opens⟩ := Option.bind_eq_some_iff.mp done
  obtain ⟨lock, rfl⟩ := openText_eq_some.mp opens
  exact ⟨lock, Option.mem_toList.mpr isWrapped⟩

/-- So is the key of an attachment. -/
theorem rewrapAttachment_resealed {attachment : AttachmentEntry Term}
    {rotated : RotatedAttachment Term}
    (done : symbols.rewrapAttachment (world.rotationDraws newSalt) oldMaster newMaster
      attachment = some rotated)
    (listed : ∀ term ∈ attachment.encryptionMeta.wrappedKeyB64.toList, term ∈ answered) :
    Resealed answered oldMaster newMaster world.drawn rotated.wrappedKeyB64 := by
  obtain ⟨fileKey, unwrapped, done⟩ := Option.bind_eq_some_iff.mp done
  obtain rfl := Option.some.inj done
  obtain ⟨lock, present⟩ := unwrapFileKey_eq_some unwrapped
  exact .derived _ (by decide) (listed _ present)

/-- A rotation sends two tokens, the new salt, and what it seals anew. -/
theorem rotation_resealed {oldPassword newPassword : Nat} {profile : RotationProfile Term}
    {vaults : List (VaultTexts Term)} {attachments : List (AttachmentEntry Term)}
    {result : RotationBundle Term Term}
    (done : symbols.buildPasswordRotationBundle (world.rotationDraws newSalt)
      ⟨.password, oldPassword⟩ ⟨.password, newPassword⟩ profile vaults attachments = some result) :
    ∃ oldMaster, oldMaster = masterKeyOf oldPassword profile.argon2Salt profile.argon2Params ∧
      result.newMasterKey = masterKeyOf newPassword (.text newSalt) argon2Defaults ∧
      ∀ term ∈ rotationTerms result,
        term = derivedKey "crypt-mind-auth-v1" oldMaster ∨
        term = derivedKey "crypt-mind-auth-v1" result.newMasterKey ∨ term = .text newSalt ∨
        Resealed (answers (.rotate oldPassword newPassword newSalt profile vaults attachments))
          oldMaster result.newMasterKey world.drawn term := by
  rw [Suite.buildPasswordRotationBundle] at done
  obtain ⟨oldMaster, isOld, done⟩ := Option.bind_eq_some_iff.mp done
  obtain ⟨classical, classicalOpens, done⟩ := Option.bind_eq_some_iff.mp done
  obtain ⟨pq, pqOpens, done⟩ := Option.bind_eq_some_iff.mp done
  obtain ⟨newMaster, isNew, done⟩ := Option.bind_eq_some_iff.mp done
  obtain ⟨newClassical, classicalSealed, done⟩ := Option.bind_eq_some_iff.mp done
  obtain ⟨newPq, pqSealed, done⟩ := Option.bind_eq_some_iff.mp done
  obtain ⟨rotatedVaults, vaultsDone, done⟩ := Option.bind_eq_some_iff.mp done
  obtain ⟨rotatedAttachments, attachmentsDone, done⟩ := Option.bind_eq_some_iff.mp done
  obtain rfl := Option.some.inj done
  obtain rfl := Option.some.inj isOld
  obtain rfl := Option.some.inj isNew
  obtain rfl := Option.some.inj classicalSealed
  obtain rfl := Option.some.inj pqSealed
  obtain ⟨classicalLock, isClassical⟩ := openText_eq_some.mp classicalOpens
  obtain ⟨pqLock, isPq⟩ := openText_eq_some.mp pqOpens
  refine ⟨_, rfl, rfl, fun term listed => ?_⟩
  simp only [rotationTerms, List.mem_append, List.mem_cons, List.not_mem_nil, or_false,
    List.mem_flatMap, List.mem_map] at listed
  rcases listed with ((rfl | rfl | rfl | rfl | rfl) | ⟨vault, isVault, inVault⟩) |
    ⟨attachment, isAttachment, rfl⟩
  · exact .inl rfl
  · exact .inr (.inl rfl)
  · exact .inr (.inr (.inl rfl))
  · have answered : profile.classicalPrivEncrypted ∈
        answers (.rotate oldPassword newPassword newSalt profile vaults attachments) :=
      List.mem_append_left _ (List.mem_append_left _ (.tail _ (.head _)))
    rw [isClassical] at answered
    exact .inr (.inr (.inr (.privateKey answered)))
  · have answered : profile.pqPrivEncrypted ∈
        answers (.rotate oldPassword newPassword newSalt profile vaults attachments) :=
      List.mem_append_left _ (List.mem_append_left _ (.tail _ (.tail _ (.head _))))
    rw [isPq] at answered
    exact .inr (.inr (.inr (.privateKey answered)))
  · obtain ⟨source, isSource, same⟩ := mapM_mem vaultsDone vault isVault
    refine .inr (.inr (.inr (reencryptVault_resealed same (fun term inSource => ?_) term inVault)))
    exact List.mem_append_left _ (List.mem_append_right _
      (List.mem_flatMap.mpr ⟨source, isSource, inSource⟩))
  · obtain ⟨source, isSource, same⟩ := mapM_mem attachmentsDone attachment isAttachment
    refine .inr (.inr (.inr (rewrapAttachment_resealed same fun term inSource => ?_)))
    exact List.mem_append_right _ (List.mem_flatMap.mpr ⟨source, isSource, inSource⟩)

end Rotations

/-! ### Events -/

/-- The session of a new account. -/
def newSession (index : Nat) (masterKey : Term) : Session Term where
  masterKey := masterKey
  classicalPrivKey := drawnSecret .classical index
  classicalPubKey := .publicKey .agreement (drawnSecret .classical index)
  pqPrivKey := drawnSecret .pq index
  pqPubKey := .publicKey .encapsulation (drawnSecret .pq index)

/-- The key material of a new account. -/
def newKeyTerms (index : Nat) (masterKey : Term) (salt : String) : List Term :=
  [.text salt, .publicKey .agreement (drawnSecret .classical index),
    .publicKey .encapsulation (drawnSecret .pq index),
    .locked masterKey index (drawnSecret .classical index),
    .locked masterKey index (drawnSecret .pq index)]

/-- What the file key of an attachment has opened, or a text that was said to be plain. -/
inductive Fetched (ciphertext : Term) : Term → Prop
  | opened {fileKey lock plain} : ciphertext = .locked fileKey lock plain → Fetched ciphertext plain
  | plain : Fetched ciphertext ciphertext

theorem fetched_of_attachmentBytes {ciphertext : Term}
    {encryptionMeta : Option (AttachmentMeta Term)}
    (done : symbols.attachmentBytes ciphertext encryptionMeta masterKey = some plain) :
    Fetched ciphertext plain := by
  cases encryptionMeta with
  | none =>
      obtain rfl := Option.some.inj done
      exact .plain
  | some encryptionMeta =>
      obtain ⟨fileKey, unwrapped, opens⟩ := Option.bind_eq_some_iff.mp done
      obtain ⟨lock, isLocked⟩ := unlockTerm_eq_some.mp opens
      exact .opened isLocked

/-- What a browser opens and sends in an event. -/
theorem respond_cases {motive : Event → Outcome → Prop}
    (register : ∀ username password salt inviteCode masterKey,
      masterKey = masterKeyOf password (.text salt) argon2Defaults →
        motive (.register username password salt inviteCode)
          { sessions := [newSession world.drawn masterKey]
            told := [.text username, derivedKey "crypt-mind-auth-v1" masterKey] ++
              newKeyTerms world.drawn masterKey salt ++
              (inviteCode.map Symbolic.Term.text).toList })
    (enrol : ∀ username password salt masterKey,
      masterKey = masterKeyOf password (.text salt) argon2Defaults →
        motive (.enrol username password salt)
          { sessions := [newSession world.drawn masterKey]
            told := .text username :: newKeyTerms world.drawn masterKey salt })
    (login : ∀ username password salt params masterKey,
      masterKey = masterKeyOf password salt params →
        motive (.login username password salt params)
          { logins := [masterKey]
            told := [.text username, derivedKey "crypt-mind-auth-v1" masterKey] })
    (loggedIn : ∀ login bundle masterKey session, masterKey ∈ world.logins →
      Opens masterKey bundle session →
        motive (.loggedIn login bundle) { sessions := [session], told := [] })
    (unlock : ∀ password bundle masterKey sessions,
      masterKey = masterKeyOf password bundle.argon2Salt bundle.argon2Params →
      (∀ session ∈ sessions, Opens masterKey bundle session) →
        motive (.unlock password none bundle) { sessions := sessions, told := [] })
    (remember : ∀ password label bundle masterKey sessions,
      masterKey = masterKeyOf password bundle.argon2Salt bundle.argon2Params →
      (∀ session ∈ sessions, Opens masterKey bundle session) →
        motive (.unlock password (some label) bundle)
          { sessions := sessions
            devices := [drawnSecret .device world.drawn]
            told := [.text label,
              .locked (drawnSecret .device world.drawn) world.drawn masterKey] })
    (unlockWithDevice : ∀ device wrapped bundle key lock masterKey session,
      key ∈ world.devices → wrapped = .locked key lock masterKey →
      Opens masterKey bundle session →
        motive (.unlockWithDevice device wrapped bundle) { sessions := [session], told := [] })
    (rotate : ∀ oldPassword newPassword newSalt profile vaults attachments oldMaster newMaster
        told, oldMaster = masterKeyOf oldPassword profile.argon2Salt profile.argon2Params →
      newMaster = masterKeyOf newPassword (.text newSalt) argon2Defaults →
      (∀ term ∈ told, term = derivedKey "crypt-mind-auth-v1" oldMaster ∨
        term = derivedKey "crypt-mind-auth-v1" newMaster ∨ term = .text newSalt ∨
        Resealed (answers (.rotate oldPassword newPassword newSalt profile vaults attachments))
          oldMaster newMaster world.drawn term) →
        motive (.rotate oldPassword newPassword newSalt profile vaults attachments)
          { rotations := [newMaster], told := told })
    (rotated : ∀ rotation index newMasterKey session, newMasterKey ∈ world.rotations →
      session ∈ world.sessions →
        motive (.rotated rotation index)
          { sessions := [{ session with masterKey := newMasterKey }], told := [] })
    (save : ∀ index title tree session classical pq, world.sessions[index]? = some session →
      session.classicalPubKey = .publicKey .agreement classical →
      session.pqPubKey = .publicKey .encapsulation pq →
        motive (.save index title tree)
          { told := saveTerms world.drawn session.masterKey title.term tree.term classical pq })
    (retitle : ∀ index text session, session ∈ world.sessions →
      motive (.retitle index text)
        { told := [.locked (derivedKey "crypt-mind-title-v1" session.masterKey) world.drawn
            text.term] })
    (attach : ∀ index file session, session ∈ world.sessions →
      motive (.attach index file) { told := uploadTerms world.drawn session.masterKey file.term })
    (share : ∀ passphrase salt name title tree shareKey,
      shareKey = shareKeyOf passphrase (.text salt) argon2Defaults →
        motive (.share passphrase salt name title tree)
          { shares := [shareKey]
            told := [shareName name title, .text salt,
              .locked shareKey world.drawn (sharePayload title tree)] })
    (shareAttachment : ∀ share index ciphertext encryptionMeta shareKey plain,
      shareKey ∈ world.shares → Fetched ciphertext plain →
        motive (.shareAttachment share index ciphertext encryptionMeta)
          { told := [.locked shareKey world.drawn plain] })
    (importAttachment : ∀ index passphrase saltB64 params ciphertext session shareKey lock plain,
      session ∈ world.sessions → ciphertext = .locked shareKey lock plain →
        motive (.importAttachment index passphrase saltB64 params ciphertext)
          { told := uploadTerms world.drawn session.masterKey plain })
    {event : Event} {outcome : Outcome} (responds : respond world event = some outcome) :
    motive event outcome := by
  cases event with
  | register username password salt inviteCode =>
      obtain rfl := Option.some.inj responds
      exact register username password salt inviteCode _ rfl
  | enrol username passphrase salt =>
      obtain rfl := Option.some.inj responds
      exact enrol username passphrase salt _ rfl
  | login username password salt params =>
      obtain rfl := Option.some.inj responds
      exact login username password salt params _ rfl
  | loggedIn index bundle =>
      obtain ⟨masterKey, present, responds⟩ := Option.bind_eq_some_iff.mp responds
      obtain ⟨session, opens, responds⟩ := Option.bind_eq_some_iff.mp responds
      obtain rfl := Option.some.inj responds
      exact loggedIn index bundle masterKey session (List.mem_of_getElem? present)
        (opens_of_openWithMasterKey opens)
  | unlock password label bundle =>
      rw [respond, World.unlock] at responds
      obtain ⟨masterKey, derives, responds⟩ := Option.bind_eq_some_iff.mp responds
      obtain rfl := Option.some.inj derives
      obtain ⟨classical, -, responds⟩ := Option.bind_eq_some_iff.mp responds
      have opened : ∀ session ∈ (symbols.openWithMasterKey
          (masterKeyOf password bundle.argon2Salt bundle.argon2Params) bundle).toList,
          Opens (masterKeyOf password bundle.argon2Salt bundle.argon2Params) bundle session :=
        fun session isSession => opens_of_openWithMasterKey (Option.mem_toList.mp isSession)
      cases label with
      | none =>
          obtain rfl := Option.some.inj responds
          exact unlock password bundle _ _ rfl opened
      | some label =>
          obtain rfl := Option.some.inj responds
          exact remember password label bundle _ _ rfl opened
  | unlockWithDevice device wrapped bundle =>
      obtain ⟨key, present, responds⟩ := Option.bind_eq_some_iff.mp responds
      obtain ⟨masterKey, unwraps, responds⟩ := Option.bind_eq_some_iff.mp responds
      obtain ⟨session, opens, responds⟩ := Option.bind_eq_some_iff.mp responds
      obtain rfl := Option.some.inj responds
      obtain ⟨lock, isWrapped⟩ := openText_eq_some.mp unwraps
      exact unlockWithDevice device wrapped bundle key lock masterKey session
        (List.mem_of_getElem? present) isWrapped (opens_of_openWithMasterKey opens)
  | rotate oldPassword newPassword newSalt profile vaults attachments =>
      obtain ⟨result, done, responds⟩ := Option.bind_eq_some_iff.mp responds
      obtain rfl := Option.some.inj responds
      obtain ⟨oldMaster, isOld, isNew, resealed⟩ := rotation_resealed done
      exact rotate oldPassword newPassword newSalt profile vaults attachments oldMaster _ _ isOld
        isNew resealed
  | rotated rotation index =>
      obtain ⟨newMasterKey, present, responds⟩ := Option.bind_eq_some_iff.mp responds
      obtain ⟨session, isSession, responds⟩ := Option.bind_eq_some_iff.mp responds
      obtain rfl := Option.some.inj responds
      exact rotated rotation index newMasterKey session (List.mem_of_getElem? present)
        (List.mem_of_getElem? isSession)
  | save index title tree =>
      obtain ⟨session, isSession, responds⟩ := Option.bind_eq_some_iff.mp responds
      obtain ⟨saved, done, responds⟩ := Option.bind_eq_some_iff.mp responds
      obtain rfl := Option.some.inj responds
      obtain ⟨classical, pq, isClassical, isPq, told⟩ := handleSave_eq_some done
      rw [told]
      exact save index title tree session classical pq isSession isClassical isPq
  | retitle index text =>
      obtain ⟨session, isSession, responds⟩ := Option.bind_eq_some_iff.mp responds
      obtain rfl := Option.some.inj responds
      exact retitle index text session (List.mem_of_getElem? isSession)
  | attach index file =>
      obtain ⟨session, isSession, responds⟩ := Option.bind_eq_some_iff.mp responds
      obtain rfl := Option.some.inj responds
      exact attach index file session (List.mem_of_getElem? isSession)
  | share passphrase salt name title tree =>
      obtain rfl := Option.some.inj responds
      exact share passphrase salt name title tree _ rfl
  | shareAttachment index sessionIndex ciphertext encryptionMeta =>
      obtain ⟨shareKey, isShare, responds⟩ := Option.bind_eq_some_iff.mp responds
      obtain ⟨session, isSession, responds⟩ := Option.bind_eq_some_iff.mp responds
      obtain ⟨plain, fetched, responds⟩ := Option.bind_eq_some_iff.mp responds
      obtain rfl := Option.some.inj responds
      exact shareAttachment index sessionIndex ciphertext encryptionMeta shareKey plain
        (List.mem_of_getElem? isShare) (fetched_of_attachmentBytes fetched)
  | importAttachment index passphrase saltB64 params ciphertext =>
      obtain ⟨session, isSession, responds⟩ := Option.bind_eq_some_iff.mp responds
      obtain ⟨shareKey, -, responds⟩ := Option.bind_eq_some_iff.mp responds
      obtain ⟨plain, opens, responds⟩ := Option.bind_eq_some_iff.mp responds
      obtain rfl := Option.some.inj responds
      obtain ⟨lock, isLocked⟩ := unlockTerm_eq_some.mp opens
      exact importAttachment index passphrase saltB64 params ciphertext session _ lock plain
        (List.mem_of_getElem? isSession) isLocked

end Secrecy
end MindMapVault
