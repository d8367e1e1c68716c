import MindMapVault.Crypto.Suite
import MindMapVault.Foundations.Symbolic
import MindMapVault.Foundations.Transition

/-!
# The clients and a server that answers what it likes

Browsers register and enrol accounts, sign in, unlock, change passwords, save maps, titles and
notes, upload attachments and share maps. Everything they send is seen by whoever runs the
server, who is free to answer with whatever can be derived from what was sent so far: old
messages, messages of other accounts, keys of its own. What goes in the clear beside, as the
name, type and size of a file, the node it is at and the hint at a passphrase, is not among
the secrets and left out. A request that is refused leaves what it
opened unused, and nothing a browser holds is forgotten, as another tab may be open.
-/

namespace MindMapVault
namespace Secrecy

open Accounts (Argon2Params)
open Crypto
open Symbolic (Scheme Derives)

/-- What a name stands for. -/
inductive Kind
  | password
  | passphrase
  | content
  | classical
  | pq
  | ephemeral
  | seed
  | dek
  | file
  | device
  deriving DecidableEq

/-- Something that only its owner knows: a password, a piece of what a user has written, or a
draw of a browser, which is numbered by the step it is drawn in. -/
structure Name where
  kind : Kind
  index : Nat
  deriving DecidableEq

/-- The key derivations. -/
inductive OneWay
  | argon2id (params : Argon2Params)
  | hkdfSha256 (info : String)
  deriving DecidableEq

/-- A message. -/
abbrev Term := Symbolic.Term Name OneWay

/-- A name as a message. -/
def drawnSecret (kind : Kind) (index : Nat) : Term := .secret ⟨kind, index⟩

/-- `crypto.subtle.decrypt`: only the key that was locked with opens. -/
def unlockTerm (key : Term) : Term → Option Term
  | .locked lock _ plain => if lock = key then some plain else none
  | _ => none

/-- `x25519.getSharedSecret`, of a public key of its own kind. -/
def agreeTerm (own : Term) : Term → Option Term
  | .publicKey .agreement other => some (.agreed own other)
  | _ => none

/-- `ml_kem768.encapsulate`, of a public key of its own kind. -/
def encapsulateTerm (seed : Term) : Term → Option (Term × Term)
  | .publicKey .encapsulation priv => some (.capsule priv seed, .encapsulated priv seed)
  | _ => none

/-- The operations over messages. -/
def symbols : Suite Name Term Term Nat where
  toBase64 := id
  fromBase64 := some
  toHex := id
  isEmpty := fun text => text == .text ""
  argon2id := fun password salt params =>
    some (.apply (.argon2id params) (.pair (.secret password) salt))
  hkdfSha256 := fun ikm info => .apply (.hkdfSha256 info) ikm
  concat := .pair
  aesEncrypt := fun key nonce plain => some (.locked key nonce plain)
  aesDecrypt := unlockTerm
  x25519Public := .publicKey .agreement
  x25519Shared := agreeTerm
  mlKemPublic := .publicKey .encapsulation
  mlKemEncapsulate := fun recipient seed => encapsulateTerm seed recipient

/-- What a user saves: pieces that were written, and something that came from the server. -/
structure Content where
  written : List Nat
  received : Term
  deriving DecidableEq

/-- A content as a message. -/
def Content.term (content : Content) : Term :=
  content.written.foldr (fun index rest => .pair (drawnSecret .content index) rest) content.received

/-- What a browser does. A salt is drawn but not kept, so that it is a text; passwords,
passphrases and contents are given by number; what the server has answered is a message. -/
inductive Event
  | register (username : String) (password : Nat) (salt : String) (inviteCode : Option String)
  | enrol (username : String) (passphrase : Nat) (salt : String)
  | login (username : String) (password : Nat) (salt : Term) (params : Argon2Params)
  | loggedIn (login : Nat) (bundle : AccountKeys Term)
  | unlock (password : Nat) (remember : Option String) (bundle : AccountKeys Term)
  | unlockWithDevice (device : Nat) (wrapped : Term) (bundle : AccountKeys Term)
  | rotate (oldPassword newPassword : Nat) (newSalt : String) (profile : RotationProfile Term)
      (vaults : List (VaultTexts Term)) (attachments : List (AttachmentEntry Term))
  | rotated (rotation session : Nat)
  | save (session : Nat) (title tree : Content)
  | retitle (session : Nat) (text : Content)
  | attach (session : Nat) (file : Content)
  | share (passphrase : Nat) (salt : String) (name : Option String) (title : Option Content)
      (tree : Content)
  | shareAttachment (share session : Nat) (ciphertext : Term)
      (encryptionMeta : Option (AttachmentMeta Term))
  | importAttachment (session passphrase : Nat) (saltB64 : Term) (params : Argon2Params)
      (ciphertext : Term)

/-- What the browsers hold, and what has been sent. -/
structure World where
  sessions : List (Session Term)
  logins : List Term
  rotations : List Term
  devices : List Term
  shares : List Term
  drawn : Nat
  sent : List Term

/-- Before anything is sent. -/
def unsent : World := ⟨[], [], [], [], [], 0, []⟩

/-- What an event adds. -/
structure Outcome where
  sessions : List (Session Term) := []
  logins : List Term := []
  rotations : List Term := []
  devices : List Term := []
  shares : List Term := []
  told : List Term

/-- The world with what an event adds. -/
def World.after (world : World) (outcome : Outcome) : World where
  sessions := world.sessions ++ outcome.sessions
  logins := world.logins ++ outcome.logins
  rotations := world.rotations ++ outcome.rotations
  devices := world.devices ++ outcome.devices
  shares := world.shares ++ outcome.shares
  drawn := world.drawn + 1
  sent := world.sent ++ outcome.told

/-! ### Requests -/

/-- The messages in the key material of an account. -/
def accountTerms (keys : AccountKeys Term) : List Term :=
  [keys.argon2Salt, keys.classicalPublicKey, keys.pqPublicKey, keys.classicalPrivEncrypted,
    keys.pqPrivEncrypted]

/-- The messages of a registration, and of the sign-in that follows it. -/
def registerTerms (request : RegisterRequest Term) : List Term :=
  [.text request.username, request.authToken] ++ accountTerms request.keys ++
    (request.inviteCode.map Symbolic.Term.text).toList

/-- The messages of a save. -/
def savedTerms (saved : SavedVault Term Term) : List Term :=
  [saved.titleEncrypted, saved.ephClassicalPublic, saved.ephPqCiphertext, saved.wrappedDek,
    saved.blob]

/-- The messages of an upload. -/
def bundleTerms (bundle : AttachmentBundle Term Term) : List Term :=
  bundle.ciphertext :: bundle.encryptionMeta.wrappedKeyB64.toList

/-- The messages in a vault of a manifest or a rotation. -/
def vaultTerms (vault : VaultTexts Term) : List Term :=
  vault.titleEncrypted :: vault.vaultNoteEncrypted.toList

/-- The messages of a rotation. -/
def rotationTerms (bundle : RotationBundle Term Term) : List Term :=
  [bundle.currentAuthToken, bundle.newAuthToken, bundle.newProfile.argon2Salt,
      bundle.newProfile.classicalPrivEncrypted, bundle.newProfile.pqPrivEncrypted] ++
    bundle.updatedVaults.flatMap vaultTerms ++
    bundle.updatedAttachments.map RotatedAttachment.wrappedKeyB64

/-- The name of a share: the field of the form, or else what the title makes. -/
def shareName (name : Option String) (title : Option Content) : Term :=
  match name with
  | some name => .text name
  | none =>
      match title with
      | some title => .pair title.term (.text ".mmvshare")
      | none => .text "vault.mmvshare"

/-- The payload of a share. -/
def sharePayload (title : Option Content) (tree : Content) : Term :=
  .pair ((title.map Content.term).getD (.text "Untitled vault")) tree.term

/-! ### Steps -/

section Steps

variable (world : World)

/-- The draws of a new account. -/
def World.accountDraws (salt : String) : AccountDraws Term Nat where
  salt := .text salt
  classicalPriv := drawnSecret .classical world.drawn
  pqPriv := drawnSecret .pq world.drawn
  classicalNonce := world.drawn
  pqNonce := world.drawn

/-- The draws of an encapsulation. -/
def World.encapsulationDraws : EncapsulationDraws Term Nat where
  ephPrivate := drawnSecret .ephemeral world.drawn
  pqSeed := drawnSecret .seed world.drawn
  dek := drawnSecret .dek world.drawn
  nonce := world.drawn

/-- The draws of a rotation. -/
def World.rotationDraws (newSalt : String) : RotationDraws Term Nat where
  newSalt := .text newSalt
  classicalNonce := world.drawn
  pqNonce := world.drawn
  titleNonce := fun _ => world.drawn
  noteNonce := fun _ => world.drawn
  attachmentNonce := fun _ => world.drawn

/-- An upload of a file with a file key of its own. -/
def World.upload (session : Session Term) (plaintext : Term) : Option Outcome := do
  let bundle ← symbols.encryptAttachmentForOwner plaintext session.masterKey
    (drawnSecret .file world.drawn) world.drawn world.drawn
  return { told := bundleTerms bundle }

/-- `handleUnlock` of the unlock dialog, after the bundle has come. -/
def World.unlock (password : Name) (remember : Option String) (bundle : AccountKeys Term) :
    Option Outcome := do
  let masterKey ← symbols.deriveMasterKey password bundle.argon2Salt bundle.argon2Params
  let _ ← symbols.openText masterKey bundle.classicalPrivEncrypted
  let sessions := (symbols.openWithMasterKey masterKey bundle).toList
  match remember with
  | none => return { sessions := sessions, told := [] }
  | some label =>
      let key := drawnSecret .device world.drawn
      let wrapped ← symbols.trustThisDevice masterKey key world.drawn
      return { sessions := sessions, devices := [key], told := [.text label, wrapped] }

/-- What a browser does in an event; `none` where it stops with an error before anything is
sent. -/
def respond : Event → Option Outcome
  | .register username password salt inviteCode => do
      let account ← symbols.newAccount ⟨.password, password⟩ (world.accountDraws salt)
      return {
        sessions := [account.1]
        told := registerTerms (symbols.registerRequest username inviteCode account) }
  | .enrol username passphrase salt => do
      let account ← symbols.newAccount ⟨.password, passphrase⟩ (world.accountDraws salt)
      return { sessions := [account.1], told := .text username :: accountTerms account.2 }
  | .login username password salt params => do
      let masterKey ← symbols.deriveMasterKey ⟨.password, password⟩ salt params
      return {
        logins := [masterKey]
        told := [.text username, symbols.deriveAuthToken masterKey] }
  | .loggedIn login bundle => do
      let masterKey ← world.logins[login]?
      let session ← symbols.openWithMasterKey masterKey bundle
      return { sessions := [session], told := [] }
  | .unlock password remember bundle => world.unlock ⟨.password, password⟩ remember bundle
  | .unlockWithDevice device wrapped bundle => do
      let key ← world.devices[device]?
      let masterKey ← symbols.unwrapWithDevice key wrapped
      let session ← symbols.openWithMasterKey masterKey bundle
      return { sessions := [session], told := [] }
  | .rotate oldPassword newPassword newSalt profile vaults attachments => do
      let bundle ← symbols.buildPasswordRotationBundle (world.rotationDraws newSalt)
        ⟨.password, oldPassword⟩ ⟨.password, newPassword⟩ profile vaults attachments
      return { rotations := [bundle.newMasterKey], told := rotationTerms bundle }
  | .rotated rotation session => do
      let newMasterKey ← world.rotations[rotation]?
      let session ← world.sessions[session]?
      return { sessions := [{ session with masterKey := newMasterKey }], told := [] }
  | .save session title tree => do
      let session ← world.sessions[session]?
      let saved ← symbols.handleSave session title.term tree.term world.encapsulationDraws
        world.drawn world.drawn
      return { told := savedTerms saved }
  | .retitle session text => do
      let session ← world.sessions[session]?
      let sealed ← symbols.encryptTitle text.term session.masterKey world.drawn
      return { told := [sealed] }
  | .attach session file => do
      let session ← world.sessions[session]?
      world.upload session file.term
  | .share passphrase salt name title tree => do
      let bundle ← symbols.createEncryptedShareBundle (sharePayload title tree)
        ⟨.passphrase, passphrase⟩ (.text salt) world.drawn
      return {
        shares := [bundle.shareKey]
        told := [shareName name title, bundle.saltB64, bundle.ciphertext] }
  | .shareAttachment share session ciphertext encryptionMeta => do
      let shareKey ← world.shares[share]?
      let session ← world.sessions[session]?
      let plaintext ← symbols.attachmentBytes ciphertext encryptionMeta session.masterKey
      let sealed ← symbols.encryptBytesForShare plaintext shareKey world.drawn
      return { told := [sealed] }
  | .importAttachment session passphrase saltB64 params ciphertext => do
      let session ← world.sessions[session]?
      let shareKey ← symbols.shareKeyOf ⟨.passphrase, passphrase⟩ saltB64 params
      let plaintext ← symbols.decryptBytesForShare ciphertext shareKey
      world.upload session plaintext

/-- One event. -/
def step (event : Event) : Option World := (respond world event).map world.after

end Steps

/-! ### Answers and leaks -/

/-- What the server has answered in an event. -/
def answers : Event → List Term
  | .register .. | .enrol .. | .rotated .. => []
  | .login _ _ salt _ => [salt]
  | .loggedIn _ bundle | .unlock _ _ bundle => accountTerms bundle
  | .unlockWithDevice _ wrapped bundle => wrapped :: accountTerms bundle
  | .rotate _ _ _ profile vaults attachments =>
      [profile.argon2Salt, profile.classicalPrivEncrypted, profile.pqPrivEncrypted] ++
        vaults.flatMap vaultTerms ++
        attachments.flatMap fun attachment => attachment.encryptionMeta.wrappedKeyB64.toList
  | .save _ title tree => [title.received, tree.received]
  | .retitle _ text => [text.received]
  | .attach _ file => [file.received]
  | .share _ _ _ title tree => tree.received :: (title.map Content.received).toList
  | .shareAttachment _ _ ciphertext encryptionMeta =>
      ciphertext :: (encryptionMeta.bind AttachmentMeta.wrappedKeyB64).toList
  | .importAttachment _ _ saltB64 _ ciphertext => [saltB64, ciphertext]

/-- The server answers only what can be derived from what was sent. -/
def Answerable (breaks : Scheme → Prop) (world : World) (event : Event) : Prop :=
  ∀ term ∈ answers event, Derives breaks (· ∈ world.sent) term

/-- A public key whose private half a browser has drawn. -/
def IsDrawn (key : Term) : Prop :=
  ∃ scheme kind index, kind ∈ [Kind.classical, Kind.pq, Kind.ephemeral] ∧
    key = .publicKey scheme (drawnSecret kind index)

/-- The keys a session seals maps with are the server's own: each is of a broken scheme, or not
drawn by a browser. -/
def SealsForServer (breaks : Scheme → Prop) (session : Session Term) : Prop :=
  (breaks .agreement ∨ ¬IsDrawn session.classicalPubKey) ∧
    (breaks .encapsulation ∨ ¬IsDrawn session.pqPubKey)

/-- What an event tells the server: a map that is sealed for it, and the title that an unnamed
share is named after. -/
def Leaks (breaks : Scheme → Prop) (world : World) (event : Event) (name : Name) : Prop :=
  match event with
  | .save session _ tree =>
      (∃ keys, world.sessions[session]? = some keys ∧ SealsForServer breaks keys) ∧
        (name = ⟨.dek, world.drawn⟩ ∨ name.kind = .content ∧ name.index ∈ tree.written)
  | .share _ _ none (some title) _ => name.kind = .content ∧ name.index ∈ title.written
  | _ => False

end Secrecy
end MindMapVault
