import MindMapVault.Secrecy.Kept

/-!
# What the server learns

In every run of the browsers with a server that answers what it likes, exactly the leaks get out:
the maps that were saved under public keys of the server's own, and the titles that unnamed
shares were named after. No password, master key or private key does, so that whatever opens
under a key of a session was sent by a browser as it is.
-/

namespace MindMapVault
namespace Secrecy

open Crypto
open Symbolic (Scheme Derives Traced)
open Transition (exec Takes EveryStepAllowed)

variable {breaks : Scheme → Prop} {world next : World} {event : Event} {outcome : Outcome}
  {events : List Event}

/-! ### The number of a step -/

theorem step_eq_some :
    step world event = some next ↔
      ∃ outcome, respond world event = some outcome ∧ next = world.after outcome := by
  rw [step, Option.map_eq_some_iff]
  exact exists_congr fun _ => and_congr_right fun _ => eq_comm

/-- Every step draws once. -/
theorem drawn_exec {start : World} (run : exec step start events = some world) :
    world.drawn = start.drawn + events.length := by
  induction events generalizing start with
  | nil => exact Option.some.inj run ▸ rfl
  | cons event events ih =>
      obtain ⟨next, taken, run⟩ := Option.bind_eq_some_iff.mp run
      obtain ⟨outcome, -, rfl⟩ := step_eq_some.mp taken
      rw [ih run, List.length_cons, World.after, Nat.add_right_comm]
      rfl

/-- Two steps of a run with one number are one step. -/
theorem takes_unique {event' : Event} {world' : World} (one : Takes step unsent events world event)
    (two : Takes step unsent events world' event') (same : world.drawn = world'.drawn) :
    event = event' ∧ world = world' := by
  have position : ∀ {index : Nat} {event : Event} {world : World},
      events[index]? = some event → exec step unsent (events.take index) = some world →
        world.drawn = index := by
    intro index event world isEvent run
    have inside := (List.getElem?_eq_some_iff.mp isEvent).1
    rw [drawn_exec run, List.length_take]
    simp only [unsent]
    omega
  obtain ⟨index, isEvent, run⟩ := one
  obtain ⟨index', isEvent', run'⟩ := two
  have equal : index = index' := by
    rw [← position isEvent run, ← position isEvent' run', same]
  subst equal
  exact ⟨Option.some.inj (isEvent.symm.trans isEvent'), Option.some.inj (run.symm.trans run')⟩

/-! ### What does not get out -/

/-- A run leaks a name if one of its events does. -/
def LeaksIn (breaks : Scheme → Prop) (events : List Event) (name : Name) : Prop :=
  ∃ world event, Takes step unsent events world event ∧ Leaks breaks world event name

/-- Only content and the key of the map that is saved leak. -/
theorem kind_of_leaks {name : Name} (leaks : Leaks breaks world event name) :
    name.kind = .content ∨ name = ⟨.dek, world.drawn⟩ := by
  unfold Leaks at leaks
  split at leaks
  · exact leaks.2.elim .inr fun content => .inl content.1
  · exact .inl leaks.1
  · exact leaks.elim

theorem leaksIn_contained (name : Name) (leaks : LeaksIn breaks events name) :
    name.kind = .content ∨ name.kind = .dek := by
  obtain ⟨world, event, -, leaks⟩ := leaks
  exact (kind_of_leaks leaks).imp_right fun isDek => congrArg Name.kind isDek

/-- At the end of every run everything keeps to the policy under which the leaks have got out. -/
theorem kept_run (answered : EveryStepAllowed step (Answerable breaks) unsent events)
    (run : exec step unsent events = some world) :
    Kept (LeaksIn breaks events) breaks world.held := by
  have taking : EveryStepAllowed step (fun world event => Takes step unsent events world event)
      unsent events := Transition.everyStepAllowed_of_takes fun _ _ takes => takes
  have initially : Kept (LeaksIn breaks events) breaks unsent.held :=
    kept_opened (List.forall_mem_nil _) (List.forall_mem_nil _)
  have preserved : ∀ (world : World) (event : Event) (next : World),
      Kept (LeaksIn breaks events) breaks world.held →
      (Answerable breaks world event ∧ Takes step unsent events world event) →
      step world event = some next → Kept (LeaksIn breaks events) breaks next.held := by
    intro world event next kept allowed taken
    obtain ⟨outcome, responds, rfl⟩ := step_eq_some.mp taken
    refine kept.after (kept_respond leaksIn_contained kept (fun term listed => ?_)
      (fun name leaks => ⟨world, event, allowed.2, leaks⟩) (fun isOut => ?_) responds)
    · exact Symbolic.Policy.open_of_derives kept.told (allowed.1 term listed)
    · -- a step that leaks the key with this number is this step
      obtain ⟨world', event', takes, leaks⟩ := isOut
      rcases kind_of_leaks leaks with content | same
      · cases content
      · obtain ⟨rfl, rfl⟩ := takes_unique allowed.2 takes (Name.mk.inj same).2
        exact leaks
  exact (Transition.everyState_of_allowed preserved (fun _ kept => kept) initially
    (answered.and taking)).last run

/-- What can be derived from what was sent is open. -/
theorem open_of_derives (answered : EveryStepAllowed step (Answerable breaks) unsent events)
    (run : exec step unsent events = some world) {term : Term}
    (derives : Derives breaks (· ∈ world.sent) term) :
    (policy (LeaksIn breaks events)).Open breaks term :=
  Symbolic.Policy.open_of_derives (kept_run answered run).told derives

/-! ### Where messages come from -/

section Origins

/-- A locked message was sent as it is, or was made with a key that can be derived. -/
def LockOrigin (breaks : Scheme → Prop) (sent : List Term) (term : Term) : Prop :=
  term ∈ sent ∨ ∃ key nonce plain, term = .locked key nonce plain ∧ Derives breaks (· ∈ sent) key

/-- A public key is of a private half that a browser drew, or of one that can be derived. -/
def KeyOrigin (breaks : Scheme → Prop) (sent : List Term) (scheme : Scheme) (priv : Term) : Prop :=
  IsDrawn (.publicKey scheme priv) ∨ Derives breaks (· ∈ sent) priv

variable {locks : Term → Prop} {keyPairs : Scheme → Term → Prop}

theorem traced_content {content : Content} (received : Traced locks keyPairs content.received) :
    Traced locks keyPairs content.term := by
  obtain ⟨written, source⟩ := content
  induction written with
  | nil => exact received
  | cons index written ih => exact ⟨trivial, ih received⟩

theorem traced_sharePayload {title : Option Content} {tree : Content}
    (titled : ∀ term ∈ (title.map Content.received).toList, Traced locks keyPairs term)
    (received : Traced locks keyPairs tree.received) :
    Traced locks keyPairs (sharePayload title tree) := by
  refine ⟨?_, traced_content received⟩
  cases title with
  | none => trivial
  | some title => exact traced_content (titled _ List.mem_cons_self)

/-- What a browser sends has an origin if what it was answered has one. -/
theorem traced_respond
    (pairs : ∀ scheme priv, IsDrawn (.publicKey scheme priv) → keyPairs scheme priv)
    (answered : ∀ term ∈ answers event, Traced locks keyPairs term)
    (responds : respond world event = some outcome) (sent : ∀ term ∈ outcome.told, locks term) :
    ∀ term ∈ outcome.told, Traced locks keyPairs term := by
  have drawn : ∀ scheme kind index, kind ∈ [Kind.classical, Kind.pq, Kind.ephemeral] →
      keyPairs scheme (drawnSecret kind index) :=
    fun scheme kind index listed => pairs _ _ ⟨scheme, kind, index, listed, rfl⟩
  have account : ∀ index masterKey salt, (∀ term ∈ newKeyTerms index masterKey salt, locks term) →
      ∀ term ∈ newKeyTerms index masterKey salt, Traced locks keyPairs term := by
    intro index masterKey salt sent
    simp only [newKeyTerms, List.forall_mem_cons] at sent ⊢
    obtain ⟨-, -, -, classical, pq, -⟩ := sent
    exact ⟨trivial, drawn _ _ _ (by simp), drawn _ _ _ (by simp), ⟨classical, trivial⟩,
      ⟨pq, trivial⟩, List.forall_mem_nil _⟩
  have upload : ∀ index masterKey plain, Traced locks keyPairs plain →
      (∀ term ∈ uploadTerms index masterKey plain, locks term) →
        ∀ term ∈ uploadTerms index masterKey plain, Traced locks keyPairs term := by
    intro index masterKey plain traced sent
    simp only [uploadTerms, List.forall_mem_cons] at sent ⊢
    exact ⟨⟨sent.1, traced⟩, ⟨sent.2.1, trivial⟩, List.forall_mem_nil _⟩
  revert answered sent
  refine respond_cases (motive := fun event outcome =>
    (∀ term ∈ answers event, Traced locks keyPairs term) → (∀ term ∈ outcome.told, locks term) →
      ∀ term ∈ outcome.told, Traced locks keyPairs term)
    ?_ ?_ ?_ ?_ ?_ ?_ ?_ ?_ ?_ ?_ ?_ ?_ ?_ ?_ ?_ responds
  · rintro username password salt inviteCode masterKey - - sent
    simp only [List.forall_mem_append, List.forall_mem_cons] at sent ⊢
    refine ⟨⟨⟨trivial, trivial, List.forall_mem_nil _⟩, account _ _ _ sent.1.2⟩, ?_⟩
    intro term listed
    obtain ⟨code, -, rfl⟩ := Option.map_eq_some_iff.mp (Option.mem_toList.mp listed)
    trivial
  · rintro username password salt masterKey - - sent
    exact List.forall_mem_cons.mpr
      ⟨trivial, account _ _ _ fun term listed => sent term (List.mem_cons_of_mem _ listed)⟩
  · rintro username password salt params masterKey - - -
    exact List.forall_mem_cons.mpr ⟨trivial, List.forall_mem_singleton.mpr trivial⟩
  · rintro login bundle masterKey session - - - -
    exact List.forall_mem_nil _
  · rintro password bundle masterKey sessions - - - -
    exact List.forall_mem_nil _
  · rintro password label bundle masterKey sessions rfl - - sent
    exact List.forall_mem_cons.mpr ⟨trivial, List.forall_mem_singleton.mpr
      ⟨sent _ (List.mem_cons_of_mem _ List.mem_cons_self), trivial⟩⟩
  · rintro device wrapped bundle key lock masterKey session - - - - -
    exact List.forall_mem_nil _
  · rintro oldPassword newPassword newSalt profile vaults attachments oldMaster newMaster told
      - - resealed answered sent term listed
    rcases resealed term listed with rfl | rfl | rfl | again
    · trivial
    · trivial
    · trivial
    · cases again with
      | privateKey held => exact ⟨sent _ listed, (answered _ held).2⟩
      | derived info _ held => exact ⟨sent _ listed, (answered _ held).2⟩
  · rintro rotation index newMasterKey session - - - -
    exact List.forall_mem_nil _
  · rintro index title tree session classical pq - - - answered sent
    simp only [answers, List.forall_mem_cons] at answered
    simp only [saveTerms, List.forall_mem_cons] at sent ⊢
    obtain ⟨titled, -, -, wrapped, blob, -⟩ := sent
    exact ⟨⟨titled, traced_content answered.1⟩, drawn _ _ _ (by simp), trivial,
      ⟨wrapped, trivial⟩, ⟨blob, traced_content answered.2.1⟩, List.forall_mem_nil _⟩
  · rintro index text session - answered sent
    exact List.forall_mem_singleton.mpr
      ⟨sent _ List.mem_cons_self, traced_content (answered _ List.mem_cons_self)⟩
  · rintro index file session - answered sent
    exact upload _ _ _ (traced_content (answered _ List.mem_cons_self)) sent
  · rintro passphrase salt name title tree shareKey - answered sent
    simp only [answers, List.forall_mem_cons] at answered
    simp only [List.forall_mem_cons] at sent ⊢
    refine ⟨?_, trivial, ⟨sent.2.2.1, traced_sharePayload answered.2 answered.1⟩,
      List.forall_mem_nil _⟩
    cases name with
    | some name => trivial
    | none =>
        cases title with
        | none => trivial
        | some title => exact ⟨traced_content (answered.2 _ List.mem_cons_self), trivial⟩
  · rintro share index ciphertext encryptionMeta shareKey plain - fetched answered sent
    have traced := answered ciphertext List.mem_cons_self
    refine List.forall_mem_singleton.mpr ⟨sent _ List.mem_cons_self, ?_⟩
    cases fetched with
    | opened isLocked => exact (isLocked ▸ traced : Traced locks keyPairs (.locked _ _ plain)).2
    | plain => exact traced
  · rintro index passphrase saltB64 params ciphertext session shareKey lock plain - isLocked
      answered sent
    have traced := answered ciphertext (List.mem_cons_of_mem _ List.mem_cons_self)
    rw [isLocked] at traced
    exact upload _ _ _ traced.2 sent

/-- The public keys of a session were answered or sent, or are those of an earlier session. -/
theorem publicKeys_respond (responds : respond world event = some outcome) :
    ∀ session ∈ outcome.sessions, ∀ key ∈ [session.classicalPubKey, session.pqPubKey],
      key ∈ answers event ∨ key ∈ outcome.told ∨
        ∃ source ∈ world.sessions, key ∈ [source.classicalPubKey, source.pqPubKey] := by
  have opened : ∀ {masterKey : Term} {bundle : AccountKeys Term} {session : Session Term},
      Opens masterKey bundle session → ∀ key ∈ [session.classicalPubKey, session.pqPubKey],
        key ∈ accountTerms bundle := by
    intro masterKey bundle session opens
    rw [opens.classicalPubKey_eq, opens.pqPubKey_eq]
    simp [accountTerms]
  have created : ∀ index masterKey salt,
      ∀ key ∈ [(newSession index masterKey).classicalPubKey, (newSession index masterKey).pqPubKey],
        key ∈ newKeyTerms index masterKey salt := fun _ _ _ =>
    List.forall_mem_cons.mpr
      ⟨.tail _ (.head _), List.forall_mem_singleton.mpr (.tail _ (.tail _ (.head _)))⟩
  refine respond_cases (motive := fun event outcome =>
    ∀ session ∈ outcome.sessions, ∀ key ∈ [session.classicalPubKey, session.pqPubKey],
      key ∈ answers event ∨ key ∈ outcome.told ∨
        ∃ source ∈ world.sessions, key ∈ [source.classicalPubKey, source.pqPubKey])
    ?_ ?_ ?_ ?_ ?_ ?_ ?_ ?_ ?_ ?_ ?_ ?_ ?_ ?_ ?_ responds
  · rintro username password salt inviteCode masterKey -
    exact List.forall_mem_singleton.mpr fun key isKey => .inr (.inl (List.mem_append_left _
      (List.mem_append_right _ (created _ _ salt key isKey))))
  · rintro username password salt masterKey -
    exact List.forall_mem_singleton.mpr fun key isKey => .inr (.inl
      (List.mem_cons_of_mem _ (created _ _ salt key isKey)))
  · rintro username password salt params masterKey -
    exact List.forall_mem_nil _
  · rintro login bundle masterKey session - opens
    exact List.forall_mem_singleton.mpr fun key isKey => .inl (opened opens key isKey)
  · rintro password bundle masterKey sessions - opens session isSession key isKey
    exact .inl (opened (opens session isSession) key isKey)
  · rintro password label bundle masterKey sessions - opens session isSession key isKey
    exact .inl (opened (opens session isSession) key isKey)
  · rintro device wrapped bundle key lock masterKey session - - opens
    exact List.forall_mem_singleton.mpr fun key isKey =>
      .inl (List.mem_cons_of_mem _ (opened opens key isKey))
  · rintro oldPassword newPassword newSalt profile vaults attachments oldMaster newMaster told
      - - -
    exact List.forall_mem_nil _
  · rintro rotation index newMasterKey session - isSession
    exact List.forall_mem_singleton.mpr fun key isKey => .inr (.inr ⟨session, isSession, isKey⟩)
  · rintro index title tree session classical pq - - -
    exact List.forall_mem_nil _
  · rintro index text session -
    exact List.forall_mem_nil _
  · rintro index file session -
    exact List.forall_mem_nil _
  · rintro passphrase salt name title tree shareKey -
    exact List.forall_mem_nil _
  · rintro share index ciphertext encryptionMeta shareKey plain - -
    exact List.forall_mem_nil _
  · rintro index passphrase saltB64 params ciphertext session shareKey lock plain - -
    exact List.forall_mem_nil _

/-- Everything sent has an origin, and the public keys of the sessions can be derived. -/
structure Origins (breaks : Scheme → Prop) (world : World) : Prop where
  sent : ∀ term ∈ world.sent,
    Traced (LockOrigin breaks world.sent) (KeyOrigin breaks world.sent) term
  sessions : ∀ session ∈ world.sessions, ∀ key ∈ [session.classicalPubKey, session.pqPubKey],
    Derives breaks (· ∈ world.sent) key

/-- Whatever can be derived has an origin. -/
theorem Origins.traced (origins : Origins breaks world) {term : Term}
    (derives : Derives breaks (· ∈ world.sent) term) :
    Traced (LockOrigin breaks world.sent) (KeyOrigin breaks world.sent) term :=
  derives.traced origins.sent (fun _ _ _ key => .inr ⟨_, _, _, rfl, key⟩) fun _ _ priv => .inr priv

/-- All that a step sends has an origin. -/
theorem Origins.step (origins : Origins breaks world) (answered : Answerable breaks world event)
    (responds : respond world event = some outcome) : Origins breaks (world.after outcome) := by
  have before : ∀ term ∈ world.sent, term ∈ (world.after outcome).sent :=
    fun _ listed => List.mem_append_left _ listed
  have added : ∀ term ∈ outcome.told, term ∈ (world.after outcome).sent :=
    fun _ listed => List.mem_append_right _ listed
  have later : ∀ {term : Term}, Derives breaks (· ∈ world.sent) term →
      Derives breaks (· ∈ (world.after outcome).sent) term := fun derives => derives.mono before
  have traced : ∀ {term : Term},
      Traced (LockOrigin breaks world.sent) (KeyOrigin breaks world.sent) term →
        Traced (LockOrigin breaks (world.after outcome).sent)
          (KeyOrigin breaks (world.after outcome).sent) term := fun origin =>
    origin.mono (fun term origin => origin.imp (before term)
        fun ⟨key, nonce, plain, same, derives⟩ => ⟨key, nonce, plain, same, later derives⟩)
      fun _ _ origin => origin.imp_right later
  constructor
  · refine List.forall_mem_append.mpr ⟨fun term listed => traced (origins.sent term listed), ?_⟩
    exact traced_respond (fun _ _ isDrawn => .inl isDrawn)
      (fun term listed => traced (origins.traced (answered term listed))) responds
      fun term listed => .inl (added term listed)
  · refine List.forall_mem_append.mpr
      ⟨fun session isSession key isKey => later (origins.sessions session isSession key isKey), ?_⟩
    intro session isSession key isKey
    rcases publicKeys_respond responds session isSession key isKey with
      isAnswer | isTold | ⟨source, isSource, isKey⟩
    · exact later (answered key isAnswer)
    · exact .seen (added key isTold)
    · exact later (origins.sessions source isSource key isKey)

/-- So has all that a run sends. -/
theorem origins_run (answered : EveryStepAllowed step (Answerable breaks) unsent events)
    (run : exec step unsent events = some world) : Origins breaks world := by
  have initially : Origins breaks unsent := ⟨List.forall_mem_nil _, List.forall_mem_nil _⟩
  have preserved : ∀ (world : World) (event : Event) (next : World), Origins breaks world →
      Answerable breaks world event → step world event = some next → Origins breaks next := by
    intro world event next origins allowed taken
    obtain ⟨outcome, responds, rfl⟩ := step_eq_some.mp taken
    exact origins.step allowed responds
  exact (Transition.everyState_of_allowed preserved (fun _ origins => origins) initially
    answered).last run

end Origins

/-! ### What gets out -/

section Leaked

/-- Who has content has each piece that was written. -/
theorem derives_content {seen : Term → Prop} {content : Content}
    (derives : Derives breaks seen content.term) :
    ∀ index ∈ content.written, Derives breaks seen (drawnSecret .content index) := by
  obtain ⟨written, received⟩ := content
  induction written with
  | nil => exact List.forall_mem_nil _
  | cons index written ih =>
      exact List.forall_mem_cons.mpr ⟨derives.first, ih derives.second⟩

/-- A private half that no browser drew can be derived. -/
theorem Origins.derives_priv (origins : Origins breaks world) {scheme : Scheme} {priv : Term}
    (derives : Derives breaks (· ∈ world.sent) (.publicKey scheme priv))
    (notDrawn : ¬IsDrawn (.publicKey scheme priv)) : Derives breaks (· ∈ world.sent) priv :=
  (origins.traced derives).resolve_left notDrawn

/-- The key of a map that was saved for the server can be derived from what the save sent. -/
theorem derives_dek {seen : Term → Prop} {index : Nat} {masterKey title tree classical pq : Term}
    (sent : ∀ term ∈ saveTerms index masterKey title tree classical pq, seen term)
    (classicalKey : Derives breaks seen (.publicKey .agreement classical))
    (ownClassical : breaks .agreement ∨ Derives breaks seen classical)
    (ownPq : breaks .encapsulation ∨ Derives breaks seen pq) :
    Derives breaks seen (drawnSecret .dek index) := by
  simp only [saveTerms, List.forall_mem_cons] at sent
  obtain ⟨-, ephemeral, capsule, wrapped, -, -⟩ := sent
  have agreed : Derives breaks seen (.agreed (drawnSecret .ephemeral index) classical) :=
    ownClassical.elim (fun broken => .agreeBroken broken (.seen ephemeral) classicalKey)
      fun priv => .agreeSecond (.seen ephemeral) priv
  have enclosed : Derives breaks seen (.encapsulated pq (drawnSecret .seed index)) :=
    ownPq.elim (fun broken => .decapsulateBroken broken (.seen capsule))
      fun priv => .decapsulate (.seen capsule) priv
  exact .unlock (.seen wrapped) (.apply _ (.pair agreed enclosed))

/-- What an event leaks can be derived after it. -/
theorem derives_of_leaks (origins : Origins breaks world) {name : Name}
    (leaks : Leaks breaks world event name) (responds : respond world event = some outcome) :
    Derives breaks (· ∈ (world.after outcome).sent) (.secret name) := by
  have told : ∀ term ∈ outcome.told, term ∈ (world.after outcome).sent :=
    fun _ listed => List.mem_append_right _ listed
  have later : ∀ {term : Term}, Derives breaks (· ∈ world.sent) term →
      Derives breaks (· ∈ (world.after outcome).sent) term :=
    fun derives => derives.mono fun _ listed => List.mem_append_left _ listed
  cases event with
  | save index title tree =>
      obtain ⟨session, isSession, responds⟩ := Option.bind_eq_some_iff.mp responds
      obtain ⟨saved, done, responds⟩ := Option.bind_eq_some_iff.mp responds
      obtain rfl := Option.some.inj responds
      obtain ⟨classical, pq, isClassical, isPq, terms⟩ := handleSave_eq_some done
      obtain ⟨⟨keys, isKeys, toServer⟩, isName⟩ := leaks
      obtain rfl := Option.some.inj (isSession.symm.trans isKeys)
      have known := origins.sessions session (List.mem_of_getElem? isSession)
      rw [isClassical, isPq] at known
      rw [SealsForServer, isClassical, isPq] at toServer
      have classicalKey := known _ List.mem_cons_self
      have pqKey := known _ (List.mem_cons_of_mem _ List.mem_cons_self)
      have isSent : ∀ term ∈ saveTerms world.drawn session.masterKey title.term tree.term classical
          pq, term ∈ (world.after { told := savedTerms saved }).sent :=
        fun term listed => told term (terms.symm ▸ listed)
      have dek := derives_dek isSent (later classicalKey)
        (toServer.1.imp_right fun notDrawn => later (origins.derives_priv classicalKey notDrawn))
        (toServer.2.imp_right fun notDrawn => later (origins.derives_priv pqKey notDrawn))
      rcases isName with rfl | ⟨isContent, isPiece⟩
      · exact dek
      · have blob := isSent _ (.tail _ (.tail _ (.tail _ (.tail _ (.head _)))))
        obtain ⟨kind, piece⟩ := name
        obtain rfl : kind = .content := isContent
        exact derives_content (.unlock (.seen blob) dek) piece isPiece
  | share passphrase salt share title tree =>
      obtain rfl := Option.some.inj responds
      cases share with
      | some share => exact leaks.elim
      | none =>
          cases title with
          | none => exact leaks.elim
          | some title =>
              obtain ⟨isContent, isPiece⟩ := leaks
              have named : Derives breaks _ (.pair title.term (.text ".mmvshare")) :=
                .seen (told _ List.mem_cons_self)
              obtain ⟨kind, piece⟩ := name
              obtain rfl : kind = .content := isContent
              exact derives_content named.first piece isPiece
  | register | enrol | login | loggedIn | unlock | unlockWithDevice | rotate | rotated | retitle
  | attach | shareAttachment | importAttachment => exact leaks.elim

/-- What was sent stays sent. -/
theorem sent_subset {start : World} (run : exec step start events = some world) :
    ∀ term ∈ start.sent, term ∈ world.sent := by
  induction events generalizing start with
  | nil => exact Option.some.inj run ▸ fun _ listed => listed
  | cons event events ih =>
      obtain ⟨next, taken, run⟩ := Option.bind_eq_some_iff.mp run
      obtain ⟨outcome, -, rfl⟩ := step_eq_some.mp taken
      exact fun term listed => ih run term (List.mem_append_left _ listed)

/-- What one event of a run leaks can be derived at its end. -/
theorem derives_of_takes {start before : World} {name : Name} (origins : Origins breaks start)
    (answered : EveryStepAllowed step (Answerable breaks) start events)
    (run : exec step start events = some world) (takes : Takes step start events before event)
    (leaks : Leaks breaks before event name) : Derives breaks (· ∈ world.sent) (.secret name) := by
  induction events generalizing start with
  | nil =>
      obtain ⟨index, isEvent, -⟩ := takes
      cases isEvent
  | cons first events ih =>
      obtain ⟨next, taken, run⟩ := Option.bind_eq_some_iff.mp run
      obtain ⟨permitted, answered⟩ := (Transition.everyStep_cons taken).mp answered
      obtain ⟨outcome, responds, rfl⟩ := step_eq_some.mp taken
      rcases (Transition.takes_cons taken).mp takes with ⟨rfl, rfl⟩ | takes
      · exact (derives_of_leaks origins leaks responds).mono (sent_subset run)
      · exact ih (origins.step permitted responds) answered run takes

end Leaked

/-! ### The results -/

section Results

variable (answered : EveryStepAllowed step (Answerable breaks) unsent events)
  (run : exec step unsent events = some world)

include answered run

/-- In every run with a server that answers what it likes, exactly what the run has leaked can be
derived from what was sent. -/
theorem derives_secret_iff (name : Name) :
    Derives breaks (· ∈ world.sent) (.secret name) ↔ LeaksIn breaks events name := by
  constructor
  · exact fun derives => open_of_derives answered run derives
  · rintro ⟨before, event, takes, leaks⟩
    exact derives_of_takes ⟨List.forall_mem_nil _, List.forall_mem_nil _⟩ answered run takes leaks

/-- Whatever the server answers, the keys of a session are of a typed password and of private
halves that a browser drew, and none of them can be derived. -/
theorem sessions_kept {session : Session Term} (isSession : session ∈ world.sessions) :
    KeptSession session ∧ ∀ key ∈ [session.masterKey, session.classicalPrivKey, session.pqPrivKey],
      ¬Derives breaks (· ∈ world.sent) key := by
  have kept := (kept_run answered run).sessions session isSession
  have stays : ∀ {key : Term}, IsPrivateKey key → ¬Derives breaks (· ∈ world.sent) key := by
    rintro key ⟨kind, index, isKind, rfl⟩ derives
    have isOpen := open_of_derives answered run derives
    refine absurd isOpen (not_open_drawn leaksIn_contained index ?_)
    rcases isKind with rfl | rfl <;> decide
  refine ⟨kept, List.forall_mem_cons.mpr ⟨fun derives => ?_, List.forall_mem_cons.mpr
    ⟨stays kept.classical, List.forall_mem_singleton.mpr (stays kept.pq)⟩⟩⟩
  exact not_open_masterKey leaksIn_contained kept.masterKey (open_of_derives answered run derives)

/-- The keys that a session opens answers with. -/
def openingKeys (session : Session Term) : List Term :=
  [session.masterKey, symbols.deriveTitleKey session.masterKey,
    symbols.deriveAttachmentWrapKey session.masterKey]

/-- Whatever opens under a key of a session is a message that a browser has sent, as it is. -/
theorem opened_was_sent {session : Session Term} (isSession : session ∈ world.sessions)
    {key text plain : Term} (isKey : key ∈ openingKeys session)
    (answer : Derives breaks (· ∈ world.sent) text)
    (opens : symbols.openText key text = some plain) : text ∈ world.sent := by
  have isMaster := ((kept_run answered run).sessions session isSession).masterKey
  obtain ⟨nonce, rfl⟩ := openText_eq_some.mp opens
  have stays : ¬Derives breaks (· ∈ world.sent) key := by
    intro derives
    have isOpen := open_of_derives answered run derives
    simp only [openingKeys, List.mem_cons, List.not_mem_nil, or_false] at isKey
    rcases isKey with rfl | rfl | rfl
    · exact not_open_masterKey leaksIn_contained isMaster isOpen
    · exact not_open_derivedKey leaksIn_contained (by decide) isMaster isOpen
    · exact not_open_derivedKey leaksIn_contained (by decide) isMaster isOpen
  rcases ((origins_run answered run).traced answer).1 with isSent | ⟨_, _, _, same, derives⟩
  · exact isSent
  · obtain ⟨rfl, -, -⟩ := Symbolic.Term.locked.inj same
    exact absurd derives stays

end Results

/-! ### A server that hands out keys of its own -/

/-- The bundle of the account of the first registration, but for the public keys. -/
def swappedBundle : AccountKeys Term where
  argon2Salt := .text "salt"
  argon2Params := argon2Defaults
  classicalPublicKey := .publicKey .agreement (.text "server")
  pqPublicKey := .publicKey .encapsulation (.text "server")
  classicalPrivEncrypted :=
    .locked (masterKeyOf 0 (.text "salt") argon2Defaults) 0 (drawnSecret .classical 0)
  pqPrivEncrypted := .locked (masterKeyOf 0 (.text "salt") argon2Defaults) 0 (drawnSecret .pq 0)

/-- A user registers, unlocks with that bundle after a reload, and saves a map. -/
def swappedEvents : List Event :=
  [.register "user" 0 "salt" none, .unlock 0 none swappedBundle,
    .save 1 ⟨[1], .text ""⟩ ⟨[2], .text ""⟩]

/-- The world after it. -/
def swappedWorld : World := (exec step unsent swappedEvents).getD unsent

theorem run_swapped : exec step unsent swappedEvents = some swappedWorld := rfl

theorem answered_swapped :
    EveryStepAllowed step (Answerable fun _ => False) unsent swappedEvents := by
  have first : step unsent (.register "user" 0 "salt" none) = some _ := rfl
  refine (Transition.everyStep_cons first).mpr ⟨List.forall_mem_nil _, ?_⟩
  refine (Transition.everyStep_cons rfl).mpr ⟨?_, ?_⟩
  · simp only [Answerable, answers, accountTerms, List.forall_mem_cons]
    exact ⟨.text _, .publish _ (.text _), .publish _ (.text _), .seen (by decide),
      .seen (by decide), List.forall_mem_nil _⟩
  · refine (Transition.everyStep_cons rfl).mpr ⟨?_, trivial⟩
    simp only [Answerable, answers, List.forall_mem_cons]
    exact ⟨.text _, .text _, List.forall_mem_nil _⟩

/-- The map is read by the server. -/
theorem derives_secret_iff_swapped :
    Derives (fun _ => False) (· ∈ swappedWorld.sent) (drawnSecret .content 2) := by
  refine (derives_secret_iff answered_swapped run_swapped ⟨.content, 2⟩).mpr
    ⟨_, _, ⟨2, rfl, rfl⟩, ⟨_, rfl, ?_, ?_⟩, .inr ⟨rfl, List.mem_cons_self⟩⟩
  · right
    rintro ⟨scheme, kind, index, -, same⟩
    cases same
  · right
    rintro ⟨scheme, kind, index, -, same⟩
    cases same

/-- The session that was opened with that bundle. -/
def swappedSession : Session Term where
  masterKey := masterKeyOf 0 (.text "salt") argon2Defaults
  classicalPrivKey := drawnSecret .classical 0
  classicalPubKey := .publicKey .agreement (.text "server")
  pqPrivKey := drawnSecret .pq 0
  pqPubKey := .publicKey .encapsulation (.text "server")

theorem mem_swapped : swappedSession ∈ swappedWorld.sessions := by decide

theorem sessions_kept_swapped :
    ¬Derives (fun _ => False) (· ∈ swappedWorld.sent) swappedSession.masterKey :=
  (sessions_kept answered_swapped run_swapped mem_swapped).2 _ List.mem_cons_self

theorem opened_was_sent_swapped :
    Symbolic.Term.locked (masterKeyOf 0 (.text "salt") argon2Defaults) 0 (drawnSecret .pq 0) ∈
      swappedWorld.sent :=
  opened_was_sent answered_swapped run_swapped mem_swapped List.mem_cons_self
    (.seen (by decide)) (openText_eq_some.mpr ⟨0, rfl⟩)

end Secrecy
end MindMapVault
