import MindMapVault.Crypto.SameReads
import MindMapVault.Desktop.Recovery

/-!
# What a local password rotation leaves under the old key

A title and a note are the only fields of an index entry that are sealed with a key of
the password. The rotation writes the entries its bundle names and leaves the others as
they are, under the key of a password that is gone. Nothing compares the bundle with the
index, and of several entries with one id only the first is reached.
-/

namespace MindMapVault
namespace Desktop

open Accounts (ManifestVault RotateVaultEntry)
open Crypto

section Keys

variable (prims : Primitives) (oldKey newKey : Key256)

/-- A text opens with the title key of a master key. -/
def OpensUnder (key : Key256) (text : String) : Prop :=
  (decryptTitle prims key text).toOption.isSome = true

instance (key : Key256) (text : String) : Decidable (OpensUnder prims key text) :=
  inferInstanceAs (Decidable (_ = true))

/-- A note is stored, and opens with the title key of a master key. -/
def NoteOpensUnder (key : Key256) (note : Option String) : Prop :=
  ∃ text ∈ note.filter (· ≠ ""), OpensUnder prims key text

/-- An entry has left the old key, and reads under the new one as it did before. -/
structure MovedVault (vault after : LocalVaultMeta) : Prop where
  titleLeft : ¬ OpensUnder prims oldKey after.titleEncrypted
  noteLeft : ¬ NoteOpensUnder prims oldKey after.vaultNoteEncrypted
  titleReads : ∀ title,
    decryptTitle prims oldKey vault.titleEncrypted = .ok title →
      decryptTitle prims newKey after.titleEncrypted = .ok title
  noteReads : ∀ note,
    decryptNote prims oldKey vault.vaultNoteEncrypted = .ok note →
      decryptNote prims newKey after.vaultNoteEncrypted = .ok note

/-- Every entry of the index has moved to the new key. -/
def EveryVaultMoved (index : VaultIndex) (file : File VaultIndex) : Prop :=
  ∃ after, file = .holds after ∧
    List.Forall₂ (MovedVault prims oldKey newKey) index.vaults after.vaults

/-- A title is carried over: the bundle seals the same text under the new key, or there
is nothing to carry. -/
def CarriesTitle (vault : LocalVaultMeta) : Option String → Prop
  | some sealed =>
      ¬ OpensUnder prims oldKey sealed ∧
        ∀ title, decryptTitle prims oldKey vault.titleEncrypted = .ok title →
          decryptTitle prims newKey sealed = .ok title
  | none => ¬ OpensUnder prims oldKey vault.titleEncrypted

/-- A note is carried over: the bundle seals the same text under the new key, or clears a
note that reads as no text, or there is nothing to carry. -/
def CarriesNote (vault : LocalVaultMeta) : Option String → Prop
  | some sealed =>
      ¬ NoteOpensUnder prims oldKey (some sealed) ∧
        ∀ note, decryptNote prims oldKey vault.vaultNoteEncrypted = .ok note →
          decryptNote prims newKey (some sealed) = .ok note
  | none => ¬ NoteOpensUnder prims oldKey vault.vaultNoteEncrypted

/-- The last title and the last note that these entries of a bundle bring. -/
def Carries (vault : LocalVaultMeta) (entries : List RotatedVaultEntry) : Prop :=
  CarriesTitle prims oldKey newKey vault
      (entries.getLast?.map RotatedVaultEntry.titleEncrypted) ∧
    CarriesNote prims oldKey newKey vault
      (entries.filterMap RotatedVaultEntry.vaultNoteEncrypted).getLast?

/-- The entries of a bundle that reach an entry of the index: those with its id, unless
another entry of the index has it before. -/
def entriesFor (updatedVaults : List RotatedVaultEntry) (seen : List String) (id : String) :
    List RotatedVaultEntry :=
  if id ∈ seen then [] else updatedVaults.filter fun entry => entry.id = id

/-- The bundle carries every vault over, where `seen` are the ids that come before. -/
def CarriesAll (updatedVaults : List RotatedVaultEntry) :
    List String → List LocalVaultMeta → Prop
  | _, [] => True
  | seen, vault :: rest =>
      Carries prims oldKey newKey vault (entriesFor updatedVaults seen vault.id) ∧
        CarriesAll updatedVaults (vault.id :: seen) rest

end Keys

section Reached

/-- What the entries of a bundle make of the index, each vault taken on its own. -/
def carryOver (updatedVaults : List RotatedVaultEntry) :
    List String → List LocalVaultMeta → List LocalVaultMeta
  | _, [] => []
  | seen, vault :: rest =>
      (entriesFor updatedVaults seen vault.id).foldl (fun vault entry =>
          rotateEntry entry vault) vault ::
        carryOver updatedVaults (vault.id :: seen) rest

@[simp] theorem carryOver_nil (seen : List String) (vaults : List LocalVaultMeta) :
    carryOver [] seen vaults = vaults := by
  induction vaults generalizing seen with
  | nil => rfl
  | cons vault rest ih =>
      simp [carryOver, entriesFor, ih]

@[simp] theorem rotateEntry_id (entry : RotatedVaultEntry) (vault : LocalVaultMeta) :
    (rotateEntry entry vault).id = vault.id := rfl

/-- An entry whose id comes before reaches nothing. -/
theorem carryOver_cons_of_seen (entry : RotatedVaultEntry) (updatedVaults : List RotatedVaultEntry)
    {seen : List String} (comesBefore : entry.id ∈ seen) (vaults : List LocalVaultMeta) :
    carryOver (entry :: updatedVaults) seen vaults = carryOver updatedVaults seen vaults := by
  induction vaults generalizing seen with
  | nil => rfl
  | cons vault rest ih =>
      have others : entriesFor (entry :: updatedVaults) seen vault.id =
          entriesFor updatedVaults seen vault.id := by
        unfold entriesFor
        split_ifs with known
        · rfl
        · have differs : entry.id ≠ vault.id := fun same => known (same ▸ comesBefore)
          simp [differs]
      rw [carryOver, carryOver, others, ih (List.mem_cons_of_mem _ comesBefore)]

/-- The first entry of a bundle is taken at once, by the first vault with its id. -/
theorem carryOver_cons (entry : RotatedVaultEntry) (updatedVaults : List RotatedVaultEntry)
    {seen : List String} (fresh : entry.id ∉ seen) (vaults : List LocalVaultMeta) :
    carryOver (entry :: updatedVaults) seen vaults =
      carryOver updatedVaults seen (rotateVault entry vaults) := by
  induction vaults generalizing seen with
  | nil => rfl
  | cons vault rest ih =>
      rw [rotateVault]
      split_ifs with same
      · have reached : entriesFor (entry :: updatedVaults) seen vault.id =
            entry :: entriesFor updatedVaults seen vault.id := by
          simp [entriesFor, same, fresh]
        rw [carryOver, carryOver, reached, rotateEntry_id, List.foldl_cons,
          carryOver_cons_of_seen entry updatedVaults (same ▸ List.mem_cons_self)]
      · have others : entriesFor (entry :: updatedVaults) seen vault.id =
            entriesFor updatedVaults seen vault.id := by
          simp [entriesFor, Ne.symm same]
        have stillFresh : entry.id ∉ vault.id :: seen := by
          simp [fresh, Ne.symm same]
        rw [carryOver, carryOver, others, ih stillFresh]

/-- The rotation takes the entries of a bundle one after the other; the vaults can be
looked at one by one. -/
theorem rotateIndex_vaults (index : VaultIndex) (updatedVaults : List RotatedVaultEntry) :
    (rotateIndex index updatedVaults).vaults = carryOver updatedVaults [] index.vaults := by
  have everyIndex : ∀ vaults : List LocalVaultMeta,
      updatedVaults.foldl (fun vaults entry => rotateVault entry vaults) vaults =
        carryOver updatedVaults [] vaults := by
    induction updatedVaults with
    | nil => simp
    | cons entry updatedVaults ih =>
        intro vaults
        rw [List.foldl_cons, ih, carryOver_cons entry updatedVaults List.not_mem_nil]
  exact everyIndex index.vaults

end Reached

section Moved

variable {prims : Primitives} {oldKey newKey : Key256}
variable {vault after : LocalVaultMeta} {entries : List RotatedVaultEntry}

/-- The title is the last one the entries bring. -/
theorem titleEncrypted_rotated (vault : LocalVaultMeta) (entries : List RotatedVaultEntry) :
    (entries.foldl (fun vault entry => rotateEntry entry vault) vault).titleEncrypted =
      (entries.getLast?.map RotatedVaultEntry.titleEncrypted).getD vault.titleEncrypted := by
  induction entries using List.reverseRecOn with
  | nil => rfl
  | append_singleton entries entry _ =>
      rw [List.foldl_append, List.getLast?_concat]
      rfl

/-- The note is the last one the entries bring, and an empty one clears it. -/
theorem vaultNoteEncrypted_rotated (vault : LocalVaultMeta) (entries : List RotatedVaultEntry) :
    (entries.foldl (fun vault entry => rotateEntry entry vault) vault).vaultNoteEncrypted =
      match (entries.filterMap RotatedVaultEntry.vaultNoteEncrypted).getLast? with
      | none => vault.vaultNoteEncrypted
      | some note => if note = "" then none else some note := by
  induction entries using List.reverseRecOn with
  | nil => rfl
  | append_singleton entries entry ih =>
      rw [List.foldl_append, List.filterMap_append]
      cases brought : entry.vaultNoteEncrypted with
      | none => simpa [rotateEntry, brought] using ih
      | some note => simp [rotateEntry, brought]

/-- A note that does not open under the old key reads the same under any. -/
theorem decryptNote_of_not_opens {note : Option String} {text : String}
    (shut : ¬ NoteOpensUnder prims oldKey note)
    (read : decryptNote prims oldKey note = .ok text) (key : Key256) :
    decryptNote prims key note = .ok text := by
  unfold decryptNote at read ⊢
  cases stored : note.filter (· ≠ "") with
  | none =>
      rw [stored] at read
      exact read
  | some sealed =>
      simp only [stored] at read
      refine absurd ⟨sealed, stored, ?_⟩ shut
      rw [OpensUnder, read]
      rfl

/-- An empty note is no note. -/
theorem filter_cleared (note : String) :
    (if note = "" then none else some note : Option String).filter (· ≠ "") =
      (some note).filter (· ≠ "") := by
  split_ifs with empty
  · rw [empty]
    rfl
  · rfl

/-- A vault has moved exactly if the entries that reach it carry it over. -/
theorem movedVault_rotated_iff (vault : LocalVaultMeta) (entries : List RotatedVaultEntry) :
    MovedVault prims oldKey newKey vault
        (entries.foldl (fun vault entry => rotateEntry entry vault) vault) ↔
      Carries prims oldKey newKey vault entries := by
  have byParts : MovedVault prims oldKey newKey vault
      (entries.foldl (fun vault entry => rotateEntry entry vault) vault) ↔ _ :=
    ⟨fun moved => And.intro (And.intro moved.titleLeft moved.titleReads)
        (And.intro moved.noteLeft moved.noteReads),
      fun parts => ⟨parts.1.1, parts.2.1, parts.1.2, parts.2.2⟩⟩
  rw [byParts, titleEncrypted_rotated, vaultNoteEncrypted_rotated]
  refine and_congr ?_ ?_
  · cases entries.getLast?.map RotatedVaultEntry.titleEncrypted with
    | some title => rfl
    | none =>
        refine ⟨And.left, fun shut => ⟨shut, fun title read => absurd ?_ shut⟩⟩
        rw [OpensUnder, read]
        rfl
  · cases (entries.filterMap RotatedVaultEntry.vaultNoteEncrypted).getLast? with
    | none =>
        refine ⟨And.left, fun shut => ⟨shut, fun note read => ?_⟩⟩
        exact decryptNote_of_not_opens shut read newKey
    | some note =>
        simp only [NoteOpensUnder, decryptNote, filter_cleared, CarriesNote]

/-- The vaults of an index have all moved exactly if the bundle carries all of them over.
-/
theorem forall₂_carryOver_iff (updatedVaults : List RotatedVaultEntry) (seen : List String)
    (vaults : List LocalVaultMeta) :
    List.Forall₂ (MovedVault prims oldKey newKey) vaults
        (carryOver updatedVaults seen vaults) ↔
      CarriesAll prims oldKey newKey updatedVaults seen vaults := by
  induction vaults generalizing seen with
  | nil => simp [carryOver, CarriesAll]
  | cons vault rest ih =>
      rw [carryOver, List.forall₂_cons, ih, movedVault_rotated_iff, CarriesAll]

/-- The stamps of a write are not among what is sealed. -/
theorem forall₂_stamped_iff
    (mac : String → String) (vaults : List LocalVaultMeta) (index : VaultIndex) :
    List.Forall₂ (MovedVault prims oldKey newKey) vaults
        (stampIndexForWrite mac index).vaults ↔
      List.Forall₂ (MovedVault prims oldKey newKey) vaults index.vaults := by
  rw [stampIndexForWrite, List.forall₂_map_right_iff]
  have unstamped : ∀ vault after : LocalVaultMeta,
      MovedVault prims oldKey newKey vault
          { after with
            vaultColor := none
            entryMac := some (computeEntryMac mac after) } ↔
        MovedVault prims oldKey newKey vault after :=
    fun vault after =>
      ⟨fun moved => ⟨moved.titleLeft, moved.noteLeft, moved.titleReads, moved.noteReads⟩,
        fun moved => ⟨moved.titleLeft, moved.noteLeft, moved.titleReads, moved.noteReads⟩⟩
  simp only [unstamped]

end Moved

/-- After a rotation that goes through, every vault of the index is under the new key and
reads as before exactly if the bundle carries every one of them over. -/
theorem rotation_everyVaultMoved_iff (prims : Primitives) (oldKey newKey : Key256)
    {mac : String → String} {active : String} {files : LocalFiles}
    {newProfile : LocalProfile} {updatedVaults : List RotatedVaultEntry}
    {index : VaultIndex} {ops : List FileOp} (listed : readIndex files.index = .ok index)
    (accepted : rotationOps mac active files newProfile updatedVaults = .ok ops) :
    EveryVaultMoved prims oldKey newKey index (performAll files ops).index ↔
      CarriesAll prims oldKey newKey updatedVaults [] index.vaults := by
  obtain ⟨known, sameIndex, rfl⟩ := rotationOps_shape accepted
  rw [listed] at sameIndex
  cases sameIndex
  rw [performAll_rotation]
  have written : EveryVaultMoved prims oldKey newKey index
        (.holds (stampIndexForWrite mac (rotateIndex index updatedVaults))) ↔
      List.Forall₂ (MovedVault prims oldKey newKey) index.vaults
        (stampIndexForWrite mac (rotateIndex index updatedVaults)).vaults := by
    constructor
    · rintro ⟨after, same, moved⟩
      cases same
      exact moved
    · exact fun moved => ⟨_, rfl, moved⟩
  rw [written, forall₂_stamped_iff, rotateIndex_vaults, forall₂_carryOver_iff]

section Built

variable {prims : Primitives} {random : Randomness} {oldKey newKey : Key256}

/-- A vault as the page hands it to the bundle builder. -/
def LocalVaultMeta.forRotation (vault : LocalVaultMeta) : ManifestVault where
  id := vault.id
  titleEncrypted := vault.titleEncrypted
  vaultNoteEncrypted := vault.vaultNoteEncrypted

/-- An entry of a bundle as the command takes it. -/
def RotatedVaultEntry.ofBundle (entry : RotateVaultEntry) : RotatedVaultEntry where
  id := entry.id
  titleEncrypted := entry.titleEncrypted
  vaultNoteEncrypted := entry.vaultNoteEncrypted

/-- What is sealed under the new key does not open under the old one. -/
def KeysApart (prims : Primitives) (oldKey newKey : Key256) : Prop :=
  ∀ nonce plaintext, ¬ OpensUnder prims oldKey
    (sealText prims (deriveTitleKey prims newKey) nonce plaintext)

/-- The entry that the client makes of a vault carries it over. -/
theorem carries_of_reencrypted (ideal : prims.Ideal) (apart : KeysApart prims oldKey newKey)
    {vault : LocalVaultMeta} {entry : RotateVaultEntry}
    (done : reencryptVault prims random oldKey newKey vault.forRotation = .ok entry) :
    Carries prims oldKey newKey vault [RotatedVaultEntry.ofBundle entry] := by
  obtain ⟨-, ⟨plaintext, opened, retitled⟩, renoted⟩ := reencryptVault_eq_ok done
  refine ⟨⟨?_, ?_⟩, ?_⟩
  · rw [RotatedVaultEntry.ofBundle, retitled]
    exact apart _ _
  · intro title read
    rw [RotatedVaultEntry.ofBundle, retitled]
    exact decryptTitle_sealText ideal opened read _
  · rcases reencryptNote_eq_ok renoted with
      ⟨absent, noted⟩ | ⟨rawNote, text, stored, opened, noted⟩
    · have shut : ¬ NoteOpensUnder prims oldKey vault.vaultNoteEncrypted := by
        rintro ⟨note, present, -⟩
        rw [show vault.vaultNoteEncrypted.filter (· ≠ "") = none from absent] at present
        cases present
      rw [RotatedVaultEntry.ofBundle, noted]
      exact shut
    · have sealed : (some (sealText prims (deriveTitleKey prims newKey)
            (random.noteNonce vault.forRotation.id) text)).filter (· ≠ "") =
          some (sealText prims (deriveTitleKey prims newKey)
            (random.noteNonce vault.forRotation.id) text) := by
        simp [sealText_ne_empty]
      have carried : CarriesNote prims oldKey newKey vault
          (some (sealText prims (deriveTitleKey prims newKey)
            (random.noteNonce vault.forRotation.id) text)) := by
        refine ⟨?_, fun note read => ?_⟩
        · rintro ⟨note, present, opens⟩
          rw [sealed] at present
          cases present
          exact apart _ _ opens
        · rw [decryptNote, show vault.vaultNoteEncrypted.filter (· ≠ "") = some rawNote
            from stored] at read
          rw [decryptNote, sealed]
          exact decryptTitle_sealText ideal opened read _
      rw [RotatedVaultEntry.ofBundle, noted]
      exact carried

/-- The only entry with an id. -/
theorem filter_id_eq_singleton {updatedVaults : List RotatedVaultEntry} {entry : RotatedVaultEntry}
    (distinct : (updatedVaults.map RotatedVaultEntry.id).Nodup) (present : entry ∈ updatedVaults) :
    (updatedVaults.filter fun other => other.id = entry.id) = [entry] := by
  induction updatedVaults with
  | nil => cases present
  | cons first rest ih =>
      obtain ⟨unique, others⟩ := List.nodup_cons.mp distinct
      rcases List.mem_cons.mp present with rfl | later
      · have none_left : (rest.filter fun other => other.id = entry.id) = [] := by
          rw [List.filter_eq_nil_iff]
          intro other listed
          rw [decide_eq_true_eq]
          exact fun same => unique (same ▸ List.mem_map_of_mem listed)
        simp [none_left]
      · have differs : first.id ≠ entry.id :=
          fun same => unique (same ▸ List.mem_map_of_mem later)
        simpa [differs] using ih others later

/-- Every vault is carried over if each has an entry of its own that does. -/
theorem carriesAll_of_entries {updatedVaults : List RotatedVaultEntry}
    (distinct : (updatedVaults.map RotatedVaultEntry.id).Nodup)
    {seen : List String} {vaults : List LocalVaultMeta}
    (apart : (vaults.map LocalVaultMeta.id).Nodup) (unseen : ∀ vault ∈ vaults, vault.id ∉ seen)
    (carried : ∀ vault ∈ vaults, ∃ entry ∈ updatedVaults, entry.id = vault.id ∧
      Carries prims oldKey newKey vault [entry]) :
    CarriesAll prims oldKey newKey updatedVaults seen vaults := by
  induction vaults generalizing seen with
  | nil => trivial
  | cons vault rest ih =>
      obtain ⟨fresh, others⟩ := List.nodup_cons.mp apart
      obtain ⟨entry, present, same, carries⟩ := carried vault List.mem_cons_self
      refine ⟨?_, ih others ?_ fun other later =>
        carried other (List.mem_cons_of_mem _ later)⟩
      · rw [entriesFor, if_neg (unseen vault List.mem_cons_self), ← same,
          filter_id_eq_singleton distinct present]
        exact carries
      · intro other later
        rw [List.mem_cons]
        rintro (same | listed)
        · exact fresh (same ▸ List.mem_map_of_mem later)
        · exact unseen other (List.mem_cons_of_mem _ later) listed

/-- A bundle that the client builds for the very vaults of the index carries all of them
over, where their ids are distinct. -/
theorem built_carriesAll (ideal : prims.Ideal) (apart : KeysApart prims oldKey newKey)
    {index : VaultIndex} (distinct : (index.vaults.map LocalVaultMeta.id).Nodup)
    {updatedVaults : List RotateVaultEntry}
    (built : (index.vaults.map LocalVaultMeta.forRotation).mapM
      (reencryptVault prims random oldKey newKey) = .ok updatedVaults) :
    CarriesAll prims oldKey newKey
      (updatedVaults.map RotatedVaultEntry.ofBundle) [] index.vaults := by
  have paired := Result.mapM_mem built
  have sameIds : updatedVaults.map RotateVaultEntry.id =
      index.vaults.map LocalVaultMeta.id := by
    have kept : ∀ (vault : ManifestVault) entry,
        reencryptVault prims random oldKey newKey vault = .ok entry →
          entry.id = vault.id := fun _ _ done => (reencryptVault_eq_ok done).1
    rw [Result.mapM_map_key kept built, List.map_map]
    rfl
  refine carriesAll_of_entries ?_ distinct (by simp) fun vault present => ?_
  · rw [List.map_map]
    exact sameIds ▸ distinct
  · obtain ⟨entry, listed, done⟩ := paired.1 _ (List.mem_map_of_mem present)
    exact ⟨.ofBundle entry, List.mem_map_of_mem listed, (reencryptVault_eq_ok done).1,
      carries_of_reencrypted ideal apart done⟩

end Built

section Samples

/-- The master key of the password `new`. -/
def laterKey : Key256 := fillKey (textBytes "new" ++ [1, 2])

/-- A title sealed with the title key of a master key. -/
def sealedTitle (key : Key256) : String :=
  sealText keyedPrimitives (deriveTitleKey keyedPrimitives key) exampleNonce [5]

/-- An index of one vault under the old key, with nothing staged. -/
def titledFiles : LocalFiles where
  profile := .holds (sampleProfile "old")
  index := .holds (sampleIndex (sealedTitle exampleKey))
  profileNew := .absent
  indexNew := .absent

/-- What a rotation with this bundle does to them. -/
def titledOps (updatedVaults : List RotatedVaultEntry) : List FileOp :=
  ((rotationOps id "ada" titledFiles (sampleProfile "new") updatedVaults).toOption).getD []

/-- A bundle that names the only vault. -/
theorem rotation_everyVaultMoved_iff_retitled :
    EveryVaultMoved keyedPrimitives exampleKey laterKey
      (sampleIndex (sealedTitle exampleKey))
      (performAll titledFiles (titledOps [⟨"v", sealedTitle laterKey, none⟩])).index := by
  have accepted : rotationOps id "ada" titledFiles (sampleProfile "new")
      [⟨"v", sealedTitle laterKey, none⟩] =
        .ok (titledOps [⟨"v", sealedTitle laterKey, none⟩]) := rfl
  refine (rotation_everyVaultMoved_iff keyedPrimitives exampleKey laterKey rfl
    accepted).mpr ⟨⟨⟨?_, ?_⟩, ?_⟩, trivial⟩
  · decide +kernel
  · have same : decryptTitle keyedPrimitives exampleKey (sealedTitle exampleKey) =
        decryptTitle keyedPrimitives laterKey (sealedTitle laterKey) := by
      decide +kernel
    exact fun title read => same ▸ read
  · rintro ⟨note, stored, -⟩
    cases stored

/-- A vault the bundle does not name keeps its title under the old key. -/
theorem unnamed_vault_keeps_old_title :
    ¬ ∀ (prims : Primitives) (oldKey newKey : Key256) (mac : String → String)
        (active : String) (files : LocalFiles) (newProfile : LocalProfile)
        (updatedVaults : List RotatedVaultEntry) (index : VaultIndex)
        (ops : List FileOp),
      prims.Ideal →
      readIndex files.index = .ok index →
      rotationOps mac active files newProfile updatedVaults = .ok ops →
        EveryVaultMoved prims oldKey newKey index (performAll files ops).index := by
  intro always
  obtain ⟨after, written, moved⟩ := always keyedPrimitives exampleKey laterKey id "ada"
    titledFiles (sampleProfile "new") [] (sampleIndex (sealedTitle exampleKey))
    (titledOps []) keyedPrimitives_ideal rfl rfl
  cases written
  cases moved with
  | cons first _ =>
      have opens : OpensUnder keyedPrimitives exampleKey (sealedTitle exampleKey) := by
        decide +kernel
      exact first.titleLeft opens

end Samples

end Desktop
end MindMapVault
