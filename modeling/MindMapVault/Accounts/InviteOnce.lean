import MindMapVault.Accounts.Invites

/-!
# An invite lets one account in

Every invite that a registration holds or an account came in by is counted, and
counted once; its row, while there is one, is marked as used. The count is kept by
every operation but an account whose insertion was not answered. An invite taken
in vain is claimable again unless the registration ends before its release: where
the lookup of the name fails, the answer to the claim is lost or the release is
refused.
-/

namespace MindMapVault
namespace Accounts

open Remote Threads Transition

/-- The invite was revoked, or its time is over. -/
def Registry.OutOfUse (registry : Registry) (id : String) : Prop :=
  ∀ invite ∈ registry.invites.rows, invite.id = id → invite.isExpired registry.clock = true

/-- The invite can be claimed, unless it was revoked or its time is over. -/
def Registry.GivenBack (registry : Registry) (id : String) : Prop :=
  ∀ invite ∈ registry.invites.rows, invite.id = id →
    invite.isExpired registry.clock = true ∨
      Registry.claimable invite.code registry.clock invite = true

/-- No code let two accounts in. -/
def Registry.AdmitsOnce (registry : Registry) : Prop := (registry.admitted.map Prod.snd).Nodup

/-- Where the registration has just answered with an error and wrote no account,
the invite it took is claimable again. -/
def Registration.LeavesInvite (registry : Registry) : Registration → Prop
  | .answered (some invite) none (.error _) => registry.GivenBack invite.1
  | _ => True

/-- One move keeps to the bargain: no code let two accounts in, and whoever answers
with an error has given its invite back. -/
def InviteKept (_ : RegistrationPool) (move : RegistrationMove) (next : RegistrationPool) : Prop :=
  next.shared.AdmitsOnce ∧
    match move with
    | .advance thread _ =>
        ∀ own ∈ next.threads[thread]?, own.LeavesInvite next.shared
    | .outside _ | .spawn _ => True

/-- The operation does not part a registration from the invite it took: a claim is
answered, the lookup of the name succeeds, an insertion that is not answered did not
take effect, and a release takes effect, or the invite is out of use anyway. -/
def Registration.HandsBack (registry : Registry) :
    Registration → RegistrationAct → Prop
  | .claiming _ code now, .claim .unanswered =>
      ∀ invite ∈ registry.claimed? code now, registry.OutOfUse invite.id
  | .claimed _ (some invite) _, .loadUser .refused
  | .claimed _ (some invite) _, .loadUser .unanswered =>
      registry.OutOfUse invite.id
  | .free body (some invite) now, .createUser minted authHash .unanswered =>
      (registry.createUser
        (registeredUser minted (Vault.trim body.username) authHash body now)
        (some invite)).toOption.isNone = true
  | .releasing invite _ _, .release .refused => registry.OutOfUse invite.id
  | _, _ => True

/-- The move hands back what it has to. -/
def HandsBack (pool : RegistrationPool) : RegistrationMove → Prop
  | .advance thread act =>
      ∀ own ∈ pool.threads[thread]?, own.HandsBack pool.shared act
  | .outside _ | .spawn _ => True

section Decidable

variable (registry : Registry)

instance (id : String) : Decidable (registry.OutOfUse id) :=
  List.decidableBAll _ _

instance (id : String) : Decidable (registry.GivenBack id) :=
  List.decidableBAll _ _

instance : Decidable registry.AdmitsOnce := List.nodupDecidable _

instance (own : Registration) : Decidable (own.LeavesInvite registry) := by
  unfold Registration.LeavesInvite
  split <;> infer_instance

instance (pool next : RegistrationPool) (move : RegistrationMove) :
    Decidable (InviteKept pool move next) := by
  unfold InviteKept
  cases move <;> infer_instance

instance (own : Registration) (act : RegistrationAct) :
    Decidable (own.HandsBack registry act) := by
  unfold Registration.HandsBack
  split <;> infer_instance

instance (pool : RegistrationPool) (move : RegistrationMove) :
    Decidable (HandsBack pool move) := by
  unfold HandsBack
  split <;> infer_instance

end Decidable

/-- The invites a registration has taken and not yet turned into an account or
given back. -/
def Registration.taken : Registration → List (String × String)
  | .claimed _ invite _ | .free _ invite _ =>
      (invite.map RegistrationInvite.key).toList
  | .releasing invite _ _ => [invite.key]
  | .claiming _ _ _ | .answered _ _ _ => []

/-- The books of the registry, with the invites that are `taken`: each invite has an
id and a code of its own, and those taken or spent are so once and marked as
used. -/
structure Registry.Accounted
    (registry : Registry) (taken : List (String × String)) : Prop where
  issuedIds : (registry.issued.map Prod.fst).Nodup
  issuedCodes : (registry.issued.map Prod.snd).Nodup
  recorded : ∀ invite ∈ registry.invites.rows, invite.key ∈ registry.issued
  known : ∀ key ∈ registry.admitted ++ taken, key ∈ registry.issued
  once : (registry.admitted ++ taken).Nodup
  used : ∀ invite ∈ registry.invites.rows,
    invite.key ∈ registry.admitted ++ taken → invite.usedAt ≠ none

namespace Registry

variable {registry : Registry} {taken others : List (String × String)}

theorem claimed?_eq_some {code : String} {now : Vault.DateTime} {invite : RegistrationInvite}
    (found : registry.claimed? code now = some invite) :
    invite ∈ registry.invites.rows ∧ claimable code now invite = true :=
  ⟨List.mem_of_find?_eq_some found, List.find?_some found⟩

theorem claimable_iff {code : String} {now : Vault.DateTime} {invite : RegistrationInvite} :
    claimable code now invite = true ↔
      invite.code = code ∧ invite.usedAt = none ∧ invite.isExpired now = false := by
  have expiry : (invite.expiresAt.all fun expiresAt => decide (now < expiresAt)) =
      !invite.isExpired now := by
    unfold RegistrationInvite.isExpired
    cases invite.expiresAt with
    | none => rfl
    | some expiresAt =>
        rw [Bool.eq_iff_iff]
        simp only [Option.all_some, Option.any_some, decide_eq_true_eq,
          Bool.not_eq_true', decide_eq_false_iff_not]
        exact Int.not_le.symm
  simp [claimable, expiry, and_assoc]

/-- A row after a claim: the claimed one is used, the others are as they were. -/
theorem mem_claim {code username : String} {now : Vault.DateTime} {after : RegistrationInvite}
    (present : after ∈ (registry.claim code username now).invites.rows) :
    ∃ invite ∈ registry.invites.rows, after.key = invite.key ∧
      after.expiresAt = invite.expiresAt ∧
        (claimable code now invite = true → after.usedAt ≠ none) ∧
          (after.usedAt = none → invite.usedAt = none) := by
  obtain ⟨invite, old, rfl⟩ := List.mem_map.mp present
  refine ⟨invite, old, ?_⟩
  split_ifs with matching
  · exact ⟨rfl, rfl, fun _ => by simp, by simp⟩
  · exact ⟨rfl, rfl, fun claimed => absurd claimed matching, id⟩

/-- A row after a release: the released one is open, the others are as they
were. -/
theorem mem_release {id : String} {after : RegistrationInvite}
    (present : after ∈ (registry.release id).invites.rows) :
    ∃ invite ∈ registry.invites.rows, after.key = invite.key ∧
      (after.id = id → after.usedAt = none) ∧ (after.id ≠ id → after = invite) := by
  obtain ⟨invite, old, rfl⟩ := List.mem_map.mp present
  refine ⟨invite, old, ?_⟩
  split_ifs with matching
  · rw [beq_iff_eq] at matching
    exact ⟨rfl, fun _ => rfl, fun differs => absurd matching differs⟩
  · rw [beq_iff_eq] at matching
    exact ⟨rfl, fun same => absurd same matching, fun _ => rfl⟩

theorem createUser_ok {user : StoredUser} {invite : Option RegistrationInvite} {after : Registry}
    (created : registry.createUser user invite = .ok after) :
    after.invites = registry.invites ∧ after.issued = registry.issued ∧
      after.admitted = registry.admitted ++ (invite.map RegistrationInvite.key).toList := by
  unfold createUser at created
  split_ifs at created
  cases created
  exact ⟨rfl, rfl, rfl⟩

namespace Accounted

/-- In which order the invites are taken does not matter. -/
theorem perm (same : taken.Perm others) (books : registry.Accounted taken) :
    registry.Accounted others where
  issuedIds := books.issuedIds
  issuedCodes := books.issuedCodes
  recorded := books.recorded
  known := fun key present =>
    books.known key ((same.append_left registry.admitted).mem_iff.mpr present)
  once := (same.append_left registry.admitted).nodup_iff.mp books.once
  used := fun invite present counted => books.used invite present
    ((same.append_left registry.admitted).mem_iff.mpr counted)

/-- An invite that is no longer taken need not be counted. -/
theorem drop {key : String × String} (books : registry.Accounted (key :: taken)) :
    registry.Accounted taken := by
  have smaller : (registry.admitted ++ taken).Sublist
      (registry.admitted ++ key :: taken) :=
    (List.Sublist.refl _).append (List.sublist_cons_self key taken)
  exact
    { issuedIds := books.issuedIds
      issuedCodes := books.issuedCodes
      recorded := books.recorded
      known := fun key present => books.known key (smaller.subset present)
      once := books.once.sublist smaller
      used := fun invite present counted =>
        books.used invite present (smaller.subset counted) }

/-- Two invites of one id are the same. -/
theorem key_eq_of_id_eq (books : registry.Accounted taken) {key other : String × String}
    (issued : key ∈ registry.issued) (otherIssued : other ∈ registry.issued)
    (same : key.1 = other.1) : key = other :=
  List.inj_on_of_nodup_map books.issuedIds issued otherIssued same

/-- Marking invites as used keeps the books. -/
theorem claim (books : registry.Accounted taken) (code username : String) (now : Vault.DateTime) :
    (registry.claim code username now).Accounted taken where
  issuedIds := books.issuedIds
  issuedCodes := books.issuedCodes
  recorded := by
    intro after present
    obtain ⟨invite, old, sameKey, -⟩ := mem_claim present
    rw [sameKey]
    exact books.recorded invite old
  known := books.known
  once := books.once
  used := by
    intro after present counted unused
    obtain ⟨invite, old, sameKey, -, -, wasUnused⟩ := mem_claim present
    rw [sameKey] at counted
    exact books.used invite old counted (wasUnused unused)

/-- The invite a claim found is taken once. -/
theorem take (books : registry.Accounted taken)
    {code username : String} {now : Vault.DateTime} {invite : RegistrationInvite}
    (found : registry.claimed? code now = some invite) :
    (registry.claim code username now).Accounted (invite.key :: taken) := by
  obtain ⟨present, matching⟩ := claimed?_eq_some found
  have unused : invite.usedAt = none := (claimable_iff.mp matching).2.1
  have free : invite.key ∉ registry.admitted ++ taken :=
    fun counted => books.used invite present counted unused
  have marked := books.claim code username now
  have middle : (registry.admitted ++ invite.key :: taken).Perm
      (invite.key :: (registry.admitted ++ taken)) := List.perm_middle
  exact
    { issuedIds := books.issuedIds
      issuedCodes := books.issuedCodes
      recorded := marked.recorded
      known := by
        intro key counted
        rcases List.mem_cons.mp (middle.mem_iff.mp counted) with rfl | before
        · exact books.recorded invite present
        · exact books.known key before
      once := middle.nodup_iff.mpr (List.nodup_cons.mpr ⟨free, books.once⟩)
      used := by
        intro after there counted
        rcases List.mem_cons.mp (middle.mem_iff.mp counted) with same | before
        · obtain ⟨old, stored, sameKey, -, isUsed, -⟩ := mem_claim there
          have sameId : old.id = invite.id := congrArg Prod.fst (sameKey.symm.trans same)
          rw [registry.invites.eq_of_key_eq stored present sameId] at isUsed
          exact isUsed matching
        · exact marked.used after there before }

/-- An invite that was taken goes back. -/
theorem release {invite : RegistrationInvite} (books : registry.Accounted (invite.key :: taken)) :
    (registry.release invite.id).Accounted taken := by
  have middle : (registry.admitted ++ invite.key :: taken).Perm
      (invite.key :: (registry.admitted ++ taken)) := List.perm_middle
  have counted : invite.key ∈ registry.issued :=
    books.known _ (middle.mem_iff.mpr List.mem_cons_self)
  have free : invite.key ∉ registry.admitted ++ taken :=
    (List.nodup_cons.mp (middle.nodup_iff.mp books.once)).1
  exact
    { issuedIds := books.issuedIds
      issuedCodes := books.issuedCodes
      recorded := by
        intro after present
        obtain ⟨old, stored, sameKey, -⟩ := mem_release present
        rw [sameKey]
        exact books.recorded old stored
      known := books.drop.known
      once := books.drop.once
      used := by
        intro after present stillCounted
        obtain ⟨old, stored, sameKey, -, unchanged⟩ := mem_release present
        by_cases same : after.id = invite.id
        · have sameInvite : after.key = invite.key := by
            refine books.key_eq_of_id_eq ?_ counted same
            rw [sameKey]
            exact books.recorded old stored
          exact absurd (sameInvite ▸ stillCounted) free
        · rw [unchanged same] at stillCounted ⊢
          exact books.drop.used old stored stillCounted }

/-- The invite of a new account is spent instead of taken. -/
theorem admitted {user : StoredUser} {invite : Option RegistrationInvite} {after : Registry}
    (created : registry.createUser user invite = .ok after)
    (books : registry.Accounted ((invite.map RegistrationInvite.key).toList ++ taken)) :
    after.Accounted taken := by
  obtain ⟨sameInvites, sameIssued, spent⟩ := createUser_ok created
  have sameCount : after.admitted ++ taken = registry.admitted ++
      ((invite.map RegistrationInvite.key).toList ++ taken) := by
    rw [spent, List.append_assoc]
  exact
    { issuedIds := sameIssued ▸ books.issuedIds
      issuedCodes := sameIssued ▸ books.issuedCodes
      recorded := by
        rw [sameInvites, sameIssued]
        exact books.recorded
      known := by
        rw [sameIssued, sameCount]
        exact books.known
      once := sameCount ▸ books.once
      used := by
        rw [sameInvites, sameCount]
        exact books.used }

theorem admitsOnce (books : registry.Accounted taken) : registry.AdmitsOnce := by
  have spent : registry.admitted.Nodup := books.once.sublist (List.sublist_append_left _ _)
  have issued : ∀ key ∈ registry.admitted, key ∈ registry.issued :=
    fun key present => books.known key (List.mem_append_left _ present)
  refine List.Nodup.map_on ?_ spent
  intro key present other otherPresent same
  exact List.inj_on_of_nodup_map books.issuedCodes (issued key present)
    (issued other otherPresent) same

/-- What the operator does, and time, keep the books. -/
theorem event (books : registry.Accounted taken) {happening : RegistryEvent} {after : Registry}
    (happened : registryEvent registry happening = some after) :
    after.Accounted taken := by
  cases happening with
  | createInvite id code label expiresInDays =>
      simp only [registryEvent] at happened
      split_ifs at happened with new days
      cases happened
      have unissued : (id, code) ∉ registry.issued := fun issued =>
        new.2.1 (List.mem_map_of_mem issued)
      exact
        { issuedIds := by
            rw [List.map_append, List.map_singleton]
            exact List.nodup_append.mpr ⟨books.issuedIds, List.nodup_singleton _,
              fun old present added last => by
                rw [List.mem_singleton.mp last]
                rintro rfl
                exact new.2.1 present⟩
          issuedCodes := by
            rw [List.map_append, List.map_singleton]
            exact List.nodup_append.mpr ⟨books.issuedCodes, List.nodup_singleton _,
              fun old present added last => by
                rw [List.mem_singleton.mp last]
                rintro rfl
                exact new.2.2 present⟩
          recorded := by
            intro invite present
            rcases (Table.mem_rows_insert new.1).mp present with old | rfl
            · exact List.mem_append_left _ (books.recorded invite old)
            · exact List.mem_append_right _ (List.mem_singleton_self _)
          known := fun key counted => List.mem_append_left _ (books.known key counted)
          once := books.once
          used := by
            intro invite present counted
            rcases (Table.mem_rows_insert new.1).mp present with old | rfl
            · exact books.used invite old counted
            · exact absurd (books.known _ counted) unissued }
  | revokeInvite id =>
      cases happened
      exact
        { issuedIds := books.issuedIds
          issuedCodes := books.issuedCodes
          recorded := fun invite present =>
            books.recorded invite (Table.mem_rows_delete.mp present).1
          known := books.known
          once := books.once
          used := fun invite present =>
            books.used invite (Table.mem_rows_delete.mp present).1 }
  | setRegistration enabled | setUsers users =>
      cases happened
      exact ⟨books.issuedIds, books.issuedCodes, books.recorded, books.known,
        books.once, books.used⟩
  | wait now =>
      simp only [registryEvent] at happened
      split_ifs at happened
      cases happened
      exact ⟨books.issuedIds, books.issuedCodes, books.recorded, books.known,
        books.once, books.used⟩

theorem fresh (users : Table StoredUser.id) (enabled : Bool) (clock : Vault.DateTime) :
    (Registry.fresh users enabled clock).Accounted [] := by
  constructor <;> simp [Registry.fresh, Table.empty]

end Accounted

/-- Nothing is asked back of an invite that is out of use. -/
theorem OutOfUse.givenBack {id : String} (outOfUse : registry.OutOfUse id) :
    registry.GivenBack id :=
  fun invite present same => .inl (outOfUse invite present same)

/-- A claim does not bring an invite back into use. -/
theorem OutOfUse.claim {id : String} (outOfUse : registry.OutOfUse id)
    (code username : String) (now : Vault.DateTime) :
    (registry.claim code username now).OutOfUse id := by
  intro after present same
  obtain ⟨invite, old, sameKey, sameExpiry, -⟩ := mem_claim present
  have sameId : invite.id = id := (congrArg Prod.fst sameKey).symm.trans same
  have expired := outOfUse invite old sameId
  unfold RegistrationInvite.isExpired at expired ⊢
  rw [sameExpiry]
  exact expired

/-- A release that took effect leaves its invite claimable. -/
theorem givenBack_release (id : String) : (registry.release id).GivenBack id := by
  intro after present same
  obtain ⟨invite, old, -, opened, -⟩ := mem_release present
  cases expiry : after.isExpired (registry.release id).clock with
  | true => exact .inl rfl
  | false => exact .inr (claimable_iff.mpr ⟨rfl, opened same, expiry⟩)

end Registry

/-- The registration answers with its invite still to be handed back, if it has
one. -/
theorem taken_releaseInvite (invite : Option RegistrationInvite) (account : Option String)
    (error : AppError) :
    (releaseInvite invite account error).taken = (invite.map RegistrationInvite.key).toList := by
  cases invite with
  | none => rfl
  | some invite => rfl

theorem leavesInvite_releaseInvite (registry : Registry) (invite : Option RegistrationInvite)
    (account : Option String) (error : AppError) :
    (releaseInvite invite account error).LeavesInvite registry := by
  cases invite with
  | none => trivial
  | some invite => trivial

/-- An operation that hands back what it has to keeps the books, and an answer it
gives leaves the invite claimable. -/
theorem advanceRegister_kept
    {registry next : Registry} {before after : Registration} {act : RegistrationAct}
    {others : List (String × String)} (books : registry.Accounted (before.taken ++ others))
    (handsBack : before.HandsBack registry act)
    (action : advanceRegister registry before act = some (next, after)) :
    next.Accounted (after.taken ++ others) ∧ after.LeavesInvite next := by
  cases before with
  | claiming body code now =>
      cases act with
      | claim outcome =>
          cases outcome with
          | done =>
              cases found : registry.claimed? code now with
              | none =>
                  simp only [advanceRegister, found] at action
                  cases action
                  exact ⟨books.claim _ _ _, trivial⟩
              | some invite =>
                  simp only [advanceRegister, found] at action
                  cases action
                  exact ⟨books.take found, trivial⟩
          | refused =>
              cases action
              exact ⟨books, trivial⟩
          | unanswered =>
              cases action
              refine ⟨books.claim _ _ _, ?_⟩
              cases found : registry.claimed? code now with
              | none => trivial
              | some invite =>
                  exact ((handsBack invite found).claim _ _ _).givenBack
      | loadUser _ | hashFails _ | createUser _ _ _ | release _ =>
          simp [advanceRegister] at action
  | claimed body invite now =>
      cases act with
      | loadUser outcome =>
          cases outcome with
          | done =>
              simp only [advanceRegister] at action
              split_ifs at action with taken
              · cases action
                rw [taken_releaseInvite]
                exact ⟨books, leavesInvite_releaseInvite _ _ _ _⟩
              · cases action
                exact ⟨books, trivial⟩
          | refused | unanswered =>
              cases action
              cases invite with
              | none => exact ⟨books, trivial⟩
              | some invite =>
                  have outOfUse : registry.OutOfUse invite.id := handsBack
                  exact ⟨books.drop, outOfUse.givenBack⟩
      | claim _ | hashFails _ | createUser _ _ _ | release _ =>
          simp [advanceRegister] at action
  | free body invite now =>
      -- everything but a new account ends with the release
      have goesBack : ∀ error, registry.Accounted
          ((releaseInvite invite none error).taken ++ others) ∧
            (releaseInvite invite none error).LeavesInvite registry := by
        intro error
        rw [taken_releaseInvite]
        exact ⟨books, leavesInvite_releaseInvite _ _ _ _⟩
      cases act with
      | hashFails detail =>
          cases action
          exact goesBack _
      | createUser minted authHash outcome =>
          cases outcome with
          | done =>
              cases created : registry.createUser (registeredUser minted
                  (Vault.trim body.username) authHash body now) invite with
              | error error =>
                  simp only [advanceRegister, created] at action
                  cases action
                  exact goesBack _
              | ok admitting =>
                  simp only [advanceRegister, created] at action
                  cases action
                  refine ⟨Registry.Accounted.admitted created books, ?_⟩
                  cases invite <;> trivial
          | refused =>
              cases action
              exact goesBack _
          | unanswered =>
              cases created : registry.createUser (registeredUser minted
                  (Vault.trim body.username) authHash body now) invite with
              | error error =>
                  simp only [advanceRegister, created] at action
                  cases action
                  exact goesBack _
              | ok admitting =>
                  simp only [advanceRegister, created] at action
                  cases action
                  cases invite with
                  | none => exact ⟨Registry.Accounted.admitted created books, trivial⟩
                  | some invite =>
                      simp [Registration.HandsBack, created, Except.toOption] at handsBack
      | claim _ | loadUser _ | release _ => simp [advanceRegister] at action
  | releasing invite account error =>
      cases act with
      | release outcome =>
          cases outcome with
          | done | unanswered =>
              cases action
              refine ⟨books.release, ?_⟩
              cases account with
              | none => exact Registry.givenBack_release invite.id
              | some account => trivial
          | refused =>
              cases action
              refine ⟨books.drop, ?_⟩
              cases account with
              | none =>
                  have outOfUse : registry.OutOfUse invite.id := handsBack
                  exact outOfUse.givenBack
              | some account => trivial
      | claim _ | loadUser _ | hashFails _ | createUser _ _ _ =>
          simp [advanceRegister] at action
  | answered invite account reply => simp [advanceRegister] at action

/-- A registration that has just arrived has taken nothing. -/
theorem taken_beginRegister (registry : Registry) (body : RegisterRequest) :
    (beginRegister registry body).taken = [] := by
  unfold beginRegister
  split_ifs
  · rfl
  · rfl
  · rfl
  · rfl
  · cases (body.inviteCode.map normalizeInviteCode).filter (· ≠ "") <;> rfl

/-- The books of a pool: what its registrations have taken is accounted for. -/
def Accounted (pool : RegistrationPool) : Prop :=
  pool.shared.Accounted (held Registration.taken pool.threads)

/-- A move that hands back what it has to keeps the books, and keeps to the
bargain. -/
theorem registrations_kept
    (pool : RegistrationPool) (move : RegistrationMove) (next : RegistrationPool)
    (books : Accounted pool) (handsBack : HandsBack pool move)
    (moved : registrations.system pool move = some next) :
    Accounted next ∧ InviteKept pool move next := by
  revert handsBack
  refine Program.system_cases (motive := fun move next =>
    HandsBack pool move → Accounted next ∧ InviteKept pool move next)
    ?_ ?_ ?_ moved
  · intro event registry happened _
    have after := books.event happened
    exact ⟨after, after.admitsOnce, trivial⟩
  · intro body registry own arrived _
    cases arrived
    refine ⟨?_, books.admitsOnce, trivial⟩
    unfold Accounted
    rw [held_append_singleton, taken_beginRegister, List.append_nil]
    exact books
  · intro thread act before registry after present action handsBack
    obtain ⟨others, old, new⟩ := perm_held_set _ present after
    obtain ⟨kept, leaves⟩ := advanceRegister_kept (books.perm old) (handsBack before present) action
    have newBooks := kept.perm new.symm
    refine ⟨newBooks, newBooks.admitsOnce, ?_⟩
    intro own there
    have inRange : thread < pool.threads.length := (List.getElem?_eq_some_iff.mp present).1
    rw [List.getElem?_set_self inRange] at there
    cases there
    exact leaves

/-- While every operation hands back what it has to, an invite lets at most one
account in, and no registration that fails keeps its invite. -/
theorem inviteKept_of_handsBack (users : Table StoredUser.id) (registrationEnabled : Bool)
    (clock : Vault.DateTime) (moves : List RegistrationMove)
    (handsBack : EveryStepAllowed registrations.system HandsBack
      ⟨.fresh users registrationEnabled clock, []⟩ moves) :
    EveryStep registrations.system InviteKept ⟨.fresh users registrationEnabled clock, []⟩ moves :=
  everyStep_of_allowed
    (fun pool move next (books : Accounted pool) permitted moved =>
      (registrations_kept pool move next books permitted moved).1)
    (fun pool move next books permitted moved =>
      (registrations_kept pool move next books permitted moved).2)
    (.fresh users registrationEnabled clock) handsBack

/-- A registration by invite. -/
def invitedRequest (username : String) : RegisterRequest where
  username := username
  authToken := "token"
  argon2Salt := "salt"
  argon2Params := { mCost := 65536, tCost := 3, pCost := 4 }
  classicalPublicKey := "classical"
  pqPublicKey := "pq"
  classicalPrivEncrypted := "sealed"
  pqPrivEncrypted := "sealed"
  inviteCode := some "mmv acde fghj kmnp qrtw"

/-- The hash of the first registration fails; it hands the invite back and the second
one gets in, and the third does not. -/
theorem inviteKept_of_handsBack_example :
    EveryStep registrations.system InviteKept ⟨.fresh .empty false 0, []⟩
      [.outside (.createInvite "i1" "MMV-ACDE-FGHJ-KMNP-QRTW" none none),
        .spawn (invitedRequest "ada"), .advance 0 (.claim .done),
        .advance 0 (.loadUser .done), .advance 0 (.hashFails "no salt"),
        .advance 0 (.release .done),
        .spawn (invitedRequest "bob"), .advance 1 (.claim .done),
        .advance 1 (.loadUser .done), .advance 1 (.createUser "u1" "hash" .done),
        .spawn (invitedRequest "eve"), .advance 2 (.claim .done)] :=
  inviteKept_of_handsBack _ _ _ _ (by decide)

/-- The lookup of the name fails after the invite was taken: the registration answers
with an error, has written no account, and its invite stays used. -/
theorem failed_lookup_keeps_invite :
    ¬ ∀ users registrationEnabled clock moves,
      EveryStep registrations.system InviteKept
        ⟨.fresh users registrationEnabled clock, []⟩ moves := by
  intro always
  have kept := always .empty false 0
    [.outside (.createInvite "i1" "MMV-ACDE-FGHJ-KMNP-QRTW" none none),
      .spawn (invitedRequest "ada"), .advance 0 (.claim .done),
      .advance 0 (.loadUser .refused)]
  revert kept
  decide

end Accounts
end MindMapVault
