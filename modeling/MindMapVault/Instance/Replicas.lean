import MindMapVault.Foundations.Threads
import MindMapVault.Instance.SettingsRow

/-!
# Settings on several replicas

Every replica of a server answers from its own copy of the settings row. A copy is taken when
the replica starts, whenever an operator saves settings on it, and on a timer. An update is made
over the copy of the replica that answers it, saved as a whole row, and read back in a second
statement, so what other replicas save meanwhile matters.
-/

namespace MindMapVault
namespace Instance

open Threads (Program Pool Move)
open Vault (DateTime)
open Throttle (InstanceSettings UpdateInstanceSettingsRequest IpNet)

/-! ### Replicas -/

/-- The row, the copies of the replicas in the order in which they started, and the audit trail. -/
structure Cluster where
  row : Option SettingsRow
  copies : List InstanceSettings
  audit : List String

/-- What a replica is doing. -/
inductive Task
  | seeding (seed : InstanceSettings)
  | seeded
  | starting (stored : InstanceSettings)
  | saving (replica : Nat) (request : UpdateInstanceSettingsRequest)
      (current next : InstanceSettings)
  | saved (replica : Nat) (current : InstanceSettings)
  | answering (replica : Nat) (current saved : InstanceSettings)
  | auditing (detail : String)
  | refreshing (replica : Nat)
  | refreshed (replica : Nat) (stored : InstanceSettings)
  | ended

/-- What makes a replica do something. -/
inductive Occasion
  | start (env : String → Option String) (now : DateTime)
  | update (replica : Nat) (request : UpdateInstanceSettingsRequest) (now : DateTime)
  | tick (replica : Nat)

/-- `describe_settings_change`. -/
def describeSettingsChange (before after : InstanceSettings) : Option String :=
  let notes :=
    [("registration_enabled", toString before.registrationEnabled,
        toString after.registrationEnabled),
      ("user_storage_limit_bytes", toString before.userStorageLimitBytes,
        toString after.userStorageLimitBytes),
      ("max_attachment_size_bytes", toString before.maxAttachmentSizeBytes,
        toString after.maxAttachmentSizeBytes),
      ("auth_rate_limit_per_minute", toString before.authRateLimitPerMinute,
        toString after.authRateLimitPerMinute),
      ("failed_login_threshold", toString before.failedLoginThreshold,
        toString after.failedLoginThreshold),
      ("failed_login_lockout_minutes", toString before.failedLoginLockoutMinutes,
        toString after.failedLoginLockoutMinutes),
      ("trusted_proxy_cidrs", joinCidrs before.trustedProxyCidrs,
        joinCidrs after.trustedProxyCidrs)]
  let changes := (notes.filter fun (_, before, after) => before != after).map
    fun (field, before, after) => field ++ ": " ++ before ++ " → " ++ after
  if changes = [] then none else some ("; ".intercalate changes)

section Program

variable (parseNet : List Char → Option IpNet)

/-- The first action: an update is made over the copy of its replica. -/
def begin (cluster : Cluster) : Occasion → Option (Cluster × Task)
  | .start env now => some (cluster, .seeding (fromEnvSeed env now))
  | .update replica request now =>
      cluster.copies[replica]?.bind fun current =>
        match request.apply (rejectedCidrs parseNet) current now with
        | .error _ => none
        | .ok next => some (cluster, .saving replica request current next)
  | .tick replica => some (cluster, .refreshing replica)

/-- The row as a task reads it. A task that finds none ends. -/
def load (cluster : Cluster) (found : InstanceSettings → Task) : Task :=
  (cluster.row.map fun row => found (ofRow row)).getD .ended

/-- The next action of a task. -/
def proceed (cluster : Cluster) : Task → Option (Cluster × Task)
  | .seeding seed => some ({ cluster with row := cluster.row.or (some (toRow seed)) }, .seeded)
  | .seeded => some (cluster, load cluster .starting)
  | .starting stored => some ({ cluster with copies := cluster.copies ++ [stored] }, .ended)
  | .saving replica _ current next =>
      some ({ cluster with row := some (toRow next) }, .saved replica current)
  | .saved replica current => some (cluster, load cluster (.answering replica current))
  | .answering replica current saved =>
      some ({ cluster with copies := cluster.copies.set replica saved },
        ((describeSettingsChange current saved).map Task.auditing).getD .ended)
  | .auditing detail => some ({ cluster with audit := cluster.audit ++ [detail] }, .ended)
  | .refreshing replica => some (cluster, load cluster (.refreshed replica))
  | .refreshed replica stored =>
      some ({ cluster with copies := cluster.copies.set replica stored }, .ended)
  | .ended => none

/-- Any number of replicas on one database. -/
def replicas : Program Cluster Task Empty Occasion Unit where
  outside := fun _ event => nomatch event
  spawn := begin parseNet
  advance := fun cluster task _ => proceed cluster task

end Program

/-- A database that was never used. -/
def unused : Pool Cluster Task where
  shared := ⟨none, [], []⟩
  threads := []

/-! ### Sound settings -/

/-- The row and the copies are sound, and a replica has a copy only where there is a row. -/
structure SoundCluster (cluster : Cluster) : Prop where
  row : ∀ row ∈ cluster.row, Sound (ofRow row) ∧ toRow (ofRow row) = row
  copies : ∀ copy ∈ cluster.copies, Sound copy
  seeded : cluster.copies ≠ [] → cluster.row.isSome = true

/-- What a task is about to write is sound, and an update carries what was asked for. -/
def SoundTask (cluster : Cluster) : Task → Prop
  | .seeding seed => Sound seed
  | .starting stored | .refreshed _ stored => Sound stored ∧ cluster.row.isSome = true
  | .saving _ request current next =>
      Sound next ∧ editable next = writeOver request (editable current) ∧ cluster.row.isSome = true
  | .answering _ _ saved => Sound saved ∧ cluster.row.isSome = true
  | .seeded | .saved .. | .auditing _ | .refreshing _ | .ended => True

section Sound

variable {parseNet : List Char → Option IpNet} {cluster after : Cluster} {task next : Task}

theorem soundTask_mono (rows : cluster.row.isSome = true → after.row.isSome = true)
    (known : SoundTask cluster task) : SoundTask after task := by
  cases task with
  | seeding seed => exact known
  | starting stored => exact known.imp_right rows
  | saving replica request current stored => exact known.imp_right (And.imp_right rows)
  | answering replica current saved => exact known.imp_right rows
  | refreshed replica stored => exact known.imp_right rows
  | seeded => exact trivial
  | saved replica current => exact trivial
  | auditing detail => exact trivial
  | refreshing replica => exact trivial
  | ended => exact trivial

/-- What a task reads is sound. -/
theorem soundTask_load (sound : SoundCluster cluster) {found : InstanceSettings → Task}
    (holds : ∀ stored, Sound stored → cluster.row.isSome = true →
      SoundTask cluster (found stored)) : SoundTask cluster (load cluster found) := by
  cases stored : cluster.row with
  | none =>
      rw [load, stored]
      exact trivial
  | some row =>
      have isRow := sound.row row stored
      rw [load, stored]
      exact holds _ isRow.1 (by rw [stored]; rfl)

theorem soundRow_toRow {settings : InstanceSettings} (sound : Sound settings) :
    ∀ row ∈ some (toRow settings), Sound (ofRow row) ∧ toRow (ofRow row) = row := by
  rintro _ ⟨⟩
  rw [ofRow_toRow sound]
  exact ⟨sound, rfl⟩

/-- The first action of a task changes nothing. -/
theorem begin_spec (noComma : ∀ text net, parseNet text = some net → ',' ∉ text)
    (sound : SoundCluster cluster) {occasion : Occasion}
    (taken : begin parseNet cluster occasion = some (after, next)) :
    after = cluster ∧ SoundTask cluster next := by
  cases occasion with
  | start env now =>
      obtain ⟨rfl, rfl⟩ := Prod.mk.inj (Option.some.inj taken)
      exact ⟨rfl, sound_fromEnvSeed env now⟩
  | update replica request now =>
      obtain ⟨current, isCopy, taken⟩ := Option.bind_eq_some_iff.mp taken
      have listed := List.mem_of_getElem? isCopy
      cases applied : request.apply (rejectedCidrs parseNet) current now with
      | error refusal =>
          rw [applied] at taken
          cases taken
      | ok stored =>
          rw [applied] at taken
          obtain ⟨rfl, rfl⟩ := Prod.mk.inj (Option.some.inj taken)
          exact ⟨rfl, sound_apply noComma applied (sound.copies current listed),
            (apply_spec applied).1, sound.seeded (List.ne_nil_of_mem listed)⟩
  | tick replica =>
      obtain ⟨rfl, rfl⟩ := Prod.mk.inj (Option.some.inj taken)
      exact ⟨rfl, trivial⟩

theorem soundCluster_set (sound : SoundCluster cluster) (replica : Nat)
    {stored : InstanceSettings} (holds : Sound stored) :
    SoundCluster { cluster with copies := cluster.copies.set replica stored } where
  row := sound.row
  copies := fun copy listed => (List.mem_or_eq_of_mem_set listed).elim (sound.copies copy)
    fun same => same ▸ holds
  seeded := fun some => sound.seeded fun none => some (by simp [none])

/-- Every action keeps the settings sound, and no row is ever lost. -/
theorem proceed_spec (sound : SoundCluster cluster) (known : SoundTask cluster task)
    (taken : proceed cluster task = some (after, next)) :
    SoundCluster after ∧ SoundTask after next ∧
      (cluster.row.isSome = true → after.row.isSome = true) := by
  cases task with
  | seeding seed =>
      obtain ⟨rfl, rfl⟩ := Prod.mk.inj (Option.some.inj taken)
      have some : (cluster.row.or (some (toRow seed))).isSome = true := by
        cases cluster.row with
        | none => rfl
        | some row => rfl
      refine ⟨⟨fun row listed => ?_, sound.copies, fun _ => some⟩, trivial, fun _ => some⟩
      cases stored : cluster.row with
      | none =>
          rw [stored] at listed
          exact soundRow_toRow known row listed
      | some old =>
          rw [stored] at listed
          exact sound.row row (stored.trans listed)
  | seeded =>
      obtain ⟨rfl, rfl⟩ := Prod.mk.inj (Option.some.inj taken)
      exact ⟨sound, soundTask_load sound fun _ holds rows => ⟨holds, rows⟩, id⟩
  | starting stored =>
      obtain ⟨rfl, rfl⟩ := Prod.mk.inj (Option.some.inj taken)
      refine ⟨⟨sound.row, fun copy listed => ?_, fun _ => known.2⟩, trivial, id⟩
      rcases List.mem_append.mp listed with old | new
      · exact sound.copies copy old
      · rw [List.mem_singleton.mp new]
        exact known.1
  | saving replica request current stored =>
      obtain ⟨rfl, rfl⟩ := Prod.mk.inj (Option.some.inj taken)
      exact ⟨⟨soundRow_toRow known.1, sound.copies, fun _ => rfl⟩, trivial, fun _ => rfl⟩
  | saved replica current =>
      obtain ⟨rfl, rfl⟩ := Prod.mk.inj (Option.some.inj taken)
      exact ⟨sound, soundTask_load sound fun _ holds rows => ⟨holds, rows⟩, id⟩
  | answering replica current saved =>
      obtain ⟨rfl, rfl⟩ := Prod.mk.inj (Option.some.inj taken)
      refine ⟨soundCluster_set sound replica known.1, ?_, id⟩
      cases describeSettingsChange current saved with
      | none => exact trivial
      | some detail => exact trivial
  | auditing detail =>
      obtain ⟨rfl, rfl⟩ := Prod.mk.inj (Option.some.inj taken)
      exact ⟨⟨sound.row, sound.copies, sound.seeded⟩, trivial, id⟩
  | refreshing replica =>
      obtain ⟨rfl, rfl⟩ := Prod.mk.inj (Option.some.inj taken)
      exact ⟨sound, soundTask_load sound fun _ holds rows => ⟨holds, rows⟩, id⟩
  | refreshed replica stored =>
      obtain ⟨rfl, rfl⟩ := Prod.mk.inj (Option.some.inj taken)
      exact ⟨soundCluster_set sound replica known.1, trivial, id⟩
  | ended => cases taken

/-- The invariant of the replicas. -/
def SoundPool (pool : Pool Cluster Task) : Prop := Threads.Holds SoundCluster SoundTask pool

theorem soundPool_unused : SoundPool unused := by
  refine ⟨⟨?_, ?_, ?_⟩, ?_⟩
  · exact fun row none => absurd none (Option.not_mem_none row)
  · exact List.forall_mem_nil _
  · exact fun copies => absurd (rfl : ([] : List InstanceSettings) = []) copies
  · exact List.forall_mem_nil _

theorem soundPool_step (noComma : ∀ text net, parseNet text = some net → ',' ∉ text)
    {pool later : Pool Cluster Task} {move : Move Empty Occasion Unit} (sound : SoundPool pool)
    (taken : (replicas parseNet).system pool move = some later) : SoundPool later := by
  refine Threads.holds_preserved (fun _ _ => True) ?_ ?_ ?_ pool move later sound trivial taken
  · exact fun _ event => nomatch event
  · intro pool occasion after task holds _ taken
    obtain ⟨rfl, known⟩ := begin_spec noComma holds.1 taken
    exact ⟨holds.1, known, fun _ => id⟩
  · intro pool thread act before after task holds _ _ known taken
    obtain ⟨sound, later, rows⟩ := proceed_spec holds.1 known taken
    exact ⟨sound, later, fun _ => soundTask_mono rows⟩

end Sound

/-- Whatever replicas start, save and refresh on one database, in any order and with any of them
stopping anywhere, the row and every copy lie in the accepted ranges, and the row is what its
settings are written as. -/
theorem settings_sound {parseNet : List Char → Option IpNet}
    (noComma : ∀ text net, parseNet text = some net → ',' ∉ text)
    {moves : List (Move Empty Occasion Unit)} {pool : Pool Cluster Task}
    (run : Transition.exec (replicas parseNet).system unused moves = some pool) :
    (∀ row ∈ pool.shared.row, Sound (ofRow row) ∧ toRow (ofRow row) = row) ∧
      ∀ copy ∈ pool.shared.copies, Sound copy := by
  have sound : SoundPool pool := Transition.exec_invariant
    (fun _ _ _ sound taken => soundPool_step noComma sound taken) soundPool_unused run
  exact ⟨sound.1.row, sound.1.copies⟩

/-- An update that carries nothing. -/
def noChange : UpdateInstanceSettingsRequest where
  registrationEnabled := none
  userStorageLimitBytes := none
  maxAttachmentSizeBytes := none
  authRateLimitPerMinute := none
  lookupRateLimitPerMinute := none
  failedLoginThreshold := none
  failedLoginLockoutMinutes := none
  trustedProxyCidrs := none

/-- The moves of a replica that starts on an unused machine as the given task. -/
def startMoves (task : Nat) : List (Move Empty Occasion Unit) :=
  .spawn (.start (fun _ => none) 0) :: List.replicate 3 (.advance task ())

/-- The moves of an update as the given task. -/
def updateMoves (task replica : Nat) (request : UpdateInstanceSettingsRequest) :
    List (Move Empty Occasion Unit) :=
  .spawn (.update replica request 1) :: List.replicate 4 (.advance task ())

/-- A replica starts, and an operator names a proxy on it. -/
theorem settings_sound_proxyNamed :
    ∃ pool, Transition.exec (replicas fun _ => none).system unused
        (startMoves 0 ++ updateMoves 1 0
          { noChange with trustedProxyCidrs := some ["", " 10.0.0.5 "] }) = some pool ∧
      (∀ row ∈ pool.shared.row, Sound (ofRow row) ∧ toRow (ofRow row) = row) ∧
        ∀ copy ∈ pool.shared.copies, Sound copy := by
  have runs : (Transition.exec (replicas fun _ => none).system unused
      (startMoves 0 ++ updateMoves 1 0
        { noChange with trustedProxyCidrs := some ["", " 10.0.0.5 "] })).isSome = true := by
    decide +kernel
  obtain ⟨pool, run⟩ := Option.isSome_iff_exists.mp runs
  exact ⟨pool, run, settings_sound (fun _ _ isNet => by cases isNet) run⟩

end Instance
end MindMapVault
