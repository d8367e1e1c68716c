import MindMapVault.Instance.Replicas

/-!
# What becomes of saved settings

An update writes the whole row over the copy that its replica had, so it takes back what was
saved elsewhere since then, unless it carries the same fields. Once no update is under way, every
replica that takes a copy has the row, and keeps it for as long as no operator saves again.
-/

namespace MindMapVault
namespace Instance

open Threads (Program Pool Move)
open Throttle (InstanceSettings IpNet)

variable {parseNet : List Char → Option IpNet}

/-! ### Updates over stale copies -/

/-- What the operators have asked for: the seed, and over it what each update carries, in the
order in which they are saved. -/
def writeCarried (cluster : Cluster) (task : Task) (carried : Option Editable) : Option Editable :=
  match task with
  | .seeding seed => if cluster.row.isSome then carried else some (editable seed)
  | .saving _ request _ _ => carried.map (writeOver request)
  | _ => carried

/-- Replicas with what the operators have asked for. -/
abbrev CarriedPool := Pool (Cluster × Option Editable) Task

/-- The row has what the operators have asked for. -/
def HoldsCarried (pool : CarriedPool) : Prop :=
  (pool.shared.1.row.map fun row => editable (ofRow row)) = pool.shared.2

instance (pool : CarriedPool) : Decidable (HoldsCarried pool) :=
  inferInstanceAs (Decidable (_ = _))

/-- What a task is about to save is made over a copy that has the settings of the row, but for
those that the update carries. -/
def OverCurrent (cluster : Cluster) : Task → Prop
  | .saving _ request current _ =>
      ∀ row ∈ cluster.row, UncarriedKept request (editable current) (editable (ofRow row))
  | _ => True

/-- An update is saved only over the settings that it was made over. -/
def SavesCurrent (pool : CarriedPool) : Move Empty Occasion Unit → Prop
  | .advance thread _ => ∀ task ∈ pool.threads[thread]?, OverCurrent pool.shared.1 task
  | .spawn _ | .outside _ => True

section Carried

variable {cluster after : Cluster} {task next : Task} {carried : Option Editable}

theorem holdsCarried_proceed_iff (known : SoundTask cluster task)
    (holds : (cluster.row.map fun row => editable (ofRow row)) = carried)
    (taken : proceed cluster task = some (after, next)) :
    (after.row.map fun row => editable (ofRow row)) = writeCarried cluster task carried ↔
      OverCurrent cluster task := by
  cases task with
  | seeding seed =>
      obtain ⟨rfl, rfl⟩ := Prod.mk.inj (Option.some.inj taken)
      refine iff_of_true ?_ trivial
      rw [writeCarried]
      cases stored : cluster.row with
      | none => exact congrArg (fun settings => some (editable settings)) (ofRow_toRow known)
      | some row =>
          rw [stored] at holds
          exact holds
  | saving replica request current stored =>
      obtain ⟨rfl, rfl⟩ := Prod.mk.inj (Option.some.inj taken)
      obtain ⟨sound, edited, rows⟩ := known
      obtain ⟨row, isRow⟩ := Option.isSome_iff_exists.mp rows
      rw [isRow] at holds
      have isCurrent : OverCurrent cluster (.saving replica request current stored) ↔
          UncarriedKept request (editable current) (editable (ofRow row)) := by
        rw [OverCurrent, isRow]
        exact ⟨fun all => all row rfl, fun kept _ same => Option.some.inj same ▸ kept⟩
      rw [isCurrent, ← writeOver_eq_iff, ← edited, writeCarried, ← holds, Option.map_some,
        Option.map_some, Option.map_some, ofRow_toRow sound, Option.some.injEq]
  | seeded | starting stored | saved replica current | answering replica current saved
  | auditing detail | refreshing replica | refreshed replica stored =>
      obtain ⟨rfl, rfl⟩ := Prod.mk.inj (Option.some.inj taken)
      exact iff_of_true holds trivial
  | ended => cases taken

end Carried

/-- In every run of the replicas the row always has what the operators have asked for exactly if
every update is saved over current settings. -/
theorem holdsCarried_iff_savesCurrent (noComma : ∀ text net, parseNet text = some net → ',' ∉ text)
    (moves : List (Move Empty Occasion Unit)) :
    Transition.EveryState ((replicas parseNet).noted writeCarried).system HoldsCarried
        ⟨(unused.shared, none), []⟩ moves ↔
      Transition.EveryStepAllowed ((replicas parseNet).noted writeCarried).system SavesCurrent
        ⟨(unused.shared, none), []⟩ moves := by
  have initially : SoundPool (Program.erase (⟨(unused.shared, none), []⟩ : CarriedPool)) ∧
      HoldsCarried ⟨(unused.shared, none), []⟩ := ⟨soundPool_unused, rfl⟩
  refine Transition.everyState_iff_everyStepAllowed
    (fun pool (good : SoundPool (Program.erase pool) ∧ HoldsCarried pool) => good.2) ?_ ?_
    initially moves
  · intro pool move next good taken
    refine Program.noted_cases (motive := fun move next =>
      HoldsCarried next ↔ SavesCurrent pool move) ?_ ?_ ?_ taken
    · exact fun event => nomatch event
    · intro occasion after task action
      obtain ⟨rfl, -⟩ := begin_spec noComma good.1.1 action
      exact iff_of_true good.2 trivial
    · intro thread act before after task present action
      have known := good.1.2 before (List.mem_of_getElem? present)
      refine (holdsCarried_proceed_iff known good.2 action).trans ?_
      rw [SavesCurrent, present]
      exact ⟨fun current _ same => Option.some.inj same ▸ current,
        fun current => current before rfl⟩
  · intro pool move next good taken holds
    have erased : (((replicas parseNet).noted writeCarried).system pool move).map Program.erase =
        (replicas parseNet).system (Program.erase pool) move := Program.system_erase pool move
    rw [taken] at erased
    exact ⟨soundPool_step noComma good.1 erased.symm, holds⟩

/-- Two replicas start, registration is closed on the first, and the second saves another limit
over its old copy. -/
def staleMoves : List (Move Empty Occasion Unit) :=
  startMoves 0 ++ startMoves 1 ++
    updateMoves 2 0 { noChange with registrationEnabled := some false } ++
    updateMoves 3 1 { noChange with authRateLimitPerMinute := some 5 }

/-- The second update opens registration again. -/
theorem holdsCarried_iff_savesCurrent_staleMoves :
    ¬Transition.EveryStepAllowed ((replicas fun _ => none).noted writeCarried).system SavesCurrent
        ⟨(unused.shared, none), []⟩ staleMoves :=
  (holdsCarried_iff_savesCurrent (fun _ _ isNet => by cases isNet) staleMoves).not.mp
    (by decide +kernel)

/-! ### Copies of a row that stays -/

/-- The replicas that have taken a copy. -/
def writeTaken (cluster : Cluster) (task : Task) (taken : List Nat) : List Nat :=
  match task with
  | .starting _ => cluster.copies.length :: taken
  | .answering replica .. | .refreshed replica _ => replica :: taken
  | _ => taken

/-- Replicas with those that have taken a copy. -/
abbrev TakenPool := Pool (Cluster × List Nat) Task

/-- A task that is not about to save, and has read nothing but the row. -/
def Settled (row : SettingsRow) : Task → Prop
  | .saving .. => False
  | .starting stored | .answering _ _ stored | .refreshed _ stored => stored = ofRow row
  | .seeding _ | .seeded | .saved .. | .auditing _ | .refreshing _ | .ended => True

/-- The row stays, and whoever takes a copy takes it of the row. -/
def SettledPool (row : SettingsRow) (pool : TakenPool) : Prop :=
  pool.shared.1.row = some row ∧ ∀ task ∈ pool.threads, Settled row task

/-- The copies that were taken are of the row. -/
def Agree (row : SettingsRow) (pool : TakenPool) : Prop :=
  ∀ replica ∈ pool.shared.2, ∀ copy ∈ pool.shared.1.copies[replica]?, copy = ofRow row

/-- No operator saves. -/
def NoUpdate : Move Empty Occasion Unit → Prop
  | .spawn (.update ..) => False
  | .spawn _ | .advance .. | .outside _ => True

section Settled

variable {row : SettingsRow} {cluster after : Cluster} {task next : Task} {taken : List Nat}

theorem settled_load (stays : cluster.row = some row) {found : InstanceSettings → Task}
    (holds : Settled row (found (ofRow row))) : Settled row (load cluster found) := by
  rw [load, stays]
  exact holds

/-- A copy of the row is put where a replica has its copy. -/
theorem agree_set {copies : List InstanceSettings} (replica : Nat)
    (agree : ∀ other ∈ taken, ∀ copy ∈ copies[other]?, copy = ofRow row) :
    ∀ other ∈ replica :: taken, ∀ copy ∈ (copies.set replica (ofRow row))[other]?,
      copy = ofRow row := by
  intro other listed copy isCopy
  rcases Threads.getElem?_set_cases isCopy with ⟨-, same⟩ | old
  · exact same
  · rcases List.mem_cons.mp listed with rfl | earlier
    · have inRange := (List.getElem?_eq_some_iff.mp old).choose
      rw [Option.mem_def, List.getElem?_set_self inRange] at isCopy
      exact (Option.some.inj isCopy).symm
    · exact agree other earlier copy old

theorem settled_proceed (stays : cluster.row = some row) (settled : Settled row task)
    (agree : ∀ other ∈ taken, ∀ copy ∈ cluster.copies[other]?, copy = ofRow row)
    (action : proceed cluster task = some (after, next)) :
    after.row = some row ∧ Settled row next ∧
      ∀ other ∈ writeTaken cluster task taken, ∀ copy ∈ after.copies[other]?, copy = ofRow row := by
  cases task with
  | saving replica request current stored => exact settled.elim
  | seeding seed =>
      obtain ⟨rfl, rfl⟩ := Prod.mk.inj (Option.some.inj action)
      refine ⟨?_, trivial, agree⟩
      rw [stays]
      rfl
  | starting stored =>
      obtain ⟨rfl, rfl⟩ := Prod.mk.inj (Option.some.inj action)
      refine ⟨stays, trivial, fun other listed copy isCopy => ?_⟩
      rcases Threads.getElem?_append_singleton isCopy with old | new
      · rcases List.mem_cons.mp listed with rfl | earlier
        · exact absurd (List.getElem?_eq_some_iff.mp old).choose (Nat.lt_irrefl _)
        · exact agree other earlier copy old
      · exact new.trans settled
  | answering replica current saved =>
      obtain ⟨rfl, rfl⟩ := Prod.mk.inj (Option.some.inj action)
      refine ⟨stays, ?_, ?_⟩
      · cases describeSettingsChange current saved with
        | none => exact trivial
        | some detail => exact trivial
      · rw [show saved = ofRow row from settled]
        exact agree_set replica agree
  | refreshed replica stored =>
      obtain ⟨rfl, rfl⟩ := Prod.mk.inj (Option.some.inj action)
      refine ⟨stays, trivial, ?_⟩
      rw [show stored = ofRow row from settled]
      exact agree_set replica agree
  | seeded =>
      obtain ⟨rfl, rfl⟩ := Prod.mk.inj (Option.some.inj action)
      exact ⟨stays, settled_load stays rfl, agree⟩
  | saved replica current =>
      obtain ⟨rfl, rfl⟩ := Prod.mk.inj (Option.some.inj action)
      exact ⟨stays, settled_load stays rfl, agree⟩
  | refreshing replica =>
      obtain ⟨rfl, rfl⟩ := Prod.mk.inj (Option.some.inj action)
      exact ⟨stays, settled_load stays rfl, agree⟩
  | auditing detail =>
      obtain ⟨rfl, rfl⟩ := Prod.mk.inj (Option.some.inj action)
      exact ⟨stays, trivial, agree⟩
  | ended => cases action

theorem settled_step {pool later : TakenPool} {move : Move Empty Occasion Unit}
    (settled : SettledPool row pool) (agree : Agree row pool) (quiet : NoUpdate move)
    (taken : ((replicas parseNet).noted writeTaken).system pool move = some later) :
    SettledPool row later ∧ Agree row later := by
  obtain ⟨stays, tasks⟩ := settled
  revert quiet
  refine Program.noted_cases (motive := fun move later =>
    NoUpdate move → SettledPool row later ∧ Agree row later) ?_ ?_ ?_ taken
  · exact fun event => nomatch event
  · intro occasion after task action quiet
    have spawned : after = pool.shared.1 ∧ Settled row task := by
      cases occasion with
      | start env now =>
          obtain ⟨rfl, rfl⟩ := Prod.mk.inj (Option.some.inj action)
          exact ⟨rfl, trivial⟩
      | update replica request now => exact quiet.elim
      | tick replica =>
          obtain ⟨rfl, rfl⟩ := Prod.mk.inj (Option.some.inj action)
          exact ⟨rfl, trivial⟩
    obtain ⟨rfl, new⟩ := spawned
    exact ⟨⟨stays, Threads.forall_mem_append_singleton tasks new⟩, agree⟩
  · intro thread act before after task present action _
    obtain ⟨still, new, agreed⟩ :=
      settled_proceed stays (tasks before (List.mem_of_getElem? present)) agree action
    exact ⟨⟨still, Threads.forall_mem_set tasks new⟩, agreed⟩

theorem settled_run {pool finish : TakenPool} {moves : List (Move Empty Occasion Unit)}
    (settled : SettledPool row pool) (agree : Agree row pool)
    (quiet : ∀ move ∈ moves, NoUpdate move)
    (run : Transition.exec ((replicas parseNet).noted writeTaken).system pool moves =
      some finish) : SettledPool row finish ∧ Agree row finish := by
  induction moves generalizing pool with
  | nil => exact Option.some.inj run ▸ ⟨settled, agree⟩
  | cons move moves ih =>
      obtain ⟨here, later⟩ := List.forall_mem_cons.mp quiet
      obtain ⟨next, taken, rest⟩ := Option.bind_eq_some_iff.mp run
      obtain ⟨stillSettled, stillAgree⟩ := settled_step settled agree here taken
      exact ih stillSettled stillAgree later rest

end Settled

/-- Once no update is under way, every replica that takes a copy has the settings of the row,
however the replicas go on, until an operator saves again. -/
theorem copies_agree {row : SettingsRow} {cluster : Cluster} {tasks : List Task}
    (settled : SettledPool row ⟨(cluster, []), tasks⟩) {moves : List (Move Empty Occasion Unit)}
    (quiet : ∀ move ∈ moves, NoUpdate move) {finish : TakenPool}
    (run : Transition.exec ((replicas parseNet).noted writeTaken).system ⟨(cluster, []), tasks⟩
      moves = some finish) :
    finish.shared.1.row = some row ∧
      ∀ replica ∈ finish.shared.2, ∀ copy ∈ finish.shared.1.copies[replica]?, copy = ofRow row := by
  obtain ⟨ended, agreed⟩ :=
    settled_run settled (List.forall_mem_nil _) quiet run
  exact ⟨ended.1, agreed⟩

/-- Two replicas on one row, the second with an old copy. -/
def oldCopy : Cluster where
  row := some (toRow { InstanceSettings.default 1 with registrationEnabled := false })
  copies := [{ InstanceSettings.default 1 with registrationEnabled := false },
    InstanceSettings.default 0]
  audit := []

/-- The timer of the second brings its copy up to date. -/
theorem copies_agree_oldCopy :
    ∃ finish : TakenPool, Transition.exec ((replicas fun _ => none).noted writeTaken).system
        ⟨(oldCopy, []), []⟩ [.spawn (.tick 1), .advance 0 (), .advance 0 ()] = some finish ∧
      finish.shared.2 = [1] ∧ (finish.shared.1.row = oldCopy.row ∧
        ∀ replica ∈ finish.shared.2, ∀ copy ∈ finish.shared.1.copies[replica]?,
          copy =
            ofRow (toRow { InstanceSettings.default 1 with registrationEnabled := false })) := by
  have runs : (Transition.exec ((replicas fun _ => none).noted writeTaken).system
      ⟨(oldCopy, []), []⟩ [.spawn (.tick 1), .advance 0 (), .advance 0 ()]).map (·.shared.2) =
        some [1] := by decide +kernel
  obtain ⟨finish, run, refreshed⟩ := Option.map_eq_some_iff.mp runs
  exact ⟨finish, run, refreshed,
    copies_agree ⟨rfl, List.forall_mem_nil _⟩ (by simp [NoUpdate]) run⟩

end Instance
end MindMapVault
