import MindMapVault.Desktop.Commands

/-!
# Files keep what commands promised

While no recovery looks at the files of a rotation that is under way, and the second
rename of a rotation works, the files hold what the commands that returned have promised
whenever no rotation is under way: both old files after a rotation that failed, both new
ones after one that succeeded, and every index written since.
-/

namespace MindMapVault
namespace Desktop

open Threads (Pool Move)

namespace LocalCall

/-- A rotation that holds the lock. -/
def rotates : LocalCall → Bool
  | .rotating _ .waiting => false
  | .rotating _ _ => true
  | _ => false

/-- A command that holds the lock. -/
def holdsLock : LocalCall → Bool
  | .rotating _ .waiting | .editing (.waiting _) => false
  | .rotating _ _ | .editing _ => true
  | _ => false

/-- A recovery that has looked at a file already. -/
def recovers : LocalCall → Bool
  | .recovering .starting => false
  | .recovering _ => true
  | _ => false

/-- A recovery that may do more than drop a staged profile. -/
def promotes : LocalCall → Bool
  | .recovering (.performing ops) => ops.any (· ≠ .removeProfileNew)
  | _ => false

end LocalCall

/-- The files hold what was promised, and no index is staged. -/
def Quiet (shared : LocalShared) : Prop :=
  shared.files.contents = shared.promised ∧ shared.files.indexNew = .absent

/-- What a rotation knows of the files at each stage. -/
def RotationStage.Known (shared : LocalShared) (newProfile : LocalProfile) :
    RotationStage → Prop
  | .waiting | .locked | .read _ | .ending none => Quiet shared
  | .profileStaged _ => Quiet shared ∧ shared.files.profileNew = .holds newProfile
  | .indexStaged stampedIndex =>
      shared.files.contents = shared.promised ∧
        shared.files.profileNew = .holds newProfile ∧ shared.files.indexNew = .holds stampedIndex
  | .profileRenamed stampedIndex =>
      shared.files.profile = .holds newProfile ∧ shared.files.indexNew = .holds stampedIndex
  | .removingProfile indexToo =>
      shared.files.contents = shared.promised ∧ (indexToo = false → shared.files.indexNew = .absent)
  | .removingIndex => shared.files.contents = shared.promised
  | .ending (some stampedIndex) =>
      shared.files.contents = ⟨.holds newProfile, .holds stampedIndex⟩ ∧
        shared.files.indexNew = .absent

/-- What a command knows of the shared state. -/
def LocalCall.Known (shared : LocalShared) (call : LocalCall) : Prop :=
  shared.locked = call.holdsLock ∧
    match call with
    | .rotating request stage => stage.Known shared request.newProfile
    | .editing _ | .recovering _ | .returned => Quiet shared

/-- What is known of the shared state and of the command that holds the lock, if any. -/
def KnownBy (shared : LocalShared) : Option LocalCall → Prop
  | none => shared.locked = false ∧ Quiet shared
  | some call => call.Known shared

/-- A step that breaks nothing: a recovery looks at the files and changes them only while
no rotation is under way, a rotation takes the lock only while no recovery has begun to
look, and the rename of the index does not fail. -/
def Apart (pool : Pool LocalShared LocalCall) :
    Move Empty LocalCommand LocalAct → Prop
  | .outside _ | .spawn _ => True
  | .advance thread act =>
      match pool.threads[thread]? with
      | some (.recovering _) => ∀ call ∈ pool.threads, call.rotates = false
      | some (.rotating _ .waiting) => ∀ call ∈ pool.threads, call.recovers = false
      | some (.rotating _ (.profileRenamed _)) => act ≠ .moved false
      | _ => True

instance (pool : Pool LocalShared LocalCall) (move : Move Empty LocalCommand LocalAct) :
    Decidable (Apart pool move) := by
  unfold Apart
  split
  · exact .isTrue trivial
  · exact .isTrue trivial
  · split
    · exact List.decidableBAll (fun call : LocalCall => call.rotates = false) _
    · exact List.decidableBAll (fun call : LocalCall => call.recovers = false) _
    · infer_instance
    · exact .isTrue trivial

/-- Whenever no rotation is under way, the files hold what was promised. -/
def Kept (pool : Pool LocalShared LocalCall) : Prop :=
  (∀ call ∈ pool.threads, call.rotates = false) → pool.shared.files.contents = pool.shared.promised

instance (pool : Pool LocalShared LocalCall) : Decidable (Kept pool) :=
  have := List.decidableBAll (fun call : LocalCall => call.rotates = false) pool.threads
  inferInstanceAs (Decidable (_ → _))

section Steps

variable {mac : String → String} {shared next : LocalShared} {act : LocalAct}
variable {after : LocalCall}

/-- One action of a rotation that holds the lock. -/
theorem rotation_known {request : RotationRequest} {stage : RotationStage}
    (holdsLock : (LocalCall.rotating request stage).holdsLock = true)
    (locked : shared.locked = true) (files : stage.Known shared request.newProfile)
    (renames : ∀ stampedIndex, stage = .profileRenamed stampedIndex → act ≠ .moved false)
    (action : advanceRotation mac shared request stage act = some (next, after)) :
    after.Known next := by
  revert action
  fun_cases advanceRotation mac shared request stage act with
  | case1 => nofun
  | case2 => exact absurd holdsLock (by simp [LocalCall.holdsLock])
  | case3 =>
      rintro ⟨⟩
      cases readIndex shared.files.index with
      | ok index => exact ⟨locked, files⟩
      | error error => exact ⟨locked, files⟩
  | case4 index written =>
      rintro ⟨⟩
      cases written with
      | done => exact ⟨locked, files, rfl⟩
      | refused => exact ⟨locked, files.1, fun _ => files.2⟩
      | torn => exact ⟨locked, files.1, fun _ => files.2⟩
  | case5 index =>
      rintro ⟨⟩
      exact ⟨locked, files.1⟩
  | case6 index written stampedIndex =>
      rintro ⟨⟩
      cases written with
      | done => exact ⟨locked, files.1.1, files.2, rfl⟩
      | refused => exact ⟨locked, files.1.1, nofun⟩
      | torn => exact ⟨locked, files.1.1, nofun⟩
  | case7 stampedIndex works possible =>
      rintro ⟨⟩
      obtain ⟨_, profileNew, indexNew⟩ := files
      have renamed : (shared.perform .renameProfile).files =
          { shared.files with
            profile := shared.files.profileNew, profileNew := .absent } :=
        if_pos (Bool.and_eq_true _ _ ▸ possible).2
      refine ⟨locked, ?_, ?_⟩
      · rw [renamed]
        exact profileNew
      · rw [renamed]
        exact indexNew
  | case8 stampedIndex works impossible =>
      rintro ⟨⟩
      exact ⟨locked, files.1, nofun⟩
  | case9 stampedIndex works possible =>
      rintro ⟨⟩
      obtain ⟨profile, indexNew⟩ := files
      have renamed : (shared.perform .renameIndex).files =
          { shared.files with
            index := shared.files.indexNew, indexNew := .absent } :=
        if_pos (Bool.and_eq_true _ _ ▸ possible).2
      refine ⟨locked, ?_, ?_⟩
      · rw [renamed, LocalFiles.contents, profile, indexNew]
      · rw [renamed]
  | case10 stampedIndex works impossible =>
      rw [files.2] at impossible
      cases works with
      | true => exact absurd rfl impossible
      | false => exact absurd rfl (renames stampedIndex rfl)
  | case11 indexToo =>
      rintro ⟨⟩
      cases indexToo with
      | true => exact ⟨locked, files.1⟩
      | false => exact ⟨locked, files.1, files.2 rfl⟩
  | case12 =>
      rintro ⟨⟩
      exact ⟨locked, files, rfl⟩
  | case13 rotated =>
      rintro ⟨⟩
      cases rotated with
      | none => exact ⟨rfl, files⟩
      | some stampedIndex => exact ⟨rfl, files⟩
  | case14 => nofun

/-- One action of an index write that holds the lock. -/
theorem edit_known {stage : EditStage} (holdsLock : (LocalCall.editing stage).holdsLock = true)
    (locked : shared.locked = true) (quiet : Quiet shared)
    (action : advanceEdit mac shared stage act = some (next, after)) :
    after.Known next := by
  revert action
  fun_cases advanceEdit mac shared stage act with
  | case1 edit => nofun
  | case2 edit => exact absurd holdsLock (by simp [LocalCall.holdsLock])
  | case3 edit =>
      rintro ⟨⟩
      cases (readIndex shared.files.index).toOption.bind edit with
      | none => exact ⟨locked, quiet⟩
      | some index => exact ⟨locked, quiet⟩
  | case4 index works =>
      rintro ⟨⟩
      cases works with
      | true => exact ⟨locked, congrArg (fun contents => { contents with
          index := File.holds (stampIndexForWrite mac index) }) quiet.1, quiet.2⟩
      | false => exact ⟨locked, quiet⟩
  | case5 =>
      rintro ⟨⟩
      exact ⟨rfl, quiet⟩
  | case6 => nofun

/-- A command that has no lock knows what is known without one. -/
theorem known_rests {call : LocalCall} (idle : call.holdsLock = false) (known : call.Known shared) :
    KnownBy shared none := by
  obtain ⟨locked, files⟩ := known
  refine ⟨locked.trans idle, ?_⟩
  cases call with
  | rotating request stage =>
      cases stage with
      | waiting => exact files
      | _ => simp [LocalCall.holdsLock] at idle
  | editing stage => exact files
  | recovering stage => exact files
  | returned => exact files

/-- Where no rotation holds the lock, the files hold what was promised. -/
theorem quiet_of_knownBy {worker : Option LocalCall} (known : KnownBy shared worker)
    (noRotation : ∀ call ∈ worker, call.rotates = false) : Quiet shared := by
  cases worker with
  | none => exact known.2
  | some call =>
      have files := known.2
      cases call with
      | rotating request stage =>
          have idle := noRotation _ rfl
          cases stage with
          | waiting => exact files
          | _ => simp [LocalCall.rotates] at idle
      | editing stage => exact files
      | recovering stage => exact files
      | returned => exact files

/-- What is staged for the profile matters to rotations only. -/
theorem knownBy_profileNew {worker : Option LocalCall} (known : KnownBy shared worker)
    (noRotation : ∀ call ∈ worker, call.rotates = false) (staged : File LocalProfile) :
    KnownBy { shared with files := { shared.files with profileNew := staged } } worker := by
  have quiet := quiet_of_knownBy known noRotation
  cases worker with
  | none => exact ⟨known.1, quiet⟩
  | some call =>
      refine ⟨known.1, ?_⟩
      cases call with
      | rotating request stage =>
          have idle := noRotation _ rfl
          cases stage with
          | waiting => exact quiet
          | _ => simp [LocalCall.rotates] at idle
      | editing stage => exact quiet
      | recovering stage => exact quiet
      | returned => exact quiet

/-- Whoever finds the lock free is alone. -/
theorem alone_of_unlocked {worker : Option LocalCall} (known : KnownBy shared worker)
    (active : ∀ call ∈ worker, call.holdsLock = true)
    (unlocked : ¬ shared.locked = true) : worker = none ∧ Quiet shared := by
  cases worker with
  | none => exact ⟨rfl, known.2⟩
  | some call => exact absurd (known.1.trans (active call rfl)) unlocked

/-- One action of a command that has no lock: it takes the lock where it is free, or
leaves what is known. -/
theorem idle_known {pool : Pool LocalShared LocalCall} {thread : Nat} {before : LocalCall}
    {worker : Option LocalCall}
    (idle : before.holdsLock = false) (harmless : before.promotes = false)
    (known : KnownBy pool.shared worker) (apart : Apart pool (.advance thread act))
    (inPool : ∀ call ∈ worker, call ∈ pool.threads)
    (active : ∀ call ∈ worker, call.holdsLock = true) (stands : pool.threads[thread]? = some before)
    (action : advanceLocal mac pool.shared before act = some (next, after)) :
    after.holdsLock = false ∧ KnownBy next worker ∨ worker = none ∧ KnownBy next (some after) := by
  cases before with
  | rotating request stage =>
      cases stage with
      | waiting =>
          cases act with
          | step =>
              simp only [advanceLocal, advanceRotation] at action
              split_ifs at action with locked
              cases action
              obtain ⟨alone, quiet⟩ := alone_of_unlocked known active locked
              exact .inr ⟨alone, rfl, quiet⟩
          | _ => simp [advanceLocal, advanceRotation] at action
      | _ => simp [LocalCall.holdsLock] at idle
  | editing stage =>
      cases stage with
      | waiting edit =>
          cases act with
          | step =>
              simp only [advanceLocal, advanceEdit] at action
              split_ifs at action with locked
              cases action
              obtain ⟨alone, quiet⟩ := alone_of_unlocked known active locked
              exact .inr ⟨alone, rfl, quiet⟩
          | _ => simp [advanceLocal, advanceEdit] at action
      | _ => simp [LocalCall.holdsLock] at idle
  | recovering stage =>
      simp only [Apart, stands] at apart
      have noRotation : ∀ call ∈ worker, call.rotates = false := fun call isWorker =>
        apart call (inPool call isWorker)
      revert action
      simp only [advanceLocal]
      fun_cases advanceRecovery pool.shared stage act with
      | case1 =>
          rintro ⟨⟩
          exact .inl ⟨rfl, known⟩
      | case2 profileNew =>
          rintro ⟨⟩
          exact .inl ⟨rfl, known⟩
      | case3 =>
          rintro ⟨⟩
          exact .inl ⟨rfl, known⟩
      | case4 op ops works =>
          rintro ⟨⟩
          have drops : op = .removeProfileNew := by
            simp only [LocalCall.promotes, List.any_cons, Bool.or_eq_false_iff] at harmless
            simpa using harmless.1
          subst drops
          cases works with
          | true => exact .inl ⟨rfl, knownBy_profileNew known noRotation .absent⟩
          | false => exact .inl ⟨rfl, known⟩
      | case5 => nofun
  | returned => simp [advanceLocal] at action

/-- A command that starts leaves the files and takes no lock. -/
theorem spawn_idle {active : String} {command : LocalCommand}
    (action : spawnLocal active shared command = some (next, after)) :
    next = shared ∧ after.holdsLock = false ∧ after.promotes = false := by
  revert action
  fun_cases spawnLocal active shared command with
  | case1 => nofun
  | case2 =>
      rintro ⟨⟩
      exact ⟨rfl, rfl, rfl⟩
  | case3 => nofun
  | case4 =>
      rintro ⟨⟩
      exact ⟨rfl, rfl, rfl⟩
  | case5 =>
      rintro ⟨⟩
      exact ⟨rfl, rfl, rfl⟩

/-- Only a recovery that finds a staged index goes on to do more than drop a staged
profile. -/
theorem advance_harmless {before : LocalCall} (harmless : before.promotes = false)
    (unstaged : ∀ profileNew, before = .recovering (.sawProfile profileNew) →
      shared.files.indexNew = .absent)
    (action : advanceLocal mac shared before act = some (next, after)) :
    after.promotes = false := by
  revert action
  cases before with
  | rotating request stage =>
      simp only [advanceLocal]
      fun_cases advanceRotation mac shared request stage act <;> rintro ⟨⟩ <;> rfl
  | editing stage =>
      simp only [advanceLocal]
      fun_cases advanceEdit mac shared stage act <;> rintro ⟨⟩ <;> rfl
  | recovering stage =>
      simp only [advanceLocal]
      fun_cases advanceRecovery shared stage act with
      | case1 =>
          rintro ⟨⟩
          rfl
      | case2 profileNew =>
          rintro ⟨⟩
          rw [unstaged profileNew rfl]
          cases profileNew <;> rfl
      | case3 =>
          rintro ⟨⟩
          rfl
      | case4 op ops works =>
          rintro ⟨⟩
          simp only [LocalCall.promotes, List.any_cons, Bool.or_eq_false_iff] at harmless
          exact harmless.2
      | case5 => nofun
  | returned => nofun

end Steps

/-- Beside what is known of the command that holds the lock: no recovery is about to do
more than drop a staged profile. -/
def InOrder (pool : Pool LocalShared LocalCall) : Prop :=
  Threads.Exclusive LocalCall.holdsLock KnownBy pool ∧ ∀ call ∈ pool.threads, call.promotes = false

section Run

variable {mac : String → String} {active : String}

/-- A recovery that looks while no rotation is under way finds no staged index. -/
theorem harmless_preserved
    (pool : Pool LocalShared LocalCall) (move : Move Empty LocalCommand LocalAct)
    (next : Pool LocalShared LocalCall) (inOrder : InOrder pool) (apart : Apart pool move)
    (taken : (localProgram mac active).system pool move = some next) :
    ∀ call ∈ next.threads, call.promotes = false := by
  obtain ⟨exclusive, harmless⟩ := inOrder
  revert apart
  refine Threads.Program.system_cases (motive := fun move next =>
    Apart pool move → ∀ call ∈ next.threads, call.promotes = false) ?_ ?_ ?_ taken
  · intro event
    exact event.elim
  · intro command shared new action _
    exact Threads.forall_mem_append_singleton harmless (spawn_idle action).2.2
  · intro thread act before shared after stands action apart
    have present := List.mem_of_getElem? stands
    refine Threads.forall_mem_set harmless (advance_harmless (harmless before present) ?_ action)
    rintro profileNew rfl
    simp only [Apart, stands] at apart
    obtain ⟨worker, others, arranged, _, _, known⟩ := exclusive
    refine (quiet_of_knownBy known fun call isWorker => apart call ?_).2
    rw [arranged.mem_iff, List.mem_append, Option.mem_toList]
    exact .inl isWorker

/-- Steps that keep rotations and recoveries apart keep everything in order. -/
theorem inOrder_preserved
    (pool : Pool LocalShared LocalCall) (move : Move Empty LocalCommand LocalAct)
    (next : Pool LocalShared LocalCall) (inOrder : InOrder pool) (apart : Apart pool move)
    (taken : (localProgram mac active).system pool move = some next) :
    InOrder next := by
  refine ⟨?_, harmless_preserved pool move next inOrder apart taken⟩
  refine Threads.exclusive_preserved
    (fun pool move => (∀ call ∈ pool.threads, call.promotes = false) ∧ Apart pool move)
    (fun _ _ => known_rests) ?_ ?_ ?_ ?_ pool move next inOrder.1 ⟨inOrder.2, apart⟩ taken
  · intro pool event
    exact event.elim
  · intro pool command shared new worker known _ _ _ action
    obtain ⟨rfl, idle, _⟩ := spawn_idle action
    exact .inl ⟨idle, known⟩
  · intro pool thread act before shared after holdsLock known ⟨_, apart⟩ stands action
    obtain ⟨locked, files⟩ := known
    rw [holdsLock] at locked
    cases before with
    | rotating request stage =>
        refine rotation_known holdsLock locked files ?_ action
        rintro stampedIndex rfl
        simpa only [Apart, stands] using apart
    | editing stage => exact edit_known holdsLock locked files action
    | recovering stage => simp [LocalCall.holdsLock] at holdsLock
    | returned => simp [LocalCall.holdsLock] at holdsLock
  · intro pool thread act before shared after worker idle known ⟨harmless, apart⟩ inPool
      active stands action
    exact idle_known idle (harmless before (List.mem_of_getElem? stands)) known apart
      inPool active stands action

/-- In a run that keeps rotations and recoveries apart, and in which no rename of the
index by a rotation fails, the files hold what was promised whenever no rotation is under
way. -/
theorem kept_of_apart (mac : String → String) (active : String)
    (profile : LocalProfile) (index : VaultIndex) (moves : List (Move Empty LocalCommand LocalAct))
    (apart : Transition.EveryStepAllowed (localProgram mac active).system Apart
      (startLocal profile index) moves) :
    Transition.EveryState (localProgram mac active).system Kept
      (startLocal profile index) moves := by
  refine Transition.everyState_of_allowed inOrder_preserved ?_ ?_ apart
  · rintro pool ⟨⟨worker, others, arranged, _, _, known⟩, _⟩ noRotation
    refine (quiet_of_knownBy known fun call isWorker => noRotation call ?_).1
    rw [arranged.mem_iff, List.mem_append, Option.mem_toList]
    exact .inl isWorker
  · refine ⟨⟨none, [], .refl _, by simp, by simp, rfl, rfl, rfl⟩, ?_⟩
    simp [startLocal]

end Run

/-- A rotation of the sample store. -/
def sampleRotation : LocalCommand := .rotate ⟨sampleProfile "new", [⟨"v", "new title", none⟩]⟩

/-- A rotation fails to stage the index and clears up, a recovery finds nothing, a second
rotation succeeds, and an index write that had been waiting goes through. -/
theorem kept_of_apart_secondRotation :
    Transition.EveryState (localProgram id "ada").system Kept
      (startLocal (sampleProfile "old") (sampleIndex "old title"))
      [.spawn sampleRotation, .spawn (.edit fun index => some ⟨index.vaults.drop 1⟩),
        .spawn .recover, .advance 0 .step, .advance 0 .step, .advance 0 (.wrote .done),
        .advance 0 (.wrote .torn), .advance 0 .step, .advance 0 .step, .advance 0 .step,
        .advance 2 .step, .advance 2 .step, .advance 2 .step, .spawn sampleRotation,
        .advance 3 .step, .advance 3 .step, .advance 3 (.wrote .done),
        .advance 3 (.wrote .done), .advance 3 (.moved true), .advance 3 (.moved true),
        .advance 3 .step, .advance 1 .step, .advance 1 .step, .advance 1 (.moved true),
        .advance 1 .step] :=
  kept_of_apart id "ada" _ _ _ (by decide)

/-- The second rename of a rotation fails: the rotation answers with an error, and has
replaced the profile. -/
theorem failed_rename_replaces_profile :
    ¬ ∀ (mac : String → String) (active : String) (profile : LocalProfile)
        (index : VaultIndex) (moves : List (Move Empty LocalCommand LocalAct)),
      Transition.EveryState (localProgram mac active).system Kept
        (startLocal profile index) moves := by
  intro always
  have kept := always id "ada" (sampleProfile "old") (sampleIndex "old title")
    [.spawn sampleRotation, .advance 0 .step, .advance 0 .step, .advance 0 (.wrote .done),
      .advance 0 (.wrote .done), .advance 0 (.moved true), .advance 0 (.moved false),
      .advance 0 .step]
  revert kept
  decide

end Desktop
end MindMapVault
