import MindMapVault.Offline.Interleaved

/-!
# Every entry once

While one call at a time executes entries, and nothing is carried out unheard, an entry
that was carried out is out of the queue or about to leave it, and what a call still has
to send was not carried out yet. The flag keeps two drains apart once the first of them
has set it; between its guard and the flag it does not.
-/

namespace MindMapVault
namespace Offline

open Remote (Outcome)
open Threads (Pool Move)

namespace SyncCall

/-- Whether a call executes entries, now or later. -/
def executes : SyncCall → Bool
  | .guarded | .loaded _ | .resolving _ | .looping _ _ | .working _ _ _ _ => true
  | .discarding _ | .clearing _ | .finished => false

/-- A drain past its guard that has not set the flag yet. -/
def starting : SyncCall → Bool
  | .guarded | .loaded _ => true
  | _ => false

/-- A resolution that keeps the local edits. -/
def keepsLocal : SyncCall → Bool
  | .resolving _ | .looping .keepLocal _ | .working .keepLocal _ _ _ => true
  | _ => false

/-- A drain in its loop. -/
def loops : SyncCall → Bool
  | .looping .drain _ | .working .drain _ _ _ => true
  | _ => false

/-- A drain that is about to drop an entry for its failures. -/
def drops : SyncCall → Bool
  | .working _ .dropping _ _ => true
  | _ => false

/-- The entry whose failure is counted next. -/
def failing : SyncCall → Option SyncQueueEntry
  | .working _ .failed entry _ => some entry
  | _ => none

/-- The entries a call may still send. -/
def awaiting : SyncCall → List Nat
  | .loaded queue => queue.map (·.seq)
  | .looping _ rest => rest.map (·.seq)
  | .working _ .checking entry rest | .working _ .sending entry rest =>
      entry.seq :: rest.map (·.seq)
  | .working _ _ _ rest => rest.map (·.seq)
  | _ => []

/-- The entry that was carried out and is still queued. -/
def delivered : SyncCall → List Nat
  | .working _ .refreshing entry _ | .working _ .dequeuing entry _ => [entry.seq]
  | _ => []

section Moves

variable (purpose : Purpose) (entry : SyncQueueEntry) (rest : List SyncQueueEntry)

/-- Where a call goes with an entry: what it still has to send, what it has delivered,
and that it stays the kind of call it is. -/
theorem enter_spec :
    (enter purpose entry rest).awaiting = entry.seq :: rest.map (·.seq) ∧
      (enter purpose entry rest).delivered = [] ∧
        (enter purpose entry rest).loops = (looping purpose rest).loops ∧
          (enter purpose entry rest).drops = false := by
  unfold enter
  cases purpose with
  | drain => cases entry.op <;> exact ⟨rfl, rfl, rfl, rfl⟩
  | keepLocal => exact ⟨rfl, rfl, rfl, rfl⟩

theorem answered_spec :
    (answered purpose entry rest).awaiting = rest.map (·.seq) ∧
      (answered purpose entry rest).delivered = [entry.seq] ∧
        (answered purpose entry rest).loops = (looping purpose rest).loops ∧
          (answered purpose entry rest).drops = false := by
  unfold answered
  cases entry.op <;> cases purpose <;> exact ⟨rfl, rfl, rfl, rfl⟩

theorem caught_spec :
    (caught purpose entry rest).awaiting = rest.map (·.seq) ∧
      (caught purpose entry rest).delivered = [] ∧
        (caught purpose entry rest).loops = (looping purpose rest).loops ∧
          (caught purpose entry rest).drops = false := by
  cases purpose <;> exact ⟨rfl, rfl, rfl, rfl⟩

theorem loops_working (stage : Stage) :
    (working purpose stage entry rest).loops = (looping purpose rest).loops := by
  cases purpose <;> rfl

theorem loops_looping (other : List SyncQueueEntry) :
    (looping purpose rest).loops = (looping purpose other).loops := by
  cases purpose <;> rfl

end Moves

/-- Whoever executes entries is a drain at its start, a drain in its loop or a
resolution. -/
theorem executes_cases {call : SyncCall} (executing : call.executes = true) :
    call.starting = true ∨ call.keepsLocal = true ∨ call.loops = true := by
  cases call with
  | guarded => exact .inl rfl
  | loaded queue => exact .inl rfl
  | resolving vaultId => exact .inr (.inl rfl)
  | looping purpose rest =>
      cases purpose with
      | drain => exact .inr (.inr rfl)
      | keepLocal => exact .inr (.inl rfl)
  | working purpose stage entry rest =>
      cases purpose with
      | drain => exact .inr (.inr rfl)
      | keepLocal => exact .inr (.inl rfl)
  | discarding vaultId => simp [executes] at executing
  | clearing rest => simp [executes] at executing
  | finished => simp [executes] at executing

end SyncCall

/-- The shared state, while these entries were carried out without having left the queue
and those may still be sent. -/
structure Accounted (shared : SyncShared) (delivered awaiting : List Nat) : Prop where
  once : shared.executed.Nodup
  numbered : ∀ seq ∈ shared.executed, seq < shared.queue.nextSeq
  kept : ∀ seq < shared.queue.nextSeq, 0 < seq →
    shared.queue.Queued seq ∨ seq ∈ shared.executed ∨ seq ∈ shared.discarded
  tried : ∀ entry ∈ shared.queue.entries.rows, entry.attempts ≤ 2
  carriedOut : ∀ seq ∈ delivered, seq ∈ shared.executed
  undelivered : ∀ entry ∈ shared.queue.entries.rows,
    entry.seq ∈ shared.executed → entry.seq ∈ delivered
  distinct : awaiting.Nodup
  awaited : ∀ seq ∈ awaiting, seq < shared.queue.nextSeq ∧ seq ∉ shared.executed

namespace Accounted

variable {shared : SyncShared} {delivered awaiting : List Nat} {seq : Nat}

/-- A call may drop entries from what it still has to send. -/
theorem fewer (accounted : Accounted shared delivered awaiting) {fewer : List Nat}
    (sublist : fewer.Sublist awaiting) : Accounted shared delivered fewer :=
  { accounted with
    distinct := accounted.distinct.sublist sublist
    awaited := fun seq present => accounted.awaited seq (sublist.subset present) }

/-- The flag does not matter. -/
theorem flag (accounted : Accounted shared delivered awaiting) (draining : Bool) :
    Accounted { shared with draining := draining } delivered awaiting :=
  { accounted with }

/-- What a call reads from the queue was not carried out, as long as nothing that was is
still queued. -/
theorem read (accounted : Accounted shared [] awaiting) :
    Accounted shared [] (shared.queue.entries.rows.map (·.seq)) :=
  { accounted with
    distinct := shared.queue.entries.distinct
    awaited := by
      intro seq present
      obtain ⟨entry, queued, rfl⟩ := List.mem_map.mp present
      refine ⟨shared.queue.numbered entry queued, fun executed => ?_⟩
      exact absurd (accounted.undelivered entry queued executed) List.not_mem_nil }

/-- The server carries out an entry that was awaiting it. -/
theorem execute (accounted : Accounted shared [] (seq :: awaiting)) :
    Accounted (shared.record .done seq) [seq] awaiting where
  once := by
    have new := (accounted.awaited seq List.mem_cons_self).2
    exact List.nodup_append.mpr ⟨accounted.once, List.nodup_singleton seq, by
      rintro old executed added last rfl
      exact new (List.mem_singleton.mp last ▸ executed)⟩
  numbered := by
    intro other executed
    rcases List.mem_append.mp executed with old | added
    · exact accounted.numbered other old
    · rw [List.mem_singleton.mp added]
      exact (accounted.awaited seq List.mem_cons_self).1
  kept := by
    intro other numbered positive
    rcases accounted.kept other numbered positive with queued | executed | discarded
    · exact .inl queued
    · exact .inr (.inl (List.mem_append_left _ executed))
    · exact .inr (.inr discarded)
  tried := accounted.tried
  carriedOut := by
    intro other present
    rw [List.mem_singleton.mp present]
    exact List.mem_append_right _ List.mem_cons_self
  undelivered := by
    intro entry queued executed
    rcases List.mem_append.mp executed with old | added
    · exact absurd (accounted.undelivered entry queued old) List.not_mem_nil
    · exact added
  distinct := (List.nodup_cons.mp accounted.distinct).2
  awaited := by
    intro other present
    obtain ⟨numbered, notExecuted⟩ := accounted.awaited other (List.mem_cons_of_mem _ present)
    refine ⟨numbered, fun executed => ?_⟩
    rcases List.mem_append.mp executed with old | added
    · exact notExecuted old
    · rw [List.mem_singleton.mp added] at present
      exact (List.nodup_cons.mp accounted.distinct).1 present

/-- An entry that was carried out leaves the queue. -/
theorem dequeue (accounted : Accounted shared [seq] awaiting) :
    Accounted { shared with queue := shared.queue.dequeue seq } [] awaiting :=
  { accounted with
    kept := by
      intro other numbered positive
      by_cases same : other = seq
      · rw [same]
        exact .inr (.inl (accounted.carriedOut seq List.mem_cons_self))
      · rcases accounted.kept other numbered positive with queued | elsewhere
        · exact .inl (SyncQueue.queued_dequeue.mpr ⟨queued, same⟩)
        · exact .inr elsewhere
    tried := fun entry present =>
      accounted.tried entry (Table.mem_rows_delete.mp present).1
    carriedOut := by simp
    undelivered := by
      intro entry present executed
      obtain ⟨queued, differs⟩ := Table.mem_rows_delete.mp present
      have same := accounted.undelivered entry queued executed
      rw [List.mem_singleton] at same
      simp [same] at differs }

/-- The user gives an entry up. -/
theorem discard (accounted : Accounted shared delivered awaiting) (seq : Nat) :
    Accounted
      { shared with
        queue := shared.queue.dequeue seq
        discarded := shared.discarded ++ [seq] } delivered awaiting :=
  { accounted with
    kept := by
      intro other numbered positive
      by_cases same : other = seq
      · rw [same]
        exact .inr (.inr (List.mem_append_right _ List.mem_cons_self))
      · rcases accounted.kept other numbered positive with queued | executed | discarded
        · exact .inl (SyncQueue.queued_dequeue.mpr ⟨queued, same⟩)
        · exact .inr (.inl executed)
        · exact .inr (.inr (List.mem_append_left _ discarded))
    tried := fun entry present =>
      accounted.tried entry (Table.mem_rows_delete.mp present).1
    undelivered := fun entry present =>
      accounted.undelivered entry (Table.mem_rows_delete.mp present).1 }

/-- A failure that is not the third one is counted. -/
theorem count (accounted : Accounted shared delivered awaiting)
    (again : ∀ entry ∈ shared.queue.entries.find? seq, entry.attempts < 2) :
    Accounted { shared with queue := shared.queue.incrementAttempts seq } delivered awaiting :=
  { accounted with
    kept := by
      intro other numbered positive
      rcases accounted.kept other numbered positive with queued | elsewhere
      · exact .inl (SyncQueue.queued_incrementAttempts.mpr queued)
      · exact .inr elsewhere
    tried := by
      intro entry present
      obtain ⟨old, queued, rfl⟩ := SyncQueue.mem_incrementAttempts.mp present
      split_ifs with counted
      · have found : shared.queue.entries.find? seq = some old :=
          Table.find?_eq_some.mpr ⟨queued, by simpa using counted⟩
        have fewer := again old found
        simp only [SyncQueue.retried]
        omega
      · exact accounted.tried old queued
    undelivered := by
      intro entry present executed
      obtain ⟨old, queued, rfl⟩ := SyncQueue.mem_incrementAttempts.mp present
      split_ifs at executed ⊢
      · exact accounted.undelivered old queued executed
      · exact accounted.undelivered old queued executed }

/-- A new entry arrives. -/
theorem enqueue (accounted : Accounted shared delivered awaiting) (op : SyncOp) (vaultId : String) :
    Accounted { shared with queue := shared.queue.enqueue op vaultId } delivered awaiting :=
  { accounted with
    numbered := fun other executed =>
      Nat.lt_succ_of_lt (accounted.numbered other executed)
    kept := by
      intro other numbered positive
      rcases Nat.lt_succ_iff_lt_or_eq.mp numbered with old | rfl
      · rcases accounted.kept other old positive with queued | elsewhere
        · exact .inl (SyncQueue.queued_enqueue.mpr (.inl queued))
        · exact .inr elsewhere
      · exact .inl (SyncQueue.queued_enqueue.mpr (.inr rfl))
    tried := by
      intro entry present
      rcases (Table.mem_rows_insert shared.queue.nextSeq_new).mp present with old | rfl
      · exact accounted.tried entry old
      · exact Nat.zero_le 2
    undelivered := by
      intro entry present executed
      rcases (Table.mem_rows_insert shared.queue.nextSeq_new).mp present with old | rfl
      · exact accounted.undelivered entry old executed
      · exact absurd (accounted.numbered _ executed) (Nat.lt_irrefl _)
    awaited := fun other present =>
      ⟨Nat.lt_succ_of_lt (accounted.awaited other present).1, (accounted.awaited other present).2⟩ }

end Accounted

/-- What is known of the shared state and of the call that executes entries, if any. -/
structure Executing (shared : SyncShared) (call : Option SyncCall) : Prop where
  accounted : Accounted shared (call.elim [] SyncCall.delivered) (call.elim [] SyncCall.awaiting)
  flagged : ∀ loop ∈ call, loop.loops = true → shared.draining = true
  keeps : ∀ loop ∈ call, loop.drops = false

/-- A step that breaks nothing: no drain starts while another one is at its start or
while local edits are kept, local edits are kept while nothing else executes entries, no
write and no refresh goes unanswered once it was carried out, and no entry fails for the
third time. -/
def Undisturbed (pool : Pool SyncShared SyncCall) :
    Move Enqueue SyncRequest SyncAct → Prop
  | .outside _ => True
  | .spawn .drainSyncQueue =>
      ∀ call ∈ pool.threads, call.starting = false ∧ call.keepsLocal = false
  | .spawn (.resolveConflict _ .keepLocal) =>
      ∀ call ∈ pool.threads, call.executes = false
  | .spawn (.resolveConflict _ .keepServer) => True
  | .advance _ (.checked _) => True
  | .advance _ (.requested outcome) => outcome ≠ .unanswered
  | .advance _ (.refreshed answered) => answered = true
  | .advance thread .step =>
      ∀ entry ∈ pool.threads[thread]?.bind SyncCall.failing,
        ∀ queued ∈ pool.shared.queue.entries.find? entry.seq, queued.attempts < 2

instance (pool : Pool SyncShared SyncCall) (move : Move Enqueue SyncRequest SyncAct) :
    Decidable (Undisturbed pool move) :=
  match move with
  | .outside _ | .spawn (.resolveConflict _ .keepServer) | .advance _ (.checked _) =>
      .isTrue trivial
  | .spawn .drainSyncQueue =>
      List.decidableBAll (fun call : SyncCall =>
        call.starting = false ∧ call.keepsLocal = false) _
  | .spawn (.resolveConflict _ .keepLocal) =>
      List.decidableBAll (fun call : SyncCall => call.executes = false) _
  | .advance _ (.requested outcome) => inferInstanceAs (Decidable (outcome ≠ .unanswered))
  | .advance _ (.refreshed answered) => inferInstanceAs (Decidable (answered = true))
  | .advance thread .step =>
      inferInstanceAs (Decidable (∀ entry ∈ pool.threads[thread]?.bind SyncCall.failing,
        ∀ queued ∈ pool.shared.queue.entries.find? entry.seq, queued.attempts < 2))

namespace Executing

variable {shared : SyncShared} {before after : SyncCall}

/-- What has to be known of a call. -/
theorem of_call (accounted : Accounted shared after.delivered after.awaiting)
    (flagged : after.loops = true → shared.draining = true)
    (keeps : after.drops = false) : Executing shared (some after) where
  accounted := accounted
  flagged := by
    rintro loop ⟨⟩
    exact flagged
  keeps := by
    rintro loop ⟨⟩
    exact keeps

/-- A step that leaves the shared state: the call may only have less to send. -/
theorem go_on (executing : Executing shared (some before))
    (delivered : after.delivered = before.delivered)
    (awaiting : after.awaiting.Sublist before.awaiting)
    (loops : after.loops = true → before.loops = true)
    (keeps : after.drops = false) : Executing shared (some after) := by
  refine of_call ?_ (fun looping => executing.flagged before rfl (loops looping)) keeps
  rw [delivered]
  exact executing.accounted.fewer awaiting

/-- A failure leaves the entry queued, and the call goes on without it. -/
theorem catches {purpose : Purpose} {entry : SyncQueueEntry} {rest : List SyncQueueEntry}
    (executing : Executing shared (some before)) (delivered : before.delivered = [])
    (awaiting : (rest.map (·.seq)).Sublist before.awaiting)
    (loops : (SyncCall.looping purpose rest).loops = true → before.loops = true) :
    Executing shared (some (.caught purpose entry rest)) := by
  obtain ⟨others, nothing, sameKind, keeps⟩ := SyncCall.caught_spec purpose entry rest
  refine executing.go_on (nothing.trans delivered.symm) ?_ ?_ keeps
  · rw [others]
    exact awaiting
  · rw [sameKind]
    exact loops

/-- The server answered a write that it carried out. -/
theorem delivers {purpose : Purpose} {entry : SyncQueueEntry} {rest : List SyncQueueEntry}
    (executing : Executing shared (some (.working purpose .sending entry rest))) :
    Executing (shared.record .done entry.seq) (some (.answered purpose entry rest)) := by
  obtain ⟨others, delivered, sameKind, keeps⟩ := SyncCall.answered_spec purpose entry rest
  refine of_call ?_ ?_ keeps
  · rw [others, delivered]
    exact executing.accounted.execute
  · rw [sameKind, ← SyncCall.loops_working purpose entry rest .sending]
    exact executing.flagged _ rfl

end Executing

/-- A step of the call that executes entries. -/
theorem working_step {pool : Pool SyncShared SyncCall} {thread : Nat} {act : SyncAct}
    {before after : SyncCall} {shared : SyncShared}
    (executing : Executing pool.shared (some before))
    (undisturbed : Undisturbed pool (.advance thread act))
    (present : pool.threads[thread]? = some before)
    (action : advanceSync pool.shared before act = some (shared, after)) :
    Executing shared (some after) := by
  have accounted := executing.accounted
  have flagged := executing.flagged before rfl
  simp only [Option.elim_some] at accounted
  revert action
  fun_cases advanceSync pool.shared before act with
  | case1 =>
      rintro ⟨⟩
      exact .of_call accounted.read nofun rfl
  | case2 =>
      rintro ⟨⟩
      exact executing.go_on rfl (List.Sublist.refl _) nofun rfl
  | case3 entry rest =>
      rintro ⟨⟩
      exact .of_call (accounted.flag true) (fun _ => rfl) rfl
  | case4 vaultId =>
      rintro ⟨⟩
      exact .of_call (accounted.read.fewer (List.filter_sublist.map _)) nofun rfl
  | case5 =>
      rintro ⟨⟩
      exact .of_call (accounted.flag false) nofun rfl
  | case6 =>
      rintro ⟨⟩
      exact executing.go_on rfl (List.Sublist.refl _) nofun rfl
  | case7 purpose entry rest =>
      rintro ⟨⟩
      obtain ⟨awaiting, delivered, sameKind, keeps⟩ := SyncCall.enter_spec purpose entry rest
      refine executing.go_on delivered (awaiting ▸ List.Sublist.refl _) ?_ keeps
      rw [sameKind, SyncCall.loops_looping purpose rest (entry :: rest)]
      exact id
  | case8 purpose entry rest =>
      rintro ⟨⟩
      refine executing.go_on rfl (List.Sublist.refl _) ?_ rfl
      rw [SyncCall.loops_working, SyncCall.loops_working]
      exact id
  | case9 purpose entry rest =>
      rintro ⟨⟩
      refine executing.go_on rfl (List.sublist_cons_self _ _) ?_ rfl
      rw [SyncCall.loops_working]
      exact id
  | case10 purpose entry rest =>
      rintro ⟨⟩
      refine executing.catches rfl (List.sublist_cons_self _ _) ?_
      rw [SyncCall.loops_working]
      exact id
  | case11 purpose entry rest outcome =>
      rintro ⟨⟩
      cases outcome with
      | done => exact executing.delivers
      | refused =>
          refine executing.catches rfl (List.sublist_cons_self _ _) ?_
          rw [SyncCall.loops_working]
          exact id
      | unanswered => exact absurd rfl undisturbed
  | case12 purpose entry rest answered =>
      rintro ⟨⟩
      rw [if_pos (show answered = true from undisturbed)]
      refine executing.go_on rfl (List.Sublist.refl _) ?_ rfl
      rw [SyncCall.loops_working, SyncCall.loops_working]
      exact id
  | case13 purpose entry rest =>
      rintro ⟨⟩
      rw [SyncCall.loops_working] at flagged
      exact .of_call accounted.dequeue flagged rfl
  | case14 purpose entry rest =>
      rintro ⟨⟩
      rw [SyncCall.loops_working] at flagged
      have again := undisturbed entry (by simp [present, SyncCall.failing])
      refine .of_call (accounted.count again) ?_ rfl
      rw [SyncCall.loops_working]
      exact flagged
  | case15 purpose entry rest =>
      rintro ⟨⟩
      have fewer : (pool.shared.queue.entries.find? entry.seq).any (3 ≤ ·.attempts) =
          false := by
        cases found : pool.shared.queue.entries.find? entry.seq with
        | none => rfl
        | some queued =>
            have tried := accounted.tried queued (Table.find?_eq_some.mp found).1
            simpa using Nat.lt_succ_of_le tried
      rw [fewer]
      refine executing.go_on rfl (List.Sublist.refl _) ?_ rfl
      rw [SyncCall.loops_working]
      exact id
  | case16 purpose entry rest => exact absurd (executing.keeps _ rfl) (by simp [SyncCall.drops])
  | case17 vaultId =>
      rintro ⟨⟩
      exact executing.go_on rfl (List.Sublist.refl _) nofun rfl
  | case18 entry rest =>
      rintro ⟨⟩
      exact .of_call (accounted.discard entry.seq) nofun rfl
  | case19 =>
      rintro ⟨⟩
      exact executing.go_on rfl (List.Sublist.refl _) nofun rfl
  | case20 => nofun

/-- A step of a call that gives entries up. -/
theorem idle_step {pool : Pool SyncShared SyncCall} {act : SyncAct} {before after : SyncCall}
    {shared : SyncShared} {worker : Option SyncCall} (idle : before.executes = false)
    (executing : Executing pool.shared worker)
    (action : advanceSync pool.shared before act = some (shared, after)) :
    after.executes = false ∧ Executing shared worker := by
  revert action
  fun_cases advanceSync pool.shared before act with
  | case17 vaultId =>
      rintro ⟨⟩
      exact ⟨rfl, executing⟩
  | case18 entry rest =>
      rintro ⟨⟩
      exact ⟨rfl, executing.accounted.discard entry.seq, executing.flagged, executing.keeps⟩
  | case19 =>
      rintro ⟨⟩
      exact ⟨rfl, executing⟩
  | case20 => nofun
  | _ => exact absurd idle (by simp [SyncCall.executes])

/-- A call that has nothing more to execute leaves nothing behind. -/
theorem executing_rests {shared : SyncShared} {call : SyncCall} (idle : call.executes = false)
    (executing : Executing shared (some call)) : Executing shared none := by
  refine ⟨?_, by simp, by simp⟩
  have accounted := executing.accounted
  cases call with
  | discarding vaultId => exact accounted
  | clearing rest => exact accounted
  | finished => exact accounted
  | _ => simp [SyncCall.executes] at idle

/-- A call starts to execute entries only where no other one does. -/
theorem spawn_step {pool : Pool SyncShared SyncCall} {request : SyncRequest} {new : SyncCall}
    {shared : SyncShared} {worker : Option SyncCall} (executing : Executing pool.shared worker)
    (undisturbed : Undisturbed pool (.spawn request))
    (present : ∀ call ∈ worker, call ∈ pool.threads)
    (active : ∀ call ∈ worker, call.executes = true)
    (action : spawnSync pool.shared request = some (shared, new)) :
    new.executes = false ∧ Executing shared worker ∨
      worker = none ∧ Executing shared (some new) := by
  revert action undisturbed
  fun_cases spawnSync pool.shared request with
  | case1 => nofun
  | case2 draining =>
      rintro undisturbed ⟨⟩
      have alone : worker = none := by
        refine Option.eq_none_iff_forall_not_mem.mpr fun call isWorker => ?_
        obtain ⟨started, resolves⟩ := undisturbed call (present call isWorker)
        rcases SyncCall.executes_cases (active call isWorker) with starts | keeps | loops
        · simp [started] at starts
        · simp [resolves] at keeps
        · exact draining (executing.flagged call isWorker loops)
      subst alone
      exact .inr ⟨rfl, .of_call executing.accounted nofun rfl⟩
  | case3 vaultId =>
      rintro undisturbed ⟨⟩
      have alone : worker = none := by
        refine Option.eq_none_iff_forall_not_mem.mpr fun call isWorker => ?_
        have idle := undisturbed call (present call isWorker)
        simp [active call isWorker] at idle
      subst alone
      exact .inr ⟨rfl, .of_call executing.accounted nofun rfl⟩
  | case4 vaultId =>
      rintro _ ⟨⟩
      exact .inl ⟨rfl, executing⟩

/-- Undisturbed steps keep at most one call executing entries. -/
theorem executing_preserved
    (pool : Pool SyncShared SyncCall) (move : Move Enqueue SyncRequest SyncAct)
    (next : Pool SyncShared SyncCall)
    (exclusive : Threads.Exclusive SyncCall.executes Executing pool)
    (undisturbed : Undisturbed pool move) (taken : syncProgram.system pool move = some next) :
    Threads.Exclusive SyncCall.executes Executing next := by
  refine Threads.exclusive_preserved Undisturbed (fun _ _ => executing_rests) ?_ ?_ ?_ ?_
    pool move next exclusive undisturbed taken
  · intro pool edit shared worker executing _ _ _ action
    cases action
    exact ⟨executing.accounted.enqueue edit.op edit.vaultId, executing.flagged, executing.keeps⟩
  · intro pool request shared new worker executing undisturbed present active action
    exact spawn_step executing undisturbed present active action
  · intro pool thread act before shared after _ executing undisturbed present action
    exact working_step executing undisturbed present action
  · intro pool thread act before shared after worker idle executing _ _ _ _ action
    exact .inl (idle_step idle executing action)

theorem accounted_start : Accounted startSync.shared [] [] where
  once := List.nodup_nil
  numbered := by simp [startSync]
  kept := by
    intro seq numbered positive
    simp only [startSync, SyncQueue.empty] at numbered
    omega
  tried := by simp [startSync, SyncQueue.empty, Table.empty]
  carriedOut := by simp
  undelivered := by simp [startSync, SyncQueue.empty, Table.empty]
  distinct := List.nodup_nil
  awaited := by simp

/-- In a run whose steps are all undisturbed every entry is carried out once at most, and
leaves the queue only when it was carried out or given up. -/
theorem onceEach_of_undisturbed (moves : List (Move Enqueue SyncRequest SyncAct))
    (undisturbed : Transition.EveryStepAllowed syncProgram.system Undisturbed startSync moves) :
    Transition.EveryState syncProgram.system (·.shared.OnceEach) startSync moves := by
  refine Transition.everyState_of_allowed executing_preserved ?_ ?_ undisturbed
  · rintro pool ⟨worker, others, _, _, _, executing⟩
    exact ⟨executing.accounted.once, executing.accounted.kept⟩
  · exact ⟨none, [], .refl _, by simp, by simp, accounted_start, by simp, by simp⟩

/-- An edit of a vault's envelope. -/
def sampleEdit : Enqueue where
  op := .updateVault ⟨"title", "classical", "pq", "dek"⟩
  vaultId := "vault"

/-- A drain fails to send one edit while another one arrives, and sends both later. -/
theorem onceEach_of_undisturbed_retry :
    Transition.EveryState syncProgram.system (·.shared.OnceEach) startSync
      [.outside sampleEdit, .spawn .drainSyncQueue, .advance 0 .step, .advance 0 .step,
        .advance 0 .step, .spawn .drainSyncQueue, .outside sampleEdit,
        .advance 0 (.requested .refused), .advance 0 .step, .advance 0 .step,
        .advance 0 .step, .spawn .drainSyncQueue, .advance 1 .step, .advance 1 .step,
        .advance 1 .step, .advance 1 (.requested .done), .advance 1 .step,
        .advance 1 .step, .advance 1 (.requested .done), .advance 1 .step,
        .advance 1 .step] :=
  onceEach_of_undisturbed _ (by decide)

/-- Two drains that start together both pass the guard, read the same queue, and both
send the entry. -/
theorem concurrent_drains_execute_twice :
    ¬ ∀ moves : List (Move Enqueue SyncRequest SyncAct),
      Transition.EveryState syncProgram.system (·.shared.OnceEach) startSync moves := by
  intro always
  have holds := always
    [.outside sampleEdit, .spawn .drainSyncQueue, .spawn .drainSyncQueue,
      .advance 0 .step, .advance 1 .step, .advance 0 .step, .advance 1 .step,
      .advance 0 .step, .advance 1 .step, .advance 0 (.requested .done),
      .advance 1 (.requested .done)]
  revert holds
  decide

end Offline
end MindMapVault
