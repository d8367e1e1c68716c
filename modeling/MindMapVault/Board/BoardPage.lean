import MindMapVault.Foundations.Threads

/-!
# The saves of a board

A change of the board is kept as pending and saved two seconds later, or when the user
asks for it. A save writes the envelope and the blob one after the other, forgets what is
pending, and reloads the entry. Changes, timers and other saves may come in between. The
board is kept as long as they do not, and no save fails between its two writes.
-/

namespace MindMapVault
namespace Board

open Transition Threads

variable {Key Board : Type}

/-- What storage holds of a board: the envelope, named by the key it wraps, and the blob
with the key it is sealed under. -/
structure StoredBoard (Key Board : Type) where
  title : String
  envelope : Key
  blob : Option (Key × Board)

/-- The refs of the page, what is stored, and the last change the editor has reported.
The latter is bookkeeping; the page does not read it. -/
structure BoardPage (Key Board : Type) where
  stored : StoredBoard Key Board
  pendingSave : Option Board
  isDirty : Bool
  saveTimer : Bool
  lastChange : Option Board

/-- What a `flushSave` that was handed out captures. The one of the first render may have
no session keys. -/
structure FlushClosure where
  sessionKeys : Bool
  title : String

/-- A save under way: sealing, its envelope written, its blob written, reloading the
entry, and over. -/
inductive Save (Key Board : Type)
  | sealing (title : String) (data : Board)
  | enveloped (dek : Key) (data : Board)
  | uploaded (data : Board)
  | refreshing
  | ended

/-- What starts a save. -/
inductive Trigger
  | timer (closure : FlushClosure)
  | ctrlS (closure : FlushClosure)

/-- How the next step of a save goes. The first one draws a data key. -/
inductive SaveAct (Key : Type)
  | sealed (dek : Key)
  | done
  | failed

/-- `handleBoardChange`. -/
def handleBoardChange (page : BoardPage Key Board) (data : Board) :
    BoardPage Key Board :=
  { page with
    pendingSave := some data
    isDirty := true
    saveTimer := true
    lastChange := some data }

/-- `flushSave` up to its first wait. -/
def flushSave (closure : FlushClosure) (page : BoardPage Key Board)
    (data : Board) : BoardPage Key Board × Save Key Board :=
  if closure.sessionKeys then
    ({ page with saveTimer := false }, .sealing closure.title data)
  else
    (page, .ended)

/-- Save what is pending, if anything is. -/
def flushPending (closure : FlushClosure) (page : BoardPage Key Board) :
    BoardPage Key Board × Save Key Board :=
  match page.pendingSave with
  | some data => flushSave closure page data
  | none => (page, .ended)

/-- The timer fires once it is set; the shortcut is there at any time. -/
def startSave (page : BoardPage Key Board) :
    Trigger → Option (BoardPage Key Board × Save Key Board)
  | .timer closure =>
      if page.saveTimer then
        some (flushPending closure { page with saveTimer := false })
      else
        none
  | .ctrlS closure => some (flushPending closure page)

/-- `flushSave` from one wait to the next. A request that fails may have been performed:
the write is a step of its own, and what fails is the wait for its answer or the next
request. -/
def continueSave (page : BoardPage Key Board) :
    Save Key Board → SaveAct Key → Option (BoardPage Key Board × Save Key Board)
  | .sealing title data, .sealed dek =>
      some
        ({ page with stored := { page.stored with title := title, envelope := dek } },
          .enveloped dek data)
  | .enveloped dek data, .done =>
      some ({ page with stored := { page.stored with blob := some (dek, data) } }, .uploaded data)
  | .uploaded _, .done =>
      some ({ page with pendingSave := none, isDirty := false }, .refreshing)
  | .refreshing, .done => some (page, .ended)
  | .sealing _ _, .failed | .enveloped _ _, .failed | .uploaded _, .failed
  | .refreshing, .failed => some (page, .ended)
  | .sealing _ _, .done | .enveloped _ _, .sealed _ | .uploaded _, .sealed _
  | .refreshing, .sealed _ | .ended, _ => none

/-- Changes of the board, and any number of saves. -/
def boardSaves (Key Board : Type) :
    Program (BoardPage Key Board) (Save Key Board) Board Trigger (SaveAct Key) where
  outside := fun page data => some (handleBoardChange page data)
  spawn := startSave
  advance := continueSave

/-- A page and its saves. -/
abbrev BoardPool (Key Board : Type) := Pool (BoardPage Key Board) (Save Key Board)

/-- What happens on the page. -/
abbrev BoardMove (Key Board : Type) := Move Board Trigger (SaveAct Key)

/-- A page that has just loaded its board. A vault may not have a blob yet. -/
def loadedPage (title : String) (dek : Key) (board : Option Board) :
    BoardPool Key Board where
  shared :=
    { stored := ⟨title, dek, board.map (dek, ·)⟩
      pendingSave := none
      isDirty := false
      saveTimer := false
      lastChange := none }
  threads := []

/-- The stored envelope opens the stored blob. -/
def StoredBoard.Fits (stored : StoredBoard Key Board) : Prop :=
  ∀ sealed ∈ stored.blob, stored.envelope = sealed.1

/-- What is stored is the last change, if there was any. -/
def BoardPage.HasLast (page : BoardPage Key Board) : Prop :=
  ∀ data ∈ page.lastChange, page.stored.blob.map Prod.snd = some data

/-- A save has written its envelope and not yet its blob. -/
def Save.BetweenWrites : Save Key Board → Prop
  | .enveloped _ _ => True
  | .sealing _ _ | .uploaded _ | .refreshing | .ended => False

instance : DecidablePred (@Save.BetweenWrites Key Board)
  | .enveloped _ _ => isTrue trivial
  | .sealing _ _ | .uploaded _ | .refreshing | .ended => isFalse id

/-- No save is running and no timer is set. -/
def Quiet (pool : BoardPool Key Board) : Prop :=
  pool.shared.saveTimer = false ∧ ∀ save ∈ pool.threads, save = .ended

/-- No change is lost: a quiet page has stored the last one or still holds it, and a clean
page has stored it. -/
structure ChangesKept (pool : BoardPool Key Board) : Prop where
  quiet : Quiet pool → pool.shared.HasLast ∨
    (pool.shared.isDirty = true ∧ pool.shared.pendingSave = pool.shared.lastChange)
  clean : pool.shared.isDirty = false → pool.shared.HasLast

/-- No change is lost, and the stored envelope is that of the stored blob. -/
structure BoardKept (pool : BoardPool Key Board) : Prop extends ChangesKept pool where
  envelope : pool.shared.stored.Fits

/-- A save has captured the board, and what is pending is still to be forgotten. -/
def Save.captures : Save Key Board → Bool
  | .sealing _ _ | .enveloped _ _ | .uploaded _ => true
  | .refreshing | .ended => false

/-- The `flushSave` a trigger calls. -/
def Trigger.closure : Trigger → FlushClosure
  | .timer closure | .ctrlS closure => closure

/-- Nothing disturbs a save: from when it captures the board until it forgets what is
pending, the board does not change and no other save captures it; and it does not fail
between its two writes. -/
def SavesUndisturbed (pool : BoardPool Key Board) : BoardMove Key Board → Prop
  | .outside _ => ∀ save ∈ pool.threads, save.captures = false
  | .spawn trigger =>
      trigger.closure.sessionKeys = true → ∀ save ∈ pool.threads, save.captures = false
  | .advance thread .failed => ∀ save ∈ pool.threads[thread]?, ¬ save.BetweenWrites
  | .advance _ (.sealed _) | .advance _ .done => True

instance (pool : BoardPool Key Board) : DecidablePred (SavesUndisturbed pool)
  | .outside _ => inferInstanceAs (Decidable (∀ save ∈ pool.threads, save.captures = false))
  | .spawn trigger => inferInstanceAs (Decidable (trigger.closure.sessionKeys = true →
      ∀ save ∈ pool.threads, save.captures = false))
  | .advance thread .failed =>
      inferInstanceAs (Decidable (∀ save ∈ pool.threads[thread]?, ¬ save.BetweenWrites))
  | .advance _ (.sealed _) | .advance _ .done => isTrue trivial

/-- A save writes its envelope where there is no blob yet, or one under the same key. -/
def SealsNothing (pool : BoardPool Key Board) : BoardMove Key Board → Prop
  | .advance _ (.sealed dek) => ∀ sealed ∈ pool.shared.stored.blob, dek = sealed.1
  | .advance _ .done | .advance _ .failed | .outside _ | .spawn _ => True

/-- The change is the last one reported, and pending. -/
structure BoardPage.Holds (page : BoardPage Key Board) (data : Board) : Prop where
  pending : page.pendingSave = some data
  last : page.lastChange = some data
  dirty : page.isDirty = true

/-- The last change is pending, or stored and forgotten. -/
def BoardPage.Settled (page : BoardPage Key Board) : Prop :=
  (∃ data, page.Holds data) ∨ page.pendingSave = none ∧ page.isDirty = false ∧ page.HasLast

/-- What is known of the page while a save has captured the board, and while none has. -/
def BoardPage.KnownBy (page : BoardPage Key Board) : Option (Save Key Board) → Prop
  | some (.sealing _ data) => page.Holds data ∧ page.stored.Fits
  | some (.enveloped dek data) => page.Holds data ∧ page.stored.envelope = dek
  | some (.uploaded data) =>
      page.Holds data ∧ page.stored.Fits ∧ page.stored.blob.map Prod.snd = some data
  | some .refreshing | some .ended | none => page.Settled ∧ page.stored.Fits

/-- At most one save has captured the board. -/
abbrev SavesInTurn (pool : BoardPool Key Board) : Prop :=
  Exclusive Save.captures BoardPage.KnownBy pool

section Steps

variable {pool next : BoardPool Key Board} {page : BoardPage Key Board}
variable {save after : Save Key Board}

/-- Flushing clears the timer at most, and captures what is pending. -/
theorem flushPending_spec (closure : FlushClosure) (page : BoardPage Key Board) :
    ∃ timer, (flushPending closure page).1 = { page with saveTimer := timer } ∧
      ((flushPending closure page).2 = .ended ∨
        closure.sessionKeys = true ∧ ∃ data, page.pendingSave = some data ∧
          (flushPending closure page).2 = .sealing closure.title data) := by
  obtain ⟨stored, pendingSave, isDirty, saveTimer, lastChange⟩ := page
  cases pendingSave with
  | none => exact ⟨saveTimer, rfl, .inl rfl⟩
  | some data =>
      simp only [flushPending, flushSave]
      split_ifs with keys
      · exact ⟨false, rfl, .inr ⟨keys, data, rfl, rfl⟩⟩
      · exact ⟨saveTimer, rfl, .inl rfl⟩

/-- So does starting a save. -/
theorem startSave_spec {trigger : Trigger} {started : BoardPage Key Board}
    (starts : startSave page trigger = some (started, save)) :
    ∃ timer, started = { page with saveTimer := timer } ∧
      (save = .ended ∨
        trigger.closure.sessionKeys = true ∧ ∃ data, page.pendingSave = some data ∧
          save = .sealing trigger.closure.title data) := by
  cases trigger with
  | timer closure =>
      simp only [startSave] at starts
      split_ifs at starts
      have spec := flushPending_spec closure { page with saveTimer := false }
      rw [Option.some.inj starts] at spec
      exact spec
  | ctrlS closure =>
      have spec := flushPending_spec closure page
      rw [Option.some.inj starts] at spec
      exact spec

/-- The steps of a save. -/
theorem continueSave_cases
    {motive : Save Key Board → SaveAct Key → BoardPage Key Board → Save Key Board → Prop}
    (seals : ∀ title data dek, motive (.sealing title data) (.sealed dek)
      { page with stored := { page.stored with title := title, envelope := dek } }
      (.enveloped dek data))
    (uploads : ∀ dek data, motive (.enveloped dek data) .done
      { page with stored := { page.stored with blob := some (dek, data) } }
      (.uploaded data))
    (forgets : ∀ data, motive (.uploaded data) .done
      { page with pendingSave := none, isDirty := false } .refreshing)
    (reloads : motive .refreshing .done page .ended)
    (fails : ∀ save, motive save .failed page .ended)
    {act : SaveAct Key} {next : BoardPage Key Board}
    (moved : continueSave page save act = some (next, after)) :
    motive save act next after := by
  cases act with
  | sealed dek =>
      cases save with
      | sealing title data =>
          cases moved
          exact seals title data dek
      | _ => cases moved
  | done =>
      cases save with
      | enveloped dek data =>
          cases moved
          exact uploads dek data
      | uploaded data =>
          cases moved
          exact forgets data
      | refreshing =>
          cases moved
          exact reloads
      | _ => cases moved
  | failed =>
      cases save with
      | ended => cases moved
      | _ =>
          cases moved
          exact fails _

/-! What is known of the page says that no change is lost. -/

theorem BoardPage.Settled.clean (settled : page.Settled) (marked : page.isDirty = false) :
    page.HasLast := by
  rcases settled with ⟨data, holds⟩ | ⟨-, -, stored⟩
  · rw [holds.dirty] at marked
    contradiction
  · exact stored

theorem BoardPage.Settled.kept (settled : page.Settled) :
    page.HasLast ∨ (page.isDirty = true ∧ page.pendingSave = page.lastChange) := by
  rcases settled with ⟨data, holds⟩ | ⟨-, -, stored⟩
  · exact .inr ⟨holds.dirty, holds.pending.trans holds.last.symm⟩
  · exact .inl stored

/-- A page that is known by whichever save holds the last change or has stored it. -/
theorem BoardPage.KnownBy.settled {worker : Option (Save Key Board)}
    (known : page.KnownBy worker) : page.Settled := by
  rcases worker with _ | (_ | _ | _ | _ | _)
  · exact known.1
  · exact .inl ⟨_, known.1⟩
  · exact .inl ⟨_, known.1⟩
  · exact .inl ⟨_, known.1⟩
  · exact known.1
  · exact known.1

theorem SavesInTurn.changesKept (inTurn : SavesInTurn pool) : ChangesKept pool := by
  obtain ⟨worker, _, _, _, _, known⟩ := inTurn
  exact ⟨fun _ => known.settled.kept, known.settled.clean⟩

/-- Only between its two writes does a save leave an envelope that opens nothing. -/
theorem SavesInTurn.fits (inTurn : SavesInTurn pool)
    (settled : ∀ save ∈ pool.threads, ¬ save.BetweenWrites) : pool.shared.stored.Fits := by
  obtain ⟨worker, others, arranged, _, _, known⟩ := inTurn
  rcases worker with _ | (_ | ⟨dek, data⟩ | _ | _ | _)
  · exact known.2
  · exact known.2
  · refine absurd trivial (settled (.enveloped dek data) ?_)
    exact arranged.mem_iff.mpr List.mem_cons_self
  · exact known.2.1
  · exact known.2
  · exact known.2

/-! What one step does to what is known. -/

/-- What is pending does not depend on where it is written, or on the timer. -/
theorem BoardPage.Holds.frame {data : Board} (holds : page.Holds data)
    (stored : StoredBoard Key Board) (timer : Bool) :
    ({ page with stored := stored, saveTimer := timer } : BoardPage Key Board).Holds data :=
  ⟨holds.pending, holds.last, holds.dirty⟩

/-- A step of the save that has captured the board. -/
theorem working_step {act : SaveAct Key} {next : BoardPage Key Board}
    (captures : save.captures = true) (known : page.KnownBy (some save))
    (undisturbed : act = .failed → ¬ save.BetweenWrites)
    (moved : continueSave page save act = some (next, after)) :
    next.KnownBy (some after) := by
  refine continueSave_cases (motive := fun save act next after =>
    save.captures = true → page.KnownBy (some save) →
      (act = .failed → ¬ save.BetweenWrites) → next.KnownBy (some after))
    ?_ ?_ ?_ ?_ ?_ moved captures known undisturbed
  · intro title data dek _ ⟨holds, _⟩ _
    exact ⟨holds.frame _ _, rfl⟩
  · intro dek data _ ⟨holds, under⟩ _
    refine ⟨holds.frame _ _, ?_, rfl⟩
    rintro sealed ⟨⟩
    exact under
  · intro data _ ⟨holds, fits, stored⟩ _
    refine ⟨.inr ⟨rfl, rfl, fun last isLast => ?_⟩, fits⟩
    rwa [← Option.some.inj (holds.last.symm.trans isLast)]
  · intro captures
    contradiction
  · intro save captures known undisturbed
    refine ⟨known.settled, ?_⟩
    cases save with
    | sealing title data => exact known.2
    | enveloped dek data => exact absurd trivial (undisturbed rfl)
    | uploaded data => exact known.2.1
    | refreshing => exact known.2
    | ended => exact known.2

/-- Every other save only reloads the entry, or has failed. -/
theorem idle_step {act : SaveAct Key} {next : BoardPage Key Board}
    (idle : save.captures = false) (moved : continueSave page save act = some (next, after)) :
    after.captures = false ∧ next = page := by
  refine continueSave_cases (motive := fun save _ next after =>
    save.captures = false → after.captures = false ∧ next = page)
    ?_ ?_ ?_ ?_ ?_ moved idle
  · nofun
  · nofun
  · nofun
  · exact fun _ => ⟨rfl, rfl⟩
  · exact fun _ _ => ⟨rfl, rfl⟩

/-- The timer says nothing of what is pending or stored. -/
theorem BoardPage.KnownBy.setTimer {worker : Option (Save Key Board)}
    (known : page.KnownBy worker) (timer : Bool) :
    ({ page with saveTimer := timer } : BoardPage Key Board).KnownBy worker := by
  have settled (known : page.Settled) :
      ({ page with saveTimer := timer } : BoardPage Key Board).Settled :=
    known.imp (fun ⟨data, holds⟩ => ⟨data, holds.frame page.stored timer⟩) id
  have holds {data : Board} (known : page.Holds data) := known.frame page.stored timer
  rcases worker with _ | (_ | _ | _ | _ | _)
  · exact known.imp_left settled
  · exact known.imp_left holds
  · exact known.imp_left holds
  · exact known.imp_left holds
  · exact known.imp_left settled
  · exact known.imp_left settled

/-- A save captures what is pending, which is the last change. -/
theorem start_step {trigger : Trigger} {worker : Option (Save Key Board)}
    {started : BoardPage Key Board} (known : page.KnownBy worker)
    (alone : trigger.closure.sessionKeys = true → worker = none)
    (starts : startSave page trigger = some (started, save)) :
    save.captures = false ∧ started.KnownBy worker ∨
      worker = none ∧ started.KnownBy (some save) := by
  obtain ⟨timer, rfl, rfl | ⟨keys, data, pending, rfl⟩⟩ := startSave_spec starts
  · exact .inl ⟨rfl, known.setTimer timer⟩
  · have none := alone keys
    subst none
    refine .inr ⟨rfl, ?_⟩
    obtain ⟨settled, fits⟩ := known
    rcases settled with ⟨last, holds⟩ | ⟨nothing, -, -⟩
    · obtain rfl := Option.some.inj (holds.pending.symm.trans pending)
      exact ⟨holds.frame _ timer, fits⟩
    · rw [nothing] at pending
      contradiction

/-- Undisturbed steps leave the saves in turn. -/
theorem savesInTurn_preserved (pool : BoardPool Key Board) (move : BoardMove Key Board)
    (next : BoardPool Key Board)
    (inTurn : SavesInTurn pool) (undisturbed : SavesUndisturbed pool move)
    (taken : (boardSaves Key Board).system pool move = some next) :
    SavesInTurn next := by
  -- where no save captures the board there is no worker
  have alone (pool : BoardPool Key Board) (worker : Option (Save Key Board))
      (present : ∀ save ∈ worker, save ∈ pool.threads)
      (captures : ∀ save ∈ worker, save.captures = true)
      (free : ∀ save ∈ pool.threads, save.captures = false) : worker = none := by
    refine Option.eq_none_iff_forall_not_mem.mpr fun save isWorker => ?_
    have idle := free save (present save isWorker)
    rw [captures save isWorker] at idle
    contradiction
  refine exclusive_preserved SavesUndisturbed ?_ ?_ ?_ ?_ ?_ pool move next inTurn undisturbed taken
  · intro page save rests known
    cases save with
    | refreshing => exact known
    | ended => exact known
    | _ => contradiction
  · intro pool data page worker known undisturbed present captures changed
    obtain rfl := alone pool worker present captures undisturbed
    cases changed
    exact ⟨.inl ⟨data, rfl, rfl, rfl⟩, known.2⟩
  · intro pool trigger page save worker known undisturbed present captures starts
    exact start_step known
      (fun keys => alone pool worker present captures (undisturbed keys)) starts
  · intro pool thread act before page after captures known undisturbed stands moved
    refine working_step captures known ?_ moved
    rintro rfl
    exact undisturbed before stands
  · intro pool thread act before page after worker idle known _ _ _ _ moved
    obtain ⟨rests, rfl⟩ := idle_step idle moved
    exact .inl ⟨rests, known⟩

/-- After an undisturbed step the envelope is that of the blob exactly if the step writes no
other envelope over it. -/
theorem fits_step_iff {move : BoardMove Key Board}
    (inTurn : SavesInTurn pool) (fits : pool.shared.stored.Fits)
    (taken : (boardSaves Key Board).system pool move = some next) :
    next.shared.stored.Fits ↔ SealsNothing pool move := by
  refine Program.system_cases (motive := fun move next =>
    next.shared.stored.Fits ↔ SealsNothing pool move) ?_ ?_ ?_ taken
  · intro data page changed
    cases changed
    exact iff_of_true fits trivial
  · intro trigger page save starts
    obtain ⟨timer, rfl, -⟩ := startSave_spec starts
    exact iff_of_true fits trivial
  · intro thread act before page after stands moved
    have known := inTurn.known_of_active (List.mem_of_getElem? stands)
    refine continueSave_cases (motive := fun before act page after =>
      (before.captures = true → pool.shared.KnownBy (some before)) →
        (page.stored.Fits ↔ SealsNothing pool (.advance thread act)))
      ?_ ?_ ?_ ?_ ?_ moved known
    · exact fun _ _ _ _ => Iff.rfl
    · intro dek data known
      refine iff_of_true ?_ trivial
      rintro sealed ⟨⟩
      exact (known rfl).2
    · exact fun _ _ => iff_of_true fits trivial
    · exact fun _ => iff_of_true fits trivial
    · exact fun _ _ => iff_of_true fits trivial

end Steps

theorem savesInTurn_loadedPage (title : String) (dek : Key) (board : Option Board) :
    SavesInTurn (loadedPage title dek board) := by
  refine ⟨none, [], .refl _, nofun, nofun, .inr ⟨rfl, rfl, nofun⟩, ?_⟩
  intro sealed stored
  obtain ⟨data, -, rfl⟩ := Option.map_eq_some_iff.mp stored
  rfl

/-- In a run in which nothing disturbs a save no change is lost, and the envelope is that of
the blob whenever no save is between its two writes. It is in every state of the run exactly
if no save writes its envelope over a blob under another key. -/
theorem boardKept_of_undisturbed (title : String) (dek : Key) (board : Option Board)
    (moves : List (BoardMove Key Board))
    (undisturbed : EveryStepAllowed (boardSaves Key Board).system SavesUndisturbed
      (loadedPage title dek board) moves) :
    EveryState (boardSaves Key Board).system
        (fun pool => ChangesKept pool ∧
          ((∀ save ∈ pool.threads, ¬ save.BetweenWrites) → pool.shared.stored.Fits))
        (loadedPage title dek board) moves ∧
      (EveryState (boardSaves Key Board).system BoardKept
          (loadedPage title dek board) moves ↔
        EveryStepAllowed (boardSaves Key Board).system SealsNothing
          (loadedPage title dek board) moves) := by
  have loaded := savesInTurn_loadedPage title dek board
  constructor
  · exact everyState_of_allowed savesInTurn_preserved
      (fun pool inTurn => ⟨inTurn.changesKept, inTurn.fits⟩) loaded undisturbed
  · refine everyState_iff_of_permitted
      (fun pool (good : SavesInTurn pool ∧ pool.shared.stored.Fits) =>
        ⟨good.1.changesKept, good.2⟩) ?_ ?_ ⟨loaded, ?_⟩ undisturbed
    · rintro pool move next ⟨inTurn, fits⟩ fine taken
      have still := savesInTurn_preserved pool move next inTurn fine taken
      rw [← fits_step_iff inTurn fits taken]
      exact ⟨BoardKept.envelope, fun opens => ⟨still.changesKept, opens⟩⟩
    · rintro pool move next ⟨inTurn, _⟩ fine taken kept
      exact ⟨savesInTurn_preserved pool move next inTurn fine taken, kept.envelope⟩
    · refine loaded.fits ?_
      nofun

section Samples

/-- The board changes, the timer saves it but for the reload of the entry, and the board
changes again and is saved by the shortcut. -/
theorem boardKept_of_undisturbed_twoSaves :
    let closure : FlushClosure := ⟨true, "title"⟩
    let moves : List (BoardMove Nat Nat) :=
      [.outside 1, .spawn (.timer closure), .advance 0 (.sealed 7), .advance 0 .done,
        .advance 0 .done, .outside 2, .advance 0 .done, .spawn (.ctrlS closure),
        .advance 1 (.sealed 8), .advance 1 .done, .advance 1 .failed]
    EveryState (boardSaves Nat Nat).system
        (fun pool => ChangesKept pool ∧
          ((∀ save ∈ pool.threads, ¬ save.BetweenWrites) → pool.shared.stored.Fits))
        (loadedPage "title" 0 none) moves ∧
      (EveryState (boardSaves Nat Nat).system BoardKept (loadedPage "title" 0 none) moves ↔
        EveryStepAllowed (boardSaves Nat Nat).system SealsNothing
          (loadedPage "title" 0 none) moves) :=
  boardKept_of_undisturbed _ _ _ _ (by decide)

/-- The board changes while the change before is being uploaded: the save forgets the new
one as well, and the timer finds nothing to save. -/
theorem change_during_save_lost :
    ¬ ∀ (title : String) (dek : Nat) (board : Option Nat)
        (moves : List (BoardMove Nat Nat)),
      EveryState (boardSaves Nat Nat).system BoardKept (loadedPage title dek board) moves := by
  intro always
  let closure : FlushClosure := ⟨true, "title"⟩
  have kept := (always "title" 0 (some 0)
    [.outside 1, .spawn (.timer closure), .advance 0 (.sealed 7), .advance 0 .done,
      .outside 2, .advance 0 .done, .advance 0 .done, .spawn (.timer closure)]).last rfl
  have quiet : ∀ save ∈ [Save.ended, Save.ended], save = (Save.ended : Save Nat Nat) := by
    intro save there
    simpa using there
  rcases kept.quiet ⟨rfl, quiet⟩ with stored | ⟨marked, -⟩
  · have same : some 1 = some 2 := stored 2 rfl
    simp at same
  · contradiction

end Samples

end Board
end MindMapVault
