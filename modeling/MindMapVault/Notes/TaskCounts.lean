import MindMapVault.Notes.Tasks

/-!
# Which tasks are counted

The boxes that a renderer draws are the tasks outside code that is fenced as CommonMark
has it: a fence is closed by one of the same character that is at least as long and has
nothing after it. The two ways of reading fences agree on a text if they do at every line
that has the shape of a task. Then, and only then, an index names the same task to both.
-/

namespace MindMapVault
namespace Notes

/-- The open fence of CommonMark after a line. A fence may stand at any indentation, as inside
lists. -/
def commonMarkFence (fence : Option (Char × Nat)) (line : List Char) : Option (Char × Nat) :=
  match fence? line, fence with
  | some found, none =>
      if found.mark = '\x60' ∧ '\x60' ∈ found.info then none else some (found.mark, found.length)
  | some found, some (mark, length) =>
      if found.mark = mark ∧ length ≤ found.length ∧ found.info.all Ecma.isWhitespace then none
      else some (mark, length)
  | none, fence => fence

section Reading

variable {Open : Type} (next : Option Open → List Char → Option Open)

/-- The fence that is open before a line. -/
def fenceBefore (lines : List (List Char)) (index : Nat) : Option Open :=
  (lines.take index).foldl next none

/-- The marks of the tasks outside fenced code, by where they stand in the text. -/
def taskMarks : Option Open → Nat → List (List Char) → List Nat
  | _, _, [] => []
  | fence, position, line :: lines =>
      (if fence.isNone then (taskLine? line).toList.map fun task => position + task.head.length
      else []) ++ taskMarks (next fence line) (position + line.length + 1) lines

/-- The tasks outside fenced code, line by line, with their marks. -/
def lineTasks : Option Open → List (List Char) → List (Option Char)
  | _, [] => []
  | fence, line :: lines =>
      (if fence.isNone then (taskLine? line).map TaskLine.mark else none) ::
        lineTasks (next fence line) lines

end Reading

/-- The marks of the tasks of a note. -/
def noteMarks (markdown : List Char) : List Nat :=
  taskMarks commonMarkFence none 0 (markdown.splitOn '\n')

/-- A line is inside fenced code, or is one of its fences. -/
def InFencedCode (markdown : List Char) (index : Nat) : Prop :=
  fenceBefore commonMarkFence (markdown.splitOn '\n') index ≠ none ∨
    fenceBefore commonMarkFence (markdown.splitOn '\n') (index + 1) ≠ none

/-- One character is another one, at a place in a text. -/
def DiffersAt (place : Nat) (text other : List Char) : Prop :=
  ∃ before old new after, text = before ++ old :: after ∧ other = before ++ new :: after ∧
    old ≠ new ∧ before.length = place

/-- What is expected of the tasks of a note. -/
structure TasksWork (markdown : List Char) : Prop where
  counts : ∀ index : Nat,
    (toggleTaskAtIndex markdown index).isSome ↔ index < (noteMarks markdown).length
  single : ∀ (index : Nat) toggled, toggleTaskAtIndex markdown index = some toggled →
    ∃ place, DiffersAt place markdown toggled ∧ (noteMarks markdown)[index]? = some place
  settled : normalizeBareTasks (normalizeBareTasks markdown) = normalizeBareTasks markdown
  literal : ∀ index line, InFencedCode markdown index →
    (markdown.splitOn '\n')[index]? = some line →
    ((normalizeBareTasks markdown).splitOn '\n')[index]? = some line
  tasks : lineTasks commonMarkFence none ((normalizeBareTasks markdown).splitOn '\n') =
    lineTasks commonMarkFence none (markdown.splitOn '\n')
  commutes : ∀ index : Int, (toggleTaskAtIndex markdown index).map normalizeBareTasks =
    toggleTaskAtIndex (normalizeBareTasks markdown) index

/-- Every line that has the shape of a task is inside fenced code by both ways of reading
fences or by none. -/
def FencesAgree (markdown : List Char) : Prop :=
  ∀ index line, (markdown.splitOn '\n')[index]? = some line → (taskLine? line).isSome →
    ((fenceBefore nextFence (markdown.splitOn '\n') index).isNone ↔
      (fenceBefore commonMarkFence (markdown.splitOn '\n') index).isNone)

section Join

theorem joinLines_cons (line : List Char) (lines : List (List Char)) :
    joinLines (line :: lines) = line ++ lines.flatMap ('\n' :: ·) := by
  induction lines generalizing line with
  | nil => rw [joinLines, List.intercalate_singleton, List.flatMap_nil, List.append_nil]
  | cons other lines ih =>
      have rest := ih other
      rw [joinLines] at rest ⊢
      rw [List.intercalate_cons_cons, rest, List.flatMap_cons]
      simp only [List.append_assoc, List.cons_append, List.nil_append]

theorem joinLines_splitOn (text : List Char) : joinLines (text.splitOn '\n') = text :=
  List.intercalate_splitOn '\n'

theorem splitOn_joinLines {lines : List (List Char)} (some : lines ≠ [])
    (oneLine : ∀ line ∈ lines, '\n' ∉ line) : (joinLines lines).splitOn '\n' = lines :=
  List.splitOn_intercalate '\n' oneLine some

end Join

section Quiet

variable {Open : Type} {next : Option Open → List Char → Option Open}

/-- A reading of fences that looks at nothing but fences. -/
def Quiet (next : Option Open → List Char → Option Open) : Prop :=
  ∀ fence line, fence? line = none → next fence line = fence

theorem quiet_nextFence : Quiet nextFence := by
  intro fence line noFence
  simp only [nextFence, noFence]

theorem quiet_commonMarkFence : Quiet commonMarkFence := by
  intro fence line noFence
  simp only [commonMarkFence, noFence]

variable (quiet : Quiet next)

include quiet

/-- A line that `normalizeBareTasks` visits is read as it was. -/
theorem next_normalizeLine (fence : Option Open) {line : List Char}
    (noFence : fence? line = none) : next fence (normalizeLine line) = next fence line := by
  rw [quiet fence line noFence, quiet fence _ (fence?_normalizeLine noFence)]

/-- So is every line of what `normalizeLines` makes. -/
theorem next_normalized (fence : Option Open) (line : List Char) (other : Option Char) :
    next fence (if (fence? line).isNone ∧ other = none then normalizeLine line else line) =
      next fence line := by
  split_ifs with visited
  · exact next_normalizeLine quiet fence (Option.isNone_iff_eq_none.mp visited.1)
  · rfl

/-- Lines with bullets are the same tasks. -/
theorem lineTasks_normalizeLines : ∀ (lines : List (List Char)) (other : Option Char)
    (fence : Option Open),
    lineTasks next fence (normalizeLines other lines) = lineTasks next fence lines
  | [], _, _ => rfl
  | line :: lines, other, fence => by
      rw [normalizeLines, lineTasks, lineTasks, next_normalized quiet,
        lineTasks_normalizeLines lines]
      congr 2
      split_ifs
      · exact mark_normalizeLine line
      · rfl

end Quiet

section Normalize

theorem normalizeLines_normalizeLines : ∀ (lines : List (List Char)) (fence : Option Char),
    normalizeLines fence (normalizeLines fence lines) = normalizeLines fence lines
  | [], _ => rfl
  | line :: lines, fence => by
      rw [normalizeLines, normalizeLines, next_normalized quiet_nextFence,
        normalizeLines_normalizeLines lines]
      congr 1
      by_cases visited : (fence? line).isNone ∧ fence = none
      · have noFence := fence?_normalizeLine (Option.isNone_iff_eq_none.mp visited.1)
        rw [if_pos visited, if_pos ⟨Option.isNone_iff_eq_none.mpr noFence, visited.2⟩,
          normalizeLine_normalizeLine]
      · rw [if_neg visited, if_neg visited]

theorem normalizeLines_ne_nil {lines : List (List Char)} (some : lines ≠ [])
    (fence : Option Char) : normalizeLines fence lines ≠ [] := by
  cases lines with
  | nil => exact absurd rfl some
  | cons line lines => exact List.cons_ne_nil _ _

/-- No line break comes in. -/
theorem oneLine_normalizeLine {line : List Char} (oneLine : '\n' ∉ line) :
    '\n' ∉ normalizeLine line := by
  unfold normalizeLine
  split
  · next indent bare =>
      obtain ⟨-, mark, rest, -, -, rfl⟩ := bareTask?_eq_some_iff.mp bare
      rw [List.drop_left, List.mem_append, not_or]
      rw [List.mem_append, not_or] at oneLine
      simp only [List.mem_cons, Char.reduceEq, false_or]
      simpa only [List.mem_cons, Char.reduceEq, false_or] using oneLine
  · exact oneLine

theorem oneLine_normalizeLines : ∀ {lines : List (List Char)} {fence : Option Char},
    (∀ line ∈ lines, '\n' ∉ line) → ∀ line ∈ normalizeLines fence lines, '\n' ∉ line
  | [], _, _ => List.forall_mem_nil _
  | first :: lines, fence, oneLine => by
      obtain ⟨here, later⟩ := List.forall_mem_cons.mp oneLine
      rw [normalizeLines]
      refine List.forall_mem_cons.mpr ⟨?_, oneLine_normalizeLines later⟩
      split_ifs
      · exact oneLine_normalizeLine here
      · exact here

/-- The lines of a normalized note. -/
theorem splitOn_normalizeBareTasks (markdown : List Char) :
    (normalizeBareTasks markdown).splitOn '\n' = normalizeLines none (markdown.splitOn '\n') :=
  splitOn_joinLines (normalizeLines_ne_nil (List.splitOn_ne_nil _ _) _)
    (oneLine_normalizeLines fun _ => Text.not_mem_of_mem_splitOn)

/-- What a line becomes depends on the fence before it. -/
theorem getElem?_normalizeLines (index : Nat) : ∀ (lines : List (List Char))
    (fence : Option Char),
    (normalizeLines fence lines)[index]? = lines[index]?.map fun line =>
      if (fence? line).isNone ∧ (lines.take index).foldl nextFence fence = none then
        normalizeLine line
      else line := by
  induction index with
  | zero =>
      intro lines fence
      cases lines with
      | nil => rfl
      | cons line lines => rfl
  | succ index ih =>
      intro lines fence
      cases lines with
      | nil => rfl
      | cons line lines =>
          rw [normalizeLines, List.getElem?_cons_succ, List.getElem?_cons_succ,
            ih, List.take_succ_cons, List.foldl_cons]

end Normalize

section Toggle

variable {line : List Char} {fence : Option Char} {task : TaskLine}

theorem toggleLines_cons_of_none (unseen : seenTask fence line = none)
    (index : Nat) (lines : List (List Char)) :
    toggleLines index fence (line :: lines) =
      (toggleLines index (nextFence fence line) lines).map fun after => line :: after := by
  simp only [toggleLines, unseen]

theorem toggleLines_cons_zero (seen : seenTask fence line = some task) (lines : List (List Char)) :
    toggleLines 0 fence (line :: lines) = some (task.flipped :: lines) := by
  simp only [toggleLines, seen]

theorem toggleLines_cons_succ (seen : seenTask fence line = some task)
    (index : Nat) (lines : List (List Char)) :
    toggleLines (index + 1) fence (line :: lines) =
      (toggleLines index (nextFence fence line) lines).map fun after => line :: after := by
  simp only [toggleLines, seen]

/-- A task that is seen is one outside of fences. -/
theorem of_seenTask (seen : seenTask fence line = some task) :
    taskLine? line = some task ∧ (fence? line).isNone ∧ fence = none := by
  unfold seenTask at seen
  split_ifs at seen with visited
  exact ⟨seen, visited⟩

/-- Where no task is seen, no bullet is given. -/
theorem normalizeLine_of_unseen (unseen : seenTask fence line = none) :
    (if (fence? line).isNone ∧ fence = none then normalizeLine line else line) = line := by
  split_ifs with visited
  · rw [seenTask, if_pos visited] at unseen
    rcases normalizeLine_cases line with ⟨-, same⟩ | ⟨_, _, _, found, -⟩
    · exact same
    · exact absurd (unseen.symm.trans found) (Option.some_ne_none _).symm
  · rfl

/-- Flipping a box and giving bullets can change places. -/
theorem toggleLines_normalizeLines : ∀ (lines : List (List Char)) (index : Nat)
    (fence : Option Char),
    (toggleLines index fence lines).map (normalizeLines fence) =
      toggleLines index fence (normalizeLines fence lines)
  | [], _, _ => rfl
  | line :: lines, index, fence => by
      cases seen : seenTask fence line with
      | none =>
          rw [toggleLines_cons_of_none seen, normalizeLines, normalizeLine_of_unseen seen,
            toggleLines_cons_of_none seen, ← toggleLines_normalizeLines lines, Option.map_map,
            Option.map_map]
          congr 1
          funext after
          rw [Function.comp_apply, Function.comp_apply, normalizeLines,
            normalizeLine_of_unseen seen]
      | some task =>
          obtain ⟨found, visited⟩ := of_seenTask seen
          obtain ⟨after, written, flips⟩ := normalizeLine_flipped found
          have noFence := Option.isNone_iff_eq_none.mp visited.1
          have bulleted : normalizeLines fence (line :: lines) =
              normalizeLine line :: normalizeLines (nextFence fence line) lines := by
            rw [normalizeLines, if_pos visited]
          have seenAfter : seenTask fence (normalizeLine line) = some after := by
            rw [seenTask, if_pos ⟨fence?_normalizeLine noFence ▸ rfl, visited.2⟩, written]
          rw [bulleted]
          cases index with
          | zero =>
              have unchanged : nextFence fence task.flipped = nextFence fence line := by
                rw [quiet_nextFence fence line noFence,
                  quiet_nextFence fence _ (fence?_flipped found)]
              rw [toggleLines_cons_zero seen, toggleLines_cons_zero seenAfter, Option.map_some,
                normalizeLines, if_pos ⟨fence?_flipped found ▸ rfl, visited.2⟩, flips, unchanged]
          | succ index =>
              rw [toggleLines_cons_succ seen, toggleLines_cons_succ seenAfter,
                next_normalizeLine quiet_nextFence fence noFence,
                ← toggleLines_normalizeLines lines, Option.map_map, Option.map_map]
              congr 1
              funext others
              rw [Function.comp_apply, Function.comp_apply, normalizeLines, if_pos visited]

/-- The marks that are counted are those of the tasks that are seen. -/
theorem taskMarks_nextFence_cons (fence : Option Char) (position : Nat) (line : List Char)
    (lines : List (List Char)) :
    taskMarks nextFence fence position (line :: lines) =
      ((seenTask fence line).toList.map fun task => position + task.head.length) ++
        taskMarks nextFence (nextFence fence line) (position + line.length + 1) lines := by
  rw [taskMarks, seenTask_eq]
  split_ifs
  · rfl
  · rfl

/-- There is a task to flip as long as there is one to count. -/
theorem isSome_toggleLines : ∀ (lines : List (List Char)) (index : Nat) (fence : Option Char)
    (position : Nat), (toggleLines index fence lines).isSome ↔
      index < (taskMarks nextFence fence position lines).length
  | [], index, _, _ => by
      simp only [toggleLines, taskMarks, Option.isSome_none, Bool.false_eq_true, List.length_nil,
        Nat.not_lt_zero]
  | line :: lines, index, fence, position => by
      have later (index : Nat) := isSome_toggleLines lines index (nextFence fence line)
        (position + line.length + 1)
      rw [taskMarks_nextFence_cons]
      cases seen : seenTask fence line with
      | none =>
          rw [toggleLines_cons_of_none seen, Option.isSome_map, later, Option.toList_none,
            List.map_nil, List.nil_append]
      | some task =>
          rw [Option.toList_some, List.map_singleton, List.singleton_append, List.length_cons]
          cases index with
          | zero => simp only [toggleLines_cons_zero seen, Option.isSome_some, Nat.zero_lt_succ]
          | succ index =>
              rw [toggleLines_cons_succ seen, Option.isSome_map, later, Nat.succ_lt_succ_iff]

/-- A change in the lines after the first one. -/
theorem DiffersAt.cons {place : Nat} {lines others : List (List Char)}
    (some : lines ≠ []) (someOther : others ≠ [])
    (differs : DiffersAt place (joinLines lines) (joinLines others)) (line : List Char) :
    DiffersAt (line.length + 1 + place) (joinLines (line :: lines))
      (joinLines (line :: others)) := by
  have joined {rest : List (List Char)} (nonempty : rest ≠ []) :
      joinLines (line :: rest) = line ++ '\n' :: joinLines rest := by
    cases rest with
    | nil => exact absurd rfl nonempty
    | cons first rest =>
        rw [joinLines_cons, List.flatMap_cons, joinLines_cons, List.cons_append]
  obtain ⟨before, old, new, after, text, other, changed, rfl⟩ := differs
  refine ⟨line ++ '\n' :: before, old, new, after, ?_, ?_, changed, ?_⟩
  · rw [joined some, text, List.append_assoc, List.cons_append]
  · rw [joined someOther, other, List.append_assoc, List.cons_append]
  · rw [List.length_append, List.length_cons]
    omega

/-- What is flipped is the mark that is counted. -/
theorem toggleLines_spec : ∀ (lines after : List (List Char)) (index : Nat)
    (fence : Option Char) (position : Nat), toggleLines index fence lines = some after →
    after ≠ [] ∧ ∃ place, DiffersAt place (joinLines lines) (joinLines after) ∧
      (taskMarks nextFence fence position lines)[index]? = some (position + place)
  | [], _, _, _, _, toggled => absurd toggled.symm (Option.some_ne_none _)
  | line :: lines, after, index, fence, position, toggled => by
      have later {others : List (List Char)} {rest : Nat}
          (flipped : toggleLines rest (nextFence fence line) lines = some others) :
          ∃ place, DiffersAt place (joinLines (line :: lines)) (joinLines (line :: others)) ∧
            (taskMarks nextFence (nextFence fence line) (position + line.length + 1)
              lines)[rest]? = some (position + place) := by
        obtain ⟨nonempty, place, differs, counted⟩ := toggleLines_spec lines others rest
          (nextFence fence line) (position + line.length + 1) flipped
        refine ⟨_, differs.cons ?_ nonempty line, ?_⟩
        · rintro rfl
          exact Option.some_ne_none _ flipped.symm
        · rw [counted]
          congr 1
          omega
      rw [taskMarks_nextFence_cons]
      cases seen : seenTask fence line with
      | none =>
          rw [toggleLines_cons_of_none seen, Option.map_eq_some_iff] at toggled
          obtain ⟨others, flipped, rfl⟩ := toggled
          exact ⟨List.cons_ne_nil _ _, later flipped⟩
      | some task =>
          cases index with
          | zero =>
              rw [toggleLines_cons_zero seen] at toggled
              obtain rfl := Option.some.inj toggled
              obtain ⟨-, -, -, whole⟩ := taskLine?_eq_some_iff.mp (of_seenTask seen).1
              refine ⟨List.cons_ne_nil _ _, task.head.length, ?_, rfl⟩
              refine ⟨task.head, task.mark, task.nextMark,
                ']' :: task.rest ++ lines.flatMap ('\n' :: ·), ?_, ?_, task.nextMark_ne, rfl⟩
              · rw [joinLines_cons, whole, List.append_assoc, List.cons_append]
              · rw [joinLines_cons, TaskLine.flipped_eq, List.append_assoc, List.cons_append]
          | succ index =>
              rw [toggleLines_cons_succ seen, Option.map_eq_some_iff] at toggled
              obtain ⟨others, flipped, rfl⟩ := toggled
              exact ⟨List.cons_ne_nil _ _, later flipped⟩

theorem oneLine_toggleLines : ∀ {lines after : List (List Char)} {index : Nat}
    {fence : Option Char}, toggleLines index fence lines = some after →
    (∀ line ∈ lines, '\n' ∉ line) → ∀ line ∈ after, '\n' ∉ line
  | [], _, _, _, toggled, _ => absurd toggled.symm (Option.some_ne_none _)
  | line :: lines, after, index, fence, toggled, oneLine => by
      obtain ⟨here, later⟩ := List.forall_mem_cons.mp oneLine
      cases seen : seenTask fence line with
      | none =>
          rw [toggleLines_cons_of_none seen, Option.map_eq_some_iff] at toggled
          obtain ⟨others, flipped, rfl⟩ := toggled
          exact List.forall_mem_cons.mpr ⟨here, oneLine_toggleLines flipped later⟩
      | some task =>
          cases index with
          | zero =>
              rw [toggleLines_cons_zero seen] at toggled
              obtain rfl := Option.some.inj toggled
              refine List.forall_mem_cons.mpr ⟨?_, later⟩
              obtain ⟨-, -, -, rfl⟩ := taskLine?_eq_some_iff.mp (of_seenTask seen).1
              have mark : '\n' ≠ task.nextMark := by
                unfold TaskLine.nextMark
                split_ifs
                · decide
                · decide
              simp only [List.mem_append, List.mem_cons, not_or] at here
              simp only [TaskLine.flipped_eq, List.mem_append, List.mem_cons, not_or]
              exact ⟨here.1, mark, here.2.2⟩
          | succ index =>
              rw [toggleLines_cons_succ seen, Option.map_eq_some_iff] at toggled
              obtain ⟨others, flipped, rfl⟩ := toggled
              exact List.forall_mem_cons.mpr ⟨here, oneLine_toggleLines flipped later⟩

end Toggle

/-- Two texts differ at one place only. -/
theorem DiffersAt.unique {first second : Nat} {text other : List Char}
    (here : DiffersAt first text other) (there : DiffersAt second text other) :
    first = second := by
  obtain ⟨before, old, new, after, rfl, rfl, changed, rfl⟩ := here
  obtain ⟨front, left, right, back, sameText, sameOther, -, rfl⟩ := there
  by_contra apart
  apply changed
  have atText := congrArg (fun list : List Char => list[before.length]?) sameText
  have atOther := congrArg (fun list : List Char => list[before.length]?) sameOther
  have same : (front ++ left :: back)[before.length]? =
      (front ++ right :: back)[before.length]? := by
    rcases Nat.lt_or_gt_of_ne apart with earlier | later
    · rw [List.getElem?_append_left earlier, List.getElem?_append_left earlier]
    · rw [List.getElem?_append_right (Nat.le_of_lt later),
        List.getElem?_append_right (Nat.le_of_lt later)]
      obtain ⟨past, shift⟩ := Nat.exists_eq_succ_of_ne_zero (Nat.sub_ne_zero_of_lt later)
      rw [shift, List.getElem?_cons_succ, List.getElem?_cons_succ]
  rw [← atText, ← atOther, List.getElem?_append_right (Nat.le_refl _),
    List.getElem?_append_right (Nat.le_refl _), Nat.sub_self, List.getElem?_cons_zero,
    List.getElem?_cons_zero] at same
  exact Option.some.inj same

section Agree

variable {Open : Type} (next : Option Open → List Char → Option Open)

/-- Every line that has the shape of a task is inside fenced code by both readings or by
none, from two open fences on. -/
def AgreeFrom (fence : Option Char) (other : Option Open) (lines : List (List Char)) : Prop :=
  ∀ index line, lines[index]? = some line → (taskLine? line).isSome →
    (((lines.take index).foldl nextFence fence).isNone ↔
      ((lines.take index).foldl next other).isNone)

variable {next} {fence : Option Char} {other : Option Open} {line : List Char}
  {lines : List (List Char)}

theorem agreeFrom_cons : AgreeFrom next fence other (line :: lines) ↔
    ((taskLine? line).isSome → (fence.isNone ↔ other.isNone)) ∧
      AgreeFrom next (nextFence fence line) (next other line) lines := by
  constructor
  · exact fun agree => ⟨agree 0 line rfl, fun index later => agree (index + 1) later⟩
  · rintro ⟨here, agree⟩ index found inLines
    cases index with
    | zero =>
        obtain rfl := Option.some.inj inLines
        exact here
    | succ index => exact agree index found inLines

/-- Marks stand behind where the lines begin. -/
theorem le_of_mem_taskMarks : ∀ {lines : List (List Char)} {other : Option Open}
    {position mark : Nat}, mark ∈ taskMarks next other position lines → position ≤ mark
  | [], _, _, _, counted => absurd counted List.not_mem_nil
  | line :: lines, other, position, mark, counted => by
      rw [taskMarks, List.mem_append] at counted
      rcases counted with here | later
      · split_ifs at here with outside
        · obtain ⟨task, -, rfl⟩ := List.mem_map.mp here
          exact Nat.le_add_right position _
        · exact absurd here List.not_mem_nil
      · have := le_of_mem_taskMarks later
        omega

/-- The marks of a line and those of the lines after it do not get mixed up. -/
theorem cons_ne_taskMarks {mark position : Nat} (before : mark < position) (marks : List Nat) :
    mark :: marks ≠ taskMarks next other position lines := by
  intro same
  have inMarks : mark ∈ taskMarks next other position lines := same ▸ List.mem_cons_self
  have := le_of_mem_taskMarks inMarks
  omega

/-- The same marks are counted exactly if the two readings agree. -/
theorem taskMarks_eq_iff : ∀ (lines : List (List Char)) (fence : Option Char)
    (other : Option Open) (position : Nat),
    taskMarks nextFence fence position lines = taskMarks next other position lines ↔
      AgreeFrom next fence other lines
  | [], fence, other, _ => by
      refine ⟨fun _ index line found => ?_, fun _ => rfl⟩
      rw [List.getElem?_nil] at found
      exact absurd found.symm (Option.some_ne_none line)
  | line :: lines, fence, other, position => by
      rw [agreeFrom_cons, ← taskMarks_eq_iff lines _ _ (position + line.length + 1), taskMarks,
        taskMarks]
      cases found : taskLine? line with
      | none => simp only [Option.toList_none, List.map_nil, ite_self, List.nil_append,
          Option.isSome_none, Bool.false_eq_true, false_implies, true_and]
      | some task =>
          have short : position + task.head.length < position + line.length + 1 := by
            obtain ⟨-, -, -, whole⟩ := taskLine?_eq_some_iff.mp found
            have long := congrArg List.length whole
            rw [List.length_append] at long
            omega
          simp only [Option.toList_some, List.map_cons, List.map_nil, Option.isSome_some,
            true_implies]
          split_ifs with outside outsideOther outsideOther
          · rw [List.singleton_append, List.singleton_append, List.cons.injEq]
            exact and_congr_left fun _ => iff_of_true rfl (iff_of_true outside outsideOther)
          · rw [List.singleton_append, List.nil_append]
            exact iff_of_false (cons_ne_taskMarks short _)
              fun agree => outsideOther (agree.1.mp outside)
          · rw [List.singleton_append, List.nil_append]
            exact iff_of_false (fun same => cons_ne_taskMarks short _ same.symm)
              fun agree => outside (agree.1.mpr outsideOther)
          · rw [List.nil_append, List.nil_append]
            exact (and_iff_right (iff_of_false outside outsideOther)).symm

end Agree

section Whole

variable {markdown : List Char}

/-- The marks that the code counts. -/
def codeMarks (markdown : List Char) : List Nat :=
  taskMarks nextFence none 0 (markdown.splitOn '\n')

theorem codeMarks_eq_iff : codeMarks markdown = noteMarks markdown ↔ FencesAgree markdown :=
  taskMarks_eq_iff _ _ _ _

theorem isSome_toggleTaskAtIndex (index : Nat) :
    (toggleTaskAtIndex markdown index).isSome ↔ index < (codeMarks markdown).length := by
  rw [toggleTaskAtIndex, if_neg (by omega), Option.isSome_map, Int.toNat_natCast]
  exact isSome_toggleLines _ _ _ _

theorem toggleTaskAtIndex_differsAt {index : Nat} {toggled : List Char}
    (flipped : toggleTaskAtIndex markdown index = some toggled) :
    ∃ place, DiffersAt place markdown toggled ∧ (codeMarks markdown)[index]? = some place := by
  rw [toggleTaskAtIndex, if_neg (by omega), Int.toNat_natCast, Option.map_eq_some_iff] at flipped
  obtain ⟨after, found, rfl⟩ := flipped
  obtain ⟨-, place, differs, counted⟩ := toggleLines_spec _ _ _ _ 0 found
  rw [joinLines_splitOn] at differs
  rw [Nat.zero_add] at counted
  exact ⟨place, differs, counted⟩

theorem normalizeBareTasks_normalizeBareTasks (markdown : List Char) :
    normalizeBareTasks (normalizeBareTasks markdown) = normalizeBareTasks markdown := by
  rw [normalizeBareTasks, splitOn_normalizeBareTasks, normalizeLines_normalizeLines,
    normalizeBareTasks]

theorem toggleTaskAtIndex_normalizeBareTasks (markdown : List Char) (index : Int) :
    (toggleTaskAtIndex markdown index).map normalizeBareTasks =
      toggleTaskAtIndex (normalizeBareTasks markdown) index := by
  unfold toggleTaskAtIndex
  split_ifs
  · rfl
  · rw [splitOn_normalizeBareTasks, ← toggleLines_normalizeLines, Option.map_map, Option.map_map]
    refine Option.map_congr fun after flipped => ?_
    have oneLine := oneLine_toggleLines flipped fun _ => Text.not_mem_of_mem_splitOn
    rw [Function.comp_apply, Function.comp_apply, normalizeBareTasks,
      splitOn_joinLines (toggleLines_spec _ _ _ _ 0 flipped).1 oneLine]

/-- A line inside fenced code is left alone, where the readings agree on tasks. -/
theorem literal_of_fencesAgree (agree : FencesAgree markdown) {index : Nat} {line : List Char}
    (inside : InFencedCode markdown index) (found : (markdown.splitOn '\n')[index]? = some line) :
    ((normalizeBareTasks markdown).splitOn '\n')[index]? = some line := by
  rw [splitOn_normalizeBareTasks, getElem?_normalizeLines, found, Option.map_some]
  split_ifs with visited
  · rcases normalizeLine_cases line with ⟨-, same⟩ | ⟨_, _, _, task, -⟩
    · rw [same]
    · have outside : fenceBefore commonMarkFence (markdown.splitOn '\n') index = none := by
        rw [← Option.isNone_iff_eq_none]
        refine (agree index line found (task ▸ rfl)).mp ?_
        rw [fenceBefore, visited.2]
        rfl
      have stays : fenceBefore commonMarkFence (markdown.splitOn '\n') (index + 1) = none := by
        rw [fenceBefore, List.take_add_one, found, Option.toList_some, List.foldl_append,
          List.foldl_cons, List.foldl_nil,
          quiet_commonMarkFence _ line (Option.isNone_iff_eq_none.mp visited.1)]
        exact outside
      rcases inside with before | after
      · exact absurd outside before
      · exact absurd stays after
  · rfl

end Whole

/-- The tasks of a note work exactly if the two ways of reading fences agree on them. -/
theorem tasksWork_iff_fencesAgree (markdown : List Char) :
    TasksWork markdown ↔ FencesAgree markdown := by
  constructor
  · intro work
    rw [← codeMarks_eq_iff]
    apply List.ext_getElem?
    intro index
    cases flipped : toggleTaskAtIndex markdown index with
    | none =>
        have counts : _ ↔ index < (codeMarks markdown).length := isSome_toggleTaskAtIndex index
        have noCode := counts.not.mp (by rw [flipped]; exact Bool.false_ne_true)
        have noNote := (work.counts index).not.mp (by rw [flipped]; exact Bool.false_ne_true)
        rw [List.getElem?_eq_none (Nat.le_of_not_lt noCode),
          List.getElem?_eq_none (Nat.le_of_not_lt noNote)]
    | some toggled =>
        obtain ⟨place, here, counted⟩ := toggleTaskAtIndex_differsAt flipped
        obtain ⟨other, there, expected⟩ := work.single index toggled flipped
        rw [counted, expected, here.unique there]
  · intro agree
    have same := codeMarks_eq_iff.mpr agree
    refine ⟨fun index => ?_, fun index toggled flipped => ?_,
      normalizeBareTasks_normalizeBareTasks markdown,
      fun index line inside found => literal_of_fencesAgree agree inside found, ?_,
      toggleTaskAtIndex_normalizeBareTasks markdown⟩
    · rw [← same]
      exact isSome_toggleTaskAtIndex index
    · rw [← same]
      exact toggleTaskAtIndex_differsAt flipped
    · rw [splitOn_normalizeBareTasks, lineTasks_normalizeLines quiet_commonMarkFence]

/-- A fence of three does not close one of four, but the box after it can be ticked. -/
theorem shorter_fence_closes : ¬∀ markdown, TasksWork markdown := by
  intro work
  have counted := (work "\x60\x60\x60\x60\n\x60\x60\x60\n- [ ] a".toList).counts 0
  revert counted
  decide

end Notes
end MindMapVault
