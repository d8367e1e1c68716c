import MindMapVault.Foundations.Ecma
import Mathlib.Data.List.TakeWhile

/-!
# Tasks in a note

A task is a box at the head of a line, with the bullet of a list or bare. A note is read
line by line; what is inside fenced code is passed over. A fence is closed here by any
fence of the same character.
-/

namespace MindMapVault
namespace Notes

/-- `[ \t]`. -/
def isBlank (char : Char) : Bool := char == ' ' || char == '\t'

/-- `[ xX]`. -/
def isMark (char : Char) : Bool := char == ' ' || char == 'x' || char == 'X'

/-- `[.)]`. -/
def isDelimiter (char : Char) : Bool := char == '.' || char == ')'

/-- `[-*+]`. -/
def isBullet (char : Char) : Bool := char == '-' || char == '*' || char == '+'

/-- `(?:[-*+]|\d+[.)])?`, and what comes after it. -/
def takeBullet (text : List Char) : List Char × List Char :=
  match text with
  | [] => ([], [])
  | char :: rest =>
      if isBullet char then ([char], rest)
      else
        match text.takeWhile Ecma.isDigit, text.dropWhile Ecma.isDigit with
        | digit :: digits, delimiter :: after =>
            if isDelimiter delimiter then (digit :: digits ++ [delimiter], after) else ([], text)
        | _, _ => ([], text)

/-- `\[([ xX])\](?=\s|$)`: the mark, and what comes after the box. -/
def takeBox (text : List Char) : Option (Char × List Char) :=
  match text with
  | opening :: mark :: closing :: rest =>
      if opening = '[' ∧ isMark mark ∧ closing = ']' ∧ rest.head?.all Ecma.isWhitespace then
        some (mark, rest)
      else none
  | _ => none

/-- What `TASK_LINE_RE` finds: the head up to the mark, the mark, and what comes after the
box. -/
structure TaskLine where
  head : List Char
  mark : Char
  rest : List Char
  deriving DecidableEq

/-- `TASK_LINE_RE`. -/
def taskLine? (line : List Char) : Option TaskLine :=
  let indent := line.takeWhile Ecma.isWhitespace
  let bulleted := takeBullet (line.dropWhile Ecma.isWhitespace)
  let gap := bulleted.2.takeWhile isBlank
  (takeBox (bulleted.2.dropWhile isBlank)).map fun box =>
    ⟨indent ++ bulleted.1 ++ gap ++ ['['], box.1, box.2⟩

/-- `BARE_TASK_RE`: the indent. -/
def bareTask? (line : List Char) : Option (List Char) :=
  (takeBox (line.dropWhile isBlank)).map fun _ => line.takeWhile isBlank

/-- A fence: its character, how often that stands there, and what comes after it. -/
structure Fence where
  mark : Char
  length : Nat
  info : List Char
  deriving DecidableEq

/-- `FENCE_RE`. -/
def fence? (line : List Char) : Option Fence :=
  match line.dropWhile Ecma.isWhitespace with
  | [] => none
  | mark :: text =>
      let run := text.takeWhile (· == mark)
      if (mark = '\x60' ∨ mark = '~') ∧ 2 ≤ run.length then
        some ⟨mark, run.length + 1, text.dropWhile (· == mark)⟩
      else none

/-- The open fence after a line. -/
def nextFence (fence : Option Char) (line : List Char) : Option Char :=
  match fence? line, fence with
  | some found, none => some found.mark
  | some found, some mark => if found.mark = mark then none else some mark
  | none, fence => fence

/-- A line with the bullet that a bare box gets. -/
def normalizeLine (line : List Char) : List Char :=
  match bareTask? line with
  | some indent => indent ++ '-' :: ' ' :: line.drop indent.length
  | none => line

/-- The loop of `normalizeBareTasks`. -/
def normalizeLines : Option Char → List (List Char) → List (List Char)
  | _, [] => []
  | fence, line :: lines =>
      (if (fence? line).isNone ∧ fence = none then normalizeLine line else line) ::
        normalizeLines (nextFence fence line) lines

/-- A line with its box flipped. -/
def TaskLine.flipped (task : TaskLine) : List Char :=
  task.head ++ (if task.mark = ' ' then 'x' else ' ') :: ']' :: task.rest

/-- The task of a line, unless the line is a fence or one is open. -/
def seenTask (fence : Option Char) (line : List Char) : Option TaskLine :=
  if (fence? line).isNone ∧ fence = none then taskLine? line else none

/-- The loop of `toggleTaskAtIndex`, with the number of tasks to pass over. -/
def toggleLines : Nat → Option Char → List (List Char) → Option (List (List Char))
  | _, _, [] => none
  | index, fence, line :: lines =>
      match seenTask fence line, index with
      | some task, 0 => some (task.flipped :: lines)
      | some _, index + 1 =>
          (toggleLines index (nextFence fence line) lines).map fun after => line :: after
      | none, index =>
          (toggleLines index (nextFence fence line) lines).map fun after => line :: after

/-- `lines.join('\n')`. -/
def joinLines (lines : List (List Char)) : List Char := ['\n'].intercalate lines

/-- `normalizeBareTasks`. Where nothing is touched the lines join to what they were split
from. -/
def normalizeBareTasks (markdown : List Char) : List Char :=
  joinLines (normalizeLines none (markdown.splitOn '\n'))

/-- `toggleTaskAtIndex`. -/
def toggleTaskAtIndex (markdown : List Char) (index : Int) : Option (List Char) :=
  if index < 0 then none
  else (toggleLines index.toNat none (markdown.splitOn '\n')).map joinLines

section Box

variable {text rest : List Char} {mark : Char}

/-- What may come after a box. -/
def Stops (rest : List Char) : Prop := rest.head?.all Ecma.isWhitespace = true

theorem takeBox_eq_some_iff : takeBox text = some (mark, rest) ↔
    isMark mark = true ∧ Stops rest ∧ text = '[' :: mark :: ']' :: rest := by
  unfold takeBox Stops
  split
  · next opening other closing after =>
      split_ifs with shape
      · obtain ⟨rfl, isMark, rfl, stops⟩ := shape
        simp only [Option.some.injEq, Prod.mk.injEq, List.cons.injEq, true_and]
        constructor
        · rintro ⟨rfl, rfl⟩
          exact ⟨isMark, stops, Eq.refl _, Eq.refl _⟩
        · rintro ⟨-, -, rfl, rfl⟩
          exact ⟨Eq.refl _, Eq.refl _⟩
      · simp only [false_iff, not_and, List.cons.injEq]
        rintro isMark stops rfl rfl rfl rfl
        exact shape ⟨Eq.refl _, isMark, Eq.refl _, stops⟩
  · next other =>
      simp only [reduceCtorEq, false_iff, not_and]
      intro _ _ same
      exact other _ _ _ _ same

end Box

section Bullets

/-- What `takeBullet` can take. -/
inductive IsBullet : List Char → Prop
  | none : IsBullet []
  | mark {char : Char} (bullet : isBullet char = true) : IsBullet [char]
  | number {digits : List Char} {delimiter : Char} (some : digits ≠ [])
      (digit : digits.all Ecma.isDigit = true) (delimits : isDelimiter delimiter = true) :
      IsBullet (digits ++ [delimiter])

theorem isBullet_takeBullet (text : List Char) :
    IsBullet (takeBullet text).1 ∧ (takeBullet text).1 ++ (takeBullet text).2 = text := by
  unfold takeBullet
  split
  · exact ⟨.none, rfl⟩
  · next char rest =>
      split_ifs with bullet
      · exact ⟨.mark bullet, rfl⟩
      · split
        · next digit digits delimiter after front back =>
            split_ifs with delimits
            · refine ⟨.number (List.cons_ne_nil _ _) ?_ delimits, ?_⟩
              · rw [← front]
                exact List.all_takeWhile
              · rw [List.append_assoc, List.singleton_append, ← front, ← back,
                  List.takeWhile_append_dropWhile]
            · exact ⟨.none, rfl⟩
        · exact ⟨.none, rfl⟩

theorem not_isBullet_of_digit {char : Char} (digit : Ecma.isDigit char = true) :
    isBullet char = false := by
  unfold isBullet
  simp only [Bool.or_eq_false_iff, beq_eq_false_iff_ne]
  refine ⟨⟨?_, ?_⟩, ?_⟩
  · rintro rfl
    revert digit
    decide
  · rintro rfl
    revert digit
    decide
  · rintro rfl
    revert digit
    decide

theorem not_digit_of_isDelimiter {char : Char} (delimits : isDelimiter char = true) :
    Ecma.isDigit char = false := by
  unfold isDelimiter at delimits
  rw [Bool.or_eq_true, beq_iff_eq, beq_iff_eq] at delimits
  rcases delimits with rfl | rfl
  · decide
  · decide

/-- A bullet is taken, whatever follows. -/
theorem takeBullet_append {bullet : List Char} (shape : IsBullet bullet)
    (some : bullet ≠ []) (text : List Char) : takeBullet (bullet ++ text) = (bullet, text) := by
  cases shape with
  | none => exact absurd rfl some
  | mark isBullet => rw [List.singleton_append, takeBullet, if_pos isBullet]
  | @number digits delimiter nonempty digit delimits =>
      cases digits with
      | nil => exact absurd rfl nonempty
      | cons first digits =>
          have firstDigit : Ecma.isDigit first = true :=
              List.all_eq_true.mp digit _ List.mem_cons_self
          have front : (first :: digits ++ delimiter :: text).takeWhile Ecma.isDigit =
              first :: digits := by
            rw [List.takeWhile_append_of_pos (List.all_eq_true.mp digit),
              List.takeWhile_cons_of_neg (by simp [not_digit_of_isDelimiter delimits]),
              List.append_nil]
          have back : (first :: digits ++ delimiter :: text).dropWhile Ecma.isDigit =
              delimiter :: text := by
            rw [List.dropWhile_append_of_pos (List.all_eq_true.mp digit),
              List.dropWhile_cons_of_neg (by simp [not_digit_of_isDelimiter delimits])]
          rw [List.append_assoc, List.singleton_append]
          rw [List.cons_append] at front back ⊢
          rw [takeBullet, if_neg (by simp [not_isBullet_of_digit firstDigit]), front, back]
          simp only [delimits, if_true]

theorem bounds_of_digit {char : Char} (digit : Ecma.isDigit char = true) :
    48 ≤ char.toNat ∧ char.toNat ≤ 57 := by
  unfold Ecma.isDigit at digit
  simp only [Bool.and_eq_true, decide_eq_true_eq, Char.le_def, UInt32.le_iff_toNat_le] at digit
  exact digit

/-- A bullet begins with a dark character that begins no fence. -/
theorem IsBullet.head {char : Char} {others : List Char} (shape : IsBullet (char :: others)) :
    Ecma.isWhitespace char = false ∧ char ≠ '\x60' ∧ char ≠ '~' := by
  have digits (digit : Ecma.isDigit char = true) :
      Ecma.isWhitespace char = false ∧ char ≠ '\x60' ∧ char ≠ '~' := by
    have bounds := bounds_of_digit digit
    refine ⟨Ecma.dark_of_ascii (by omega) (by omega), ?_, ?_⟩
    · rintro rfl
      exact absurd bounds (by decide)
    · rintro rfl
      exact absurd bounds (by decide)
  generalize whole : char :: others = bullet at shape
  cases shape with
  | none => exact absurd whole (List.cons_ne_nil _ _)
  | mark isBullet =>
      obtain ⟨rfl, -⟩ := List.cons.inj whole
      unfold Notes.isBullet at isBullet
      simp only [Bool.or_eq_true, beq_iff_eq] at isBullet
      rcases isBullet with (rfl | rfl) | rfl
      · decide
      · decide
      · decide
  | @number numerals delimiter nonempty digit =>
      cases numerals with
      | nil => exact absurd rfl nonempty
      | cons first numerals =>
          obtain ⟨rfl, -⟩ := List.cons.inj whole
          exact digits (List.all_eq_true.mp digit _ List.mem_cons_self)

end Bullets

section Lines

variable {line : List Char}

/-- The head of a task: an indent, perhaps a bullet, a gap, and the opening bracket. -/
def IsHead (head : List Char) : Prop :=
  ∃ indent bullet gap, head = indent ++ bullet ++ gap ++ ['['] ∧
    indent.all Ecma.isWhitespace = true ∧ IsBullet bullet ∧ gap.all isBlank = true

theorem isWhitespace_of_isBlank {char : Char} (blank : isBlank char = true) :
    Ecma.isWhitespace char = true := by
  unfold isBlank at blank
  rw [Bool.or_eq_true, beq_iff_eq, beq_iff_eq] at blank
  rcases blank with rfl | rfl
  · decide
  · decide

theorem taskLine?_eq_some_iff {task : TaskLine} : taskLine? line = some task ↔
    IsHead task.head ∧ isMark task.mark = true ∧ Stops task.rest ∧
      line = task.head ++ task.mark :: ']' :: task.rest := by
  constructor
  · intro found
    obtain ⟨box, taken, rfl⟩ := Option.map_eq_some_iff.mp found
    obtain ⟨mark, stops, boxed⟩ := takeBox_eq_some_iff.mp taken
    obtain ⟨bullet, whole⟩ := isBullet_takeBullet (line.dropWhile Ecma.isWhitespace)
    refine ⟨⟨_, _, _, rfl, List.all_takeWhile, bullet, List.all_takeWhile⟩, mark, stops, ?_⟩
    have gap := List.takeWhile_append_dropWhile (p := isBlank)
      (l := (takeBullet (line.dropWhile Ecma.isWhitespace)).2)
    nth_rewrite 1 [← List.takeWhile_append_dropWhile (p := Ecma.isWhitespace) (l := line),
      ← whole, ← gap, boxed]
    simp only [List.append_assoc, List.singleton_append]
  · rintro ⟨⟨indent, bullet, gap, shape, white, isBullet, blank⟩, mark, stops, rfl⟩
    obtain ⟨head, marked, rest⟩ := task
    dsimp only at shape mark stops ⊢
    subst shape
    have box : takeBox ('[' :: marked :: ']' :: rest) = some (marked, rest) :=
      takeBox_eq_some_iff.mpr ⟨mark, stops, rfl⟩
    have gapped (before : List Char) (blanks : before.all isBlank = true) :
        (before ++ '[' :: marked :: ']' :: rest).takeWhile isBlank = before ∧
          (before ++ '[' :: marked :: ']' :: rest).dropWhile isBlank =
            '[' :: marked :: ']' :: rest :=
      Text.takeWhile_append_other isBlank before _ blanks rfl
    cases bullet with
    | nil =>
        have whiteGap : (indent ++ gap).all Ecma.isWhitespace = true := by
          rw [List.all_append, white, Bool.true_and, List.all_eq_true]
          exact fun char inGap =>
            isWhitespace_of_isBlank (List.all_eq_true.mp blank char inGap)
        have indented := Text.takeWhile_append_other Ecma.isWhitespace (indent ++ gap)
          ('[' :: marked :: ']' :: rest) whiteGap rfl
        have bare : takeBullet ('[' :: marked :: ']' :: rest) =
            ([], '[' :: marked :: ']' :: rest) := rfl
        have whole : indent ++ gap ++ ['['] ++ marked :: ']' :: rest =
            indent ++ gap ++ '[' :: marked :: ']' :: rest := by
          simp only [List.append_assoc, List.singleton_append]
        have none := gapped [] rfl
        rw [List.nil_append] at none
        simp only [List.append_nil, whole]
        simp only [taskLine?, indented, bare, none, box, Option.map_some, List.append_nil]
    | cons first others =>
        have indented := Text.takeWhile_append_other Ecma.isWhitespace indent
          ((first :: others) ++ (gap ++ '[' :: marked :: ']' :: rest)) white isBullet.head.1
        have whole : indent ++ (first :: others) ++ gap ++ ['['] ++ marked :: ']' :: rest =
            indent ++ ((first :: others) ++ (gap ++ '[' :: marked :: ']' :: rest)) := by
          simp only [List.append_assoc, List.singleton_append]
        simp only [taskLine?, whole, indented,
          takeBullet_append isBullet (List.cons_ne_nil first others), gapped gap blank, box,
          Option.map_some]

theorem bareTask?_eq_some_iff {indent : List Char} : bareTask? line = some indent ↔
    indent.all isBlank = true ∧ ∃ mark rest, isMark mark = true ∧ Stops rest ∧
      line = indent ++ '[' :: mark :: ']' :: rest := by
  constructor
  · intro found
    obtain ⟨box, taken, rfl⟩ := Option.map_eq_some_iff.mp found
    obtain ⟨mark, stops, boxed⟩ := takeBox_eq_some_iff.mp taken
    refine ⟨List.all_takeWhile, box.1, box.2, mark, stops, ?_⟩
    rw [← boxed, List.takeWhile_append_dropWhile]
  · rintro ⟨blank, mark, rest, isMark, stops, rfl⟩
    have indented := Text.takeWhile_append_other isBlank indent
      ('[' :: mark :: ']' :: rest) blank rfl
    have box : takeBox ('[' :: mark :: ']' :: rest) = some (mark, rest) :=
      takeBox_eq_some_iff.mpr ⟨isMark, stops, rfl⟩
    simp only [bareTask?, indented, box, Option.map_some]

/-- A bare box is a task. -/
theorem taskLine?_of_bareTask? {indent : List Char} (bare : bareTask? line = some indent) :
    ∃ mark rest, isMark mark = true ∧ Stops rest ∧
      line = indent ++ '[' :: mark :: ']' :: rest ∧
      taskLine? line = some ⟨indent ++ ['['], mark, rest⟩ := by
  obtain ⟨blank, mark, rest, isMark, stops, rfl⟩ := bareTask?_eq_some_iff.mp bare
  refine ⟨mark, rest, isMark, stops, rfl, taskLine?_eq_some_iff.mpr ⟨?_, isMark, stops, ?_⟩⟩
  · refine ⟨indent, [], [], by simp only [List.append_nil], ?_, .none, rfl⟩
    exact List.all_eq_true.mpr fun char inIndent =>
      isWhitespace_of_isBlank (List.all_eq_true.mp blank char inIndent)
  · rw [List.append_assoc, List.singleton_append]

/-- A task is no fence. -/
theorem fence?_of_isHead {head rest : List Char} (isHead : IsHead head) :
    fence? (head ++ rest) = none := by
  have dark (indent : List Char) (char : Char) (others : List Char)
      (white : indent.all Ecma.isWhitespace = true)
      (isDark : Ecma.isWhitespace char = false)
      (noFence : char ≠ '\x60' ∧ char ≠ '~') :
      fence? (indent ++ char :: others) = none := by
    have dropped := Text.takeWhile_append_other Ecma.isWhitespace indent (char :: others) white
      isDark
    simp only [fence?, dropped, noFence, or_self, false_and, if_false]
  obtain ⟨indent, bullet, gap, rfl, white, isBullet, blank⟩ := isHead
  cases bullet with
  | nil =>
      have whiteGap : (indent ++ gap).all Ecma.isWhitespace = true := by
        rw [List.all_append, white, Bool.true_and, List.all_eq_true]
        exact fun char inGap =>
          isWhitespace_of_isBlank (List.all_eq_true.mp blank char inGap)
      have none := dark (indent ++ gap) '[' rest whiteGap rfl (by decide)
      simpa only [List.append_nil, List.append_assoc, List.singleton_append] using none
  | cons first others =>
      have none := dark indent first (others ++ (gap ++ '[' :: rest)) white isBullet.head.1
        isBullet.head.2
      simpa only [List.cons_append, List.append_assoc, List.nil_append] using none

end Lines

section Changes

variable {line : List Char} {task : TaskLine}

/-- A task whose mark is another one. -/
theorem taskLine?_remark (found : taskLine? line = some task) {mark : Char}
    (isMark : Notes.isMark mark = true) :
    taskLine? (task.head ++ mark :: ']' :: task.rest) = some { task with mark := mark } := by
  obtain ⟨head, -, stops, -⟩ := taskLine?_eq_some_iff.mp found
  exact taskLine?_eq_some_iff.mpr ⟨head, isMark, stops, rfl⟩

/-- Which boxes are bare does not depend on their marks. -/
theorem bareTask?_remark (found : taskLine? line = some task) {mark : Char}
    (isMark : Notes.isMark mark = true) :
    bareTask? (task.head ++ mark :: ']' :: task.rest) = bareTask? line := by
  -- A bare box keeps its indent when it gets another mark.
  have keeps {old new : Char} {indent : List Char}
      (oldMark : Notes.isMark old = true) (newMark : Notes.isMark new = true)
      (bare : bareTask? (task.head ++ old :: ']' :: task.rest) = some indent) :
      bareTask? (task.head ++ new :: ']' :: task.rest) = some indent := by
    obtain ⟨blank, -⟩ := bareTask?_eq_some_iff.mp bare
    obtain ⟨other, rest, -, stops, -, found'⟩ := taskLine?_of_bareTask? bare
    rw [taskLine?_remark found oldMark] at found'
    obtain ⟨head, -, -⟩ := TaskLine.mk.inj (Option.some.inj found')
    refine bareTask?_eq_some_iff.mpr ⟨blank, new, task.rest, newMark, ?_, ?_⟩
    · exact (taskLine?_eq_some_iff.mp found).2.2.1
    · rw [head, List.append_assoc, List.singleton_append]
  obtain ⟨-, oldMark, -, whole⟩ := taskLine?_eq_some_iff.mp found
  rw [whole]
  ext indent
  exact ⟨keeps isMark oldMark, keeps oldMark isMark⟩

/-- What `normalizeLine` makes of a line: nothing else, unless the box is bare; then it is a
task with the same mark and a bullet. -/
theorem normalizeLine_cases (line : List Char) :
    (bareTask? line = none ∧ normalizeLine line = line) ∨
      ∃ indent mark rest,
        taskLine? line = some ⟨indent ++ ['['], mark, rest⟩ ∧
        bareTask? line = some indent ∧
        normalizeLine line = indent ++ ['-', ' ', '['] ++ mark :: ']' :: rest ∧
        taskLine? (normalizeLine line) = some ⟨indent ++ ['-', ' ', '['], mark, rest⟩ ∧
        bareTask? (normalizeLine line) = none := by
  cases bare : bareTask? line with
  | none => exact .inl ⟨rfl, by rw [normalizeLine, bare]⟩
  | some indent =>
      obtain ⟨mark, rest, isMark, stops, whole, found⟩ := taskLine?_of_bareTask? bare
      obtain ⟨blank, -⟩ := bareTask?_eq_some_iff.mp bare
      have written : normalizeLine line = indent ++ ['-', ' ', '['] ++ mark :: ']' :: rest := by
        rw [normalizeLine, bare]
        simp only [whole, List.drop_left, List.append_assoc, List.cons_append, List.nil_append]
      refine .inr ⟨indent, mark, rest, found, rfl, written, ?_, ?_⟩
      · rw [written]
        refine taskLine?_eq_some_iff.mpr ⟨⟨indent, ['-'], [' '], ?_, ?_, .mark rfl, rfl⟩,
          isMark, stops, rfl⟩
        · simp only [List.append_assoc, List.cons_append, List.nil_append]
        · exact List.all_eq_true.mpr fun char inIndent =>
            isWhitespace_of_isBlank (List.all_eq_true.mp blank char inIndent)
      · have indented := Text.takeWhile_append_other isBlank indent
          ('-' :: ' ' :: '[' :: mark :: ']' :: rest) blank rfl
        have same : indent ++ ['-', ' ', '['] ++ mark :: ']' :: rest =
            indent ++ '-' :: ' ' :: '[' :: mark :: ']' :: rest := by
          simp only [List.append_assoc, List.cons_append, List.nil_append]
        rw [written, same, bareTask?, indented.2]
        rfl

/-- A line is given a bullet once. -/
theorem normalizeLine_normalizeLine (line : List Char) :
    normalizeLine (normalizeLine line) = normalizeLine line := by
  rcases normalizeLine_cases line with ⟨-, same⟩ | ⟨_, _, _, -, -, -, -, settled⟩
  · rw [same, same]
  · nth_rewrite 1 [normalizeLine]
    rw [settled]

/-- A line keeps the mark of its box when it is given a bullet. -/
theorem mark_normalizeLine (line : List Char) :
    (taskLine? (normalizeLine line)).map TaskLine.mark = (taskLine? line).map TaskLine.mark := by
  rcases normalizeLine_cases line with ⟨-, same⟩ | ⟨_, _, _, before, -, -, after, -⟩
  · rw [same]
  · rw [before, after, Option.map_some, Option.map_some]

/-- A task has no fence. -/
theorem fence?_of_taskLine? (found : taskLine? line = some task) : fence? line = none := by
  obtain ⟨head, -, -, whole⟩ := taskLine?_eq_some_iff.mp found
  rw [whole]
  exact fence?_of_isHead head

theorem fence?_normalizeLine (noFence : fence? line = none) :
    fence? (normalizeLine line) = none := by
  rcases normalizeLine_cases line with ⟨-, same⟩ | ⟨_, _, _, -, -, -, after, -⟩
  · rw [same, noFence]
  · exact fence?_of_taskLine? after

/-- The mark that a box gets. -/
def TaskLine.nextMark (task : TaskLine) : Char := if task.mark = ' ' then 'x' else ' '

theorem TaskLine.isMark_nextMark (task : TaskLine) : Notes.isMark task.nextMark = true := by
  unfold nextMark
  split_ifs
  · rfl
  · rfl

theorem TaskLine.nextMark_ne (task : TaskLine) : task.mark ≠ task.nextMark := by
  unfold nextMark
  split_ifs with blank
  · rw [blank]
    decide
  · exact blank

theorem TaskLine.flipped_eq (task : TaskLine) :
    task.flipped = task.head ++ task.nextMark :: ']' :: task.rest := rfl

theorem fence?_flipped (found : taskLine? line = some task) : fence? task.flipped = none :=
  fence?_of_taskLine? (taskLine?_remark found task.isMark_nextMark)

theorem seenTask_eq (fence : Option Char) (line : List Char) :
    seenTask fence line = if fence.isNone then taskLine? line else none := by
  unfold seenTask
  cases found : taskLine? line with
  | none => rw [ite_self, ite_self]
  | some task => simp only [fence?_of_taskLine? found, Option.isNone_none, true_and,
      Option.isNone_iff_eq_none]

/-- A box can be flipped before or after its line is given a bullet. -/
theorem normalizeLine_flipped (found : taskLine? line = some task) :
    ∃ after, taskLine? (normalizeLine line) = some after ∧
      normalizeLine task.flipped = after.flipped := by
  have flips := bareTask?_remark found task.isMark_nextMark
  rw [← TaskLine.flipped_eq] at flips
  rcases normalizeLine_cases line with
    ⟨notBare, same⟩ | ⟨indent, mark, rest, before, bare, -, after, -⟩
  · refine ⟨task, by rw [same, found], ?_⟩
    rw [normalizeLine, flips, notBare]
  · obtain rfl := Option.some.inj (found.symm.trans before)
    refine ⟨_, after, ?_⟩
    rw [normalizeLine, flips, bare]
    simp only [TaskLine.flipped, List.append_assoc, List.cons_append, List.nil_append,
      List.drop_left]

end Changes

end Notes
end MindMapVault
