import MindMapVault.Formats.MarkdownPrefix

/-!
# What the lines of an export are read as

The line of a node is a heading or an item with its text, the lines of its notes are added to
its notes, and the lines of what else it carries to what it carries.
-/

namespace MindMapVault
namespace Formats

open Ecma Regex

section Blanks

theorem all_blanks (times : Nat) : (blanks times).all Ecma.isWhitespace = true := by
  induction times with
  | zero => rfl
  | succ times ih =>
      rw [blanks, List.replicate_succ, List.flatten_cons, List.all_append]
      rw [blanks] at ih
      rw [ih]
      rfl

theorem blanks_succ (times : Nat) : blanks (times + 1) = ' ' :: ' ' :: blanks times := by
  rw [blanks, List.replicate_succ, List.flatten_cons]
  rfl

/-- The depth of an item is what it was indented by. -/
theorem listDepth_blanks (times : Nat) : listDepth (blanks times) = times := by
  have counted : ((blanks times).takeWhile fun char => char == ' ' || char == '\t').map
      (fun char => if char = ' ' then 1 else 4) = List.replicate (2 * times) 1 := by
    induction times with
    | zero => rfl
    | succ times ih =>
        rw [blanks_succ, Nat.mul_succ, List.replicate_add]
        simp only [List.takeWhile_cons, beq_self_eq_true, Bool.true_or, if_true, List.map_cons, ih]
        rw [← List.replicate_add, Nat.add_comm, List.replicate_add]
        rfl
  rw [listDepth, counted]
  simp

end Blanks

section Kinds

variable {line rest text : Chars} {char : Char}

/-- The characters of horizontal rules. -/
def isRule (char : Char) : Bool := char == '-' || char == '*' || char == '_' || char == '+'

theorem within_char {ok : Char → Bool} (char : Char) (matched : ok char = true) :
    (Regex.char char).Within ok :=
  (within_run _ _ _).mono fun _ same => beq_iff_eq.mp same ▸ matched

/-- What has other characters is not a horizontal rule. -/
theorem ruleLine_of_mem (inLine : char ∈ line) (other : isRule char = false) :
    Regex.test ruleLine line = false := by
  have within : (Regex.capture 1 (.either (.literal "---")
      (.either (.run (fun char => char == '*' || char == '_') 3 none true)
        (.run (· == '+') 3 none true)))).Within isRule := by
    refine Regex.Within.capture (.either ?_ (.either ?_ ?_))
    · exact (within_char '-' rfl).seq ((within_char '-' rfl).seq (within_char '-' rfl))
    · refine (within_run _ _ _).mono fun found isFound => ?_
      unfold isRule
      simp only [Bool.or_eq_true] at isFound ⊢
      tauto
    · refine (within_run _ _ _).mono fun found isFound => ?_
      unfold isRule
      simp only [Bool.or_eq_true]
      exact .inr isFound
  rw [test_eq_isSome]
  exact congrArg Option.isSome (match?_whole within inLine other)

/-- What begins otherwise is not a comment. -/
theorem commentLine_of_head (shape : line.dropWhile Ecma.isWhitespace = char :: rest)
    (other : char ≠ '<') : Regex.test commentLine line = false := by
  have leads : (Regex.literal "<!--").Leads (· == '<') := (leads_one _).seq
  rw [test_eq_isSome]
  exact congrArg Option.isSome (match?_of_within (within_run _ _ _) leads
    (fun found same => by rw [beq_iff_eq.mp same]; rfl) shape (by simpa using other))

/-- What does not begin with a hash is not a heading. -/
theorem matchHeading_of_head (other : char ≠ '#') :
    matchHeading (char :: rest) = none := by
  have leads : (Regex.capture 1 (.run (· == '#') 1 (some 6) true)).Leads (· == '#') :=
    (leads_run (le_refl 1)).capture
  exact congrArg _ (match?_of_leads leads.seq (by simpa using other))

/-- The characters that items begin with. -/
def isItemMark (char : Char) : Bool := isBullet char || Ecma.isDigit char

theorem isItemMark_dark (isMark : isItemMark char = true) :
    Ecma.isWhitespace char = false := by
  unfold isItemMark isBullet Ecma.isDigit at isMark
  simp only [Bool.or_eq_true, beq_iff_eq, Bool.and_eq_true, decide_eq_true_eq] at isMark
  rcases isMark with ((rfl | rfl) | rfl) | ⟨low, high⟩
  · rfl
  · rfl
  · rfl
  · have least : 48 ≤ char.toNat := low
    have most : char.toNat ≤ 57 := high
    unfold Ecma.isWhitespace
    simp only [Bool.or_eq_false_iff, Bool.and_eq_false_iff, decide_eq_false_iff_not,
      beq_eq_false_iff_ne]
    omega

/-- A line that does not begin with a mark of items is none. -/
theorem matchItem_of_head {mark : Regex} (leads : mark.Leads isItemMark)
    (shape : line.dropWhile Ecma.isWhitespace = char :: rest)
    (other : isItemMark char = false) : matchItem mark line = none :=
  congrArg _ (match?_of_within (within_run _ _ _).capture leads.seq
    (fun _ isMark => isItemMark_dark isMark) shape other)

/-- What begins otherwise is not an item. -/
theorem matchItems_of_head (shape : line.dropWhile Ecma.isWhitespace = char :: rest)
    (other : isItemMark char = false) :
    (matchListItem line).or (matchOrderedListItem line) = none := by
  have bullets : (Regex.one isBullet).Leads isItemMark :=
    (leads_one _).mono fun _ matched => Bool.or_eq_true_iff.mpr (.inl matched)
  have numbers : orderedMark.Leads isItemMark :=
    ((leads_run (le_refl 1)).seq).mono fun _ matched => Bool.or_eq_true_iff.mpr (.inr matched)
  rw [matchListItem, matchOrderedListItem, matchItem_of_head bullets shape other,
    matchItem_of_head numbers shape other]
  rfl

end Kinds

section Items

variable {rest text : Chars} {node : NodeFields}

/-- A text up to a line break. -/
def oneLine (text : Chars) : Chars := text.takeWhile Ecma.isDot

theorem oneLine_cons {char : Char} (dark : Ecma.isWhitespace char = false)
    (text : Chars) : oneLine (char :: text) = char :: oneLine text :=
  List.takeWhile_cons_of_pos (isDot_of_dark dark)

theorem Opens.oneLine (opens : Opens text) : Opens (oneLine text) := by
  obtain ⟨char, rest, rfl, dark, other⟩ := opens
  exact ⟨char, Formats.oneLine rest, oneLine_cons dark rest, dark, other⟩

/-- A pattern for the rest of a line takes just that. -/
theorem reaches_oneLine (index : Nat) (text : Chars) (groups : Regex.Groups) :
    (Regex.capture index (.many Ecma.isDot)).Reaches text groups (text.dropWhile Ecma.isDot)
      ((index, oneLine text) :: groups) := by
  have stops : ∀ char ∈ (text.dropWhile Ecma.isDot).head?, Ecma.isDot char = false := by
    intro char isHead
    have dark := List.head?_dropWhile_not Ecma.isDot text
    rw [isHead] at dark
    exact dark
  have reaches : (Regex.capture index (.many Ecma.isDot)).Reaches
      (text.takeWhile Ecma.isDot ++ text.dropWhile Ecma.isDot) groups (text.dropWhile Ecma.isDot)
      ((index, oneLine text) :: groups) :=
    (reaches_run List.all_takeWhile (fun _ => stops) (Nat.zero_le _)
      (fun _ absent => by cases absent)).capture
  rwa [List.takeWhile_append_dropWhile] at reaches

/-- The line of an item is matched with its depth and its text. -/
theorem matchListItem_item (times : Nat) (begins : Begins text) :
    matchListItem (blanks times ++ '-' :: ' ' :: text) = some (taskItem times (oneLine text)) := by
  have indented : (Regex.capture 1 (.many Ecma.isWhitespace)).Reaches
      (blanks times ++ '-' :: ' ' :: text) [] ('-' :: ' ' :: text) [(1, blanks times)] := by
    refine (reaches_run (all_blanks times) (fun _ => ?_) (Nat.zero_le _)
      (fun _ absent => by cases absent)).capture
    rintro char ⟨⟩
    rfl
  have found : ∃ taken, match? (itemLine (.one isBullet))
      (blanks times ++ '-' :: ' ' :: text) =
        some ⟨taken, text.dropWhile Ecma.isDot, [(2, oneLine text), (1, blanks times)]⟩ :=
    match?_of_reaches <|
      reaches_all_cons indented <|
      reaches_all_cons (reaches_one rfl) <|
      reaches_all_cons (reaches_blank begins) (reaches_oneLine 2 text _)
  obtain ⟨taken, found⟩ := found
  rw [matchListItem, matchItem, found]
  exact congrArg (fun depth => some (taskItem depth (oneLine text))) (listDepth_blanks times)

theorem bounds_of_alphanumeric {char : Char} (isAlphanumeric : isAlphanumeric char = true) :
    48 ≤ char.toNat ∧ char.toNat ≤ 122 := by
  unfold Formats.isAlphanumeric Ecma.isLetter Ecma.isDigit at isAlphanumeric
  simp only [Bool.or_eq_true, Bool.and_eq_true, decide_eq_true_eq] at isAlphanumeric
  rcases isAlphanumeric with (⟨low, high⟩ | ⟨low, high⟩) | ⟨low, high⟩
  · have least : 65 ≤ char.toNat := low
    have most : char.toNat ≤ 90 := high
    omega
  · have least : 97 ≤ char.toNat := low
    have most : char.toNat ≤ 122 := high
    omega
  · have least : 48 ≤ char.toNat := low
    have most : char.toNat ≤ 57 := high
    omega

theorem dark_of_alphanumeric {char : Char} (isAlphanumeric : isAlphanumeric char = true) :
    Ecma.isWhitespace char = false := by
  have bounds := bounds_of_alphanumeric isAlphanumeric
  exact dark_of_ascii (by omega) (by omega)

theorem isDot_of_alphanumeric {char : Char}
    (isAlphanumeric : isAlphanumeric char = true) : Ecma.isDot char = true :=
  isDot_of_dark (dark_of_alphanumeric isAlphanumeric)

theorem isDot_of_digit {char : Char} (isDigit : Ecma.isDigit char = true) :
    Ecma.isDot char = true :=
  isDot_of_alphanumeric (Bool.or_eq_true_iff.mpr (.inr isDigit))

theorem percentText_dots (marked : Marked node) :
    (percentText node.progress).all Ecma.isDot = true := by
  cases percent : node.progress with
  | none => rfl
  | some digits =>
      have each := List.all_eq_true.mp (marked.progress digits percent).1
      refine List.all_eq_true.mpr fun char listed => ?_
      simp only [percentText, List.cons_append, List.mem_cons, List.mem_append] at listed
      rcases listed with rfl | inDigits | inRest
      · rfl
      · exact isDot_of_digit (each char inDigits)
      · have closing : "%] ".toList.all Ecma.isDot = true := rfl
        exact List.all_eq_true.mp closing char inRest

theorem iconsText_dots : ∀ {icons : List Chars}, (∀ icon ∈ icons, IsIcon icon) →
    (iconsText icons).all Ecma.isDot = true
  | [], _ => rfl
  | icon :: icons, isIcon => by
      obtain ⟨isFirst, others⟩ := List.forall_mem_cons.mp isIcon
      have each := List.all_eq_true.mp isFirst.1
      have name : icon.all Ecma.isDot = true :=
        List.all_eq_true.mpr fun char listed => isDot_of_alphanumeric (each char listed)
      rw [iconsText_cons, List.all_cons, List.all_append, List.all_cons, List.all_cons, name,
        iconsText_dots others]
      rfl

/-- What is written before a text is on its line. -/
theorem inlinePrefix_dots (marked : Marked node) : (inlinePrefix node).all Ecma.isDot = true := by
  have box : (boxText node.checked).all Ecma.isDot = true := by
    rcases node.checked with none | ticked
    · rfl
    · cases ticked <;> rfl
  rw [inlinePrefix, List.all_append, List.all_append, box, percentText_dots marked,
    iconsText_dots marked.icons]
  rfl

/-- A text with a percentage and icons before it. -/
def unboxed (node : NodeFields) (text : Chars) : Chars :=
  percentText node.progress ++ (iconsText node.icons ++ text)

theorem begins_unboxed (node : NodeFields) (begins : Begins text) :
    Begins (unboxed node text) := by
  rw [unboxed]
  cases node.progress with
  | none => exact begins_iconsText node.icons begins
  | some digits => exact ⟨'[', _, rfl, rfl⟩

theorem begins_written (node : NodeFields) (begins : Begins text) :
    Begins (boxText node.checked ++ unboxed node text) := by
  cases node.checked with
  | none => exact begins_unboxed node begins
  | some ticked => cases ticked <;> exact ⟨'[', _, rfl, rfl⟩

theorem trimEnd_unboxed (node : NodeFields) (begins : Begins text) :
    Ecma.trimEnd (unboxed node text) = unboxed node (Ecma.trimEnd text) := by
  have some := begins.trimEnd.ne_nil
  rw [unboxed, unboxed, ← List.append_assoc, trimEnd_append some, List.append_assoc]

theorem isBox_of_digit {char : Char} (isDigit : Ecma.isDigit char = true) :
    isBox char = false := by
  unfold Ecma.isDigit at isDigit
  simp only [Bool.and_eq_true, decide_eq_true_eq] at isDigit
  by_contra box
  unfold isBox at box
  simp only [Bool.not_eq_false, Bool.or_eq_true, beq_iff_eq] at box
  rcases box with (rfl | rfl) | rfl
  · exact absurd isDigit (by decide)
  · exact absurd isDigit (by decide)
  · exact absurd isDigit (by decide)

/-- No checkbox stands before a percentage. -/
theorem match?_box_unboxed (marked : Marked node) (opens : Opens text) (regex : Regex) :
    match? (.seq .start (.seq (.char '[') (.seq (.capture 1 (.one isBox)) regex)))
      (unboxed node text) = none := by
  rw [unboxed]
  cases percent : node.progress with
  | none =>
      obtain ⟨char, rest, same, -, other⟩ := opens_iconsText node.icons opens
      rw [percentText, List.nil_append, same]
      exact match?_of_leads (leads_one _).seq (by simpa using other)
  | some digits =>
      obtain ⟨each, long, -⟩ := marked.progress digits percent
      cases digits with
      | nil => exact absurd long (by decide)
      | cons digit digits =>
          rw [List.all_cons, Bool.and_eq_true] at each
          have noBox (atStart : Bool) (rest : Chars) (groups : Regex.Groups) :
              (Regex.seq (.capture 1 (.one isBox)) regex).steps atStart (digit :: rest) groups =
                [] := by
            refine steps_seq_of_nil ?_
            rw [Regex.steps, steps_one_cons, isBox_of_digit each.1]
            rfl
          rw [match?_start, steps_seq_of_fails]
          · rfl
          · intro former listed
            rw [percentText, List.cons_append, List.cons_append, Regex.char, steps_one_cons,
              if_pos (beq_self_eq_true '[')] at listed
            rw [List.mem_singleton.mp listed]
            exact noBox _ _ _

/-- The text of an item that was written. -/
theorem taskItem_written (marked : Marked node) (opens : Opens text)
    (dots : text.all Ecma.isDot = true) (depth : Nat) :
    taskItem depth (boxText node.checked ++ unboxed node text) =
      (depth, unboxed node (Ecma.trimEnd text), node.checked) := by
  have begins := begins_unboxed node opens.begins
  have trimmed : trimChars (unboxed node text) = unboxed node (Ecma.trimEnd text) := by
    rw [trimChars_of_begins begins, trimEnd_unboxed node opens.begins]
  have whole : oneLine (unboxed node text) = unboxed node text := by
    refine List.takeWhile_eq_self_iff.mpr (List.all_eq_true.mp ?_)
    rw [unboxed, List.all_append, List.all_append, percentText_dots marked,
      iconsText_dots marked.icons, dots]
    rfl
  have ticking {box : Char} (ticks : isBox box = true) :
      taskItem depth ('[' :: box :: ']' :: ' ' :: unboxed node text) =
        (depth, unboxed node (Ecma.trimEnd text), some (isTicked [box])) := by
    have inside : (Regex.capture 1 (.one isBox)).Reaches
        ([box] ++ ']' :: ' ' :: unboxed node text) [] (']' :: ' ' :: unboxed node text)
        [(1, [box])] := (reaches_one ticks).capture
    have found : ∃ taken, match? taskText ('[' :: box :: ']' :: ' ' :: unboxed node text) =
        some ⟨taken, (unboxed node text).dropWhile Ecma.isDot,
          [(2, oneLine (unboxed node text)), (1, [box])]⟩ :=
      match?_of_reaches <|
        reaches_all_cons (reaches_char '[') <|
        reaches_all_cons inside <|
        reaches_all_cons (reaches_char ']') <|
        reaches_all_cons (reaches_blank begins) (reaches_oneLine 2 _ _)
    obtain ⟨taken, found⟩ := found
    rw [taskItem, found]
    dsimp only
    rw [group_cons, whole, trimmed]
    rfl
  cases node.checked with
  | none =>
      have none := match?_box_unboxed marked opens
        (.seq (.char ']') (.seq (.many1 Ecma.isWhitespace) (.capture 2 (.many Ecma.isDot))))
      rw [boxText, List.nil_append, taskItem, show match? taskText _ = _ from none]
      rw [trimmed]
  | some ticked =>
      cases ticked with
      | true => exact ticking rfl
      | false => exact ticking rfl

end Items

section Reading

variable {ids : Nat → String} {toIsoDate : Chars → Chars} {reading : Reading}
variable {node : NodeFields} {text : Chars}

/-- A line that is neither blank nor a rule nor a comment. -/
structure Told (line : Chars) : Prop where
  some : trimChars line ≠ []
  rule : Regex.test ruleLine (trimChars line) = false
  comment : Regex.test commentLine line = false

variable {rawLine : Chars} (told : Told (Ecma.trimEnd rawLine))

include told

/-- A heading opens a node. -/
theorem readLine_of_heading {level : Nat} {headingText : Chars}
    (heading : matchHeading (Ecma.trimEnd rawLine) = some (level, headingText)) :
    readLine ids toIsoDate reading rawLine =
      reading.openNode (nodeOf (ids reading.drawn) none headingText) level := by
  unfold readLine
  rw [if_neg (by simp [told.some, told.rule]), if_neg (by simp [told.comment]), heading]

/-- An item opens a node. -/
theorem readLine_of_item {depth : Nat} {itemText : Chars} {checked : Option Bool}
    (heading : matchHeading (Ecma.trimEnd rawLine) = none)
    (item : (matchListItem (Ecma.trimEnd rawLine)).or
      (matchOrderedListItem (Ecma.trimEnd rawLine)) = some (depth, itemText, checked)) :
    readLine ids toIsoDate reading rawLine =
      reading.openNode (nodeOf (ids reading.drawn) checked itemText)
        (headingBase reading + headingMaxLevel + 1 + depth) := by
  unfold readLine
  rw [if_neg (by simp [told.some, told.rule]), if_neg (by simp [told.comment]), heading, item]

/-- A line that opens no node says something about the last one, or is one of its own. -/
theorem readLine_of_other (heading : matchHeading (Ecma.trimEnd rawLine) = none)
    (item : (matchListItem (Ecma.trimEnd rawLine)).or
      (matchOrderedListItem (Ecma.trimEnd rawLine)) = none) :
    (∀ found, matchMetadata (trimChars (Ecma.trimEnd rawLine)) = some found →
      readLine ids toIsoDate reading rawLine = reading.changeLast (applyMetadata toIsoDate found)) ∧
    (∀ step, matchMetadata (trimChars (Ecma.trimEnd rawLine)) = none →
      match? quoteLine (trimChars (Ecma.trimEnd rawLine)) = some step →
      readLine ids toIsoDate reading rawLine = reading.changeLast (applyNote (noteText step))) := by
  unfold readLine
  rw [if_neg (by simp [told.some, told.rule]), if_neg (by simp [told.comment]), heading, item]
  constructor
  · intro found isFound
    rw [isFound]
  · intro step none isQuote
    rw [none, isQuote]

omit told

/-- A text of a node as it is read: up to a line break, without icons before it, and
cleaned. -/
def readText (text : Chars) : Chars :=
  trimOr "Untitled"
    (cleanText (stripIcons (Ecma.trimEnd (oneLine (Ecma.trimEnd (escapeMarkdown text))))))

/-- What an escaped text is cleaned from. -/
def written (text : Chars) : Chars := Ecma.trimEnd (escapeMarkdown text)

theorem opens_written (begins : Begins text) : Opens (written text) :=
  (opens_escapeMarkdown begins).trimEnd

/-- Trimming the end of a line trims the end of the text in it. -/
theorem trimEnd_before (before : Chars) (begins : Begins node.text) :
    Ecma.trimEnd (before ++ (inlinePrefix node ++ escapeMarkdown node.text)) =
      before ++ (boxText node.checked ++ unboxed node (written node.text)) := by
  have some := (opens_written begins).begins.ne_nil
  rw [← List.append_assoc, trimEnd_append some, inlinePrefix, unboxed]
  simp only [List.append_assoc, written]

theorem ends_written (begins : Begins node.text) :
    Ecma.Ends (boxText node.checked ++ unboxed node (written node.text)) := by
  rw [unboxed]
  exact ((ends_trimEnd (opens_written begins).begins.ne_nil).append _).append _ |>.append _

theorem oneLine_written (marked : Marked node) :
    oneLine (boxText node.checked ++ unboxed node text) =
      boxText node.checked ++ unboxed node (oneLine text) := by
  have dots := inlinePrefix_dots marked
  rw [inlinePrefix, List.all_append, List.all_append, Bool.and_eq_true, Bool.and_eq_true] at dots
  rw [oneLine, List.takeWhile_append_of_pos (List.all_eq_true.mp dots.1), unboxed,
    List.takeWhile_append_of_pos (List.all_eq_true.mp dots.2.1),
    List.takeWhile_append_of_pos (List.all_eq_true.mp dots.2.2)]
  rfl

section NodeOf

variable (id : String) (checked : Option Bool) (itemText : Chars)

theorem nodeOf_id : (nodeOf id checked itemText).id = id := rfl

/-- The text of the node that a line opens. -/
theorem nodeOf_text : (nodeOf id checked itemText).text =
    trimOr "Untitled" (cleanText (parseInlinePrefix itemText).text) := by
  rw [nodeOf, makeNode]

theorem nodeOf_notes : (nodeOf id checked itemText).notes = [] := rfl

end NodeOf

/-- The node that a line opens has the text that is read. -/
structure Opened (ids : Nat → String) (reading : Reading) (text : Chars) (node : NodeFields) :
    Prop where
  id : node.id = ids reading.drawn
  text : node.text = readText text
  notes : node.notes = []

/-- The line of a node below the root opens a node at its level. -/
theorem readLine_item (marked : Marked node) (begins : Begins node.text) {depth : Nat}
    (below : depth ≠ 0) :
    ∃ opened, Opened ids reading node.text opened ∧
      readLine ids toIsoDate reading (headLine node depth) =
        reading.openNode opened (headingBase reading + headingMaxLevel + 1 + (depth - 1)) := by
  have opens := opens_written begins
  have start := begins_written node opens.begins
  have line : Ecma.trimEnd (headLine node depth) = blanks (depth - 1) ++ '-' :: ' ' ::
      (boxText node.checked ++ unboxed node (written node.text)) := by
    have shape := trimEnd_before (blanks (depth - 1) ++ ['-', ' ']) begins
    simp only [List.append_assoc, List.cons_append, List.nil_append] at shape
    rw [headLine, if_neg below, indent]
    exact shape
  have trimmed : trimChars (Ecma.trimEnd (headLine node depth)) = '-' :: ' ' ::
      (boxText node.checked ++ unboxed node (written node.text)) := by
    rw [line, trimChars_append (all_blanks _)]
    exact trimChars_of_both ⟨'-', _, rfl, rfl⟩ ((ends_written begins).append ['-', ' '])
  have shape : (Ecma.trimEnd (headLine node depth)).dropWhile Ecma.isWhitespace = '-' :: ' ' ::
      (boxText node.checked ++ unboxed node (written node.text)) := by
    rw [line, List.dropWhile_append_of_pos (List.all_eq_true.mp (all_blanks _))]
    exact List.dropWhile_cons_of_neg (by decide)
  have heading : matchHeading (Ecma.trimEnd (headLine node depth)) = none := by
    rw [line]
    cases depth - 1 with
    | zero => exact matchHeading_of_head (by decide)
    | succ times =>
        rw [blanks_succ]
        exact matchHeading_of_head (by decide)
  have item : matchListItem (Ecma.trimEnd (headLine node depth)) =
      some (depth - 1, unboxed node (Ecma.trimEnd (oneLine (written node.text))),
        node.checked) := by
    rw [line, matchListItem_item _ start, oneLine_written marked,
      taskItem_written marked opens.oneLine List.all_takeWhile]
  refine ⟨nodeOf (ids reading.drawn) node.checked
    (unboxed node (Ecma.trimEnd (oneLine (written node.text)))), ?_, ?_⟩
  · have noBox : match? checkboxPrefix
        (unboxed node (Ecma.trimEnd (oneLine (written node.text)))) = none :=
      match?_box_unboxed marked opens.oneLine.trimEnd (.seq (.char ']') (.many1 Ecma.isWhitespace))
    have cleaned : (parseInlinePrefix
        (unboxed node (Ecma.trimEnd (oneLine (written node.text))))).text =
        stripIcons (Ecma.trimEnd (oneLine (written node.text))) :=
      parseInlinePrefix_unboxed marked opens.oneLine.trimEnd (.inl ⟨noBox, rfl⟩)
    refine ⟨nodeOf_id _ _ _, ?_, nodeOf_notes _ _ _⟩
    rw [nodeOf_text, cleaned, written, readText]
  · refine readLine_of_item ⟨?_, ?_, commentLine_of_head shape (by decide)⟩ heading ?_
    · rw [trimmed]
      exact List.cons_ne_nil _ _
    · rw [trimmed]
      exact ruleLine_of_mem (List.mem_cons_of_mem _ List.mem_cons_self) rfl
    · rw [item, Option.some_or]

/-- The text that is read of what was written with a prefix. -/
theorem parseInlinePrefix_written (marked : Marked node) (opens : Opens text) :
    (parseInlinePrefix (boxText node.checked ++ unboxed node text)).text = stripIcons text := by
  refine parseInlinePrefix_unboxed marked opens ?_
  cases node.checked with
  | none =>
      exact .inl ⟨match?_box_unboxed marked opens
        (.seq (.char ']') (.many1 Ecma.isWhitespace)), rfl⟩
  | some ticked =>
      refine .inr ?_
      have begins := begins_unboxed node opens.begins
      cases ticked with
      | true =>
          have ticks : isBox 'x' = true := rfl
          obtain ⟨taken, found⟩ := checkboxPrefix_box ticks begins
          exact ⟨_, found, rfl⟩
      | false =>
          have ticks : isBox ' ' = true := rfl
          obtain ⟨taken, found⟩ := checkboxPrefix_box ticks begins
          exact ⟨_, found, rfl⟩

/-- The line of the root, without a title above it, opens a heading. -/
theorem readLine_heading (marked : Marked node) (begins : Begins node.text) :
    ∃ opened, Opened ids reading node.text opened ∧
      readLine ids toIsoDate reading (headLine node 0) = reading.openNode opened 1 := by
  have opens := opens_written begins
  have start := begins_written node opens.begins
  have line : Ecma.trimEnd (headLine node 0) =
      '#' :: ' ' :: (boxText node.checked ++ unboxed node (written node.text)) := by
    rw [headLine, if_pos rfl]
    exact trimEnd_before ['#', ' '] begins
  have trimmed : trimChars (Ecma.trimEnd (headLine node 0)) =
      '#' :: ' ' :: (boxText node.checked ++ unboxed node (written node.text)) := by
    rw [line]
    exact trimChars_of_both ⟨'#', _, rfl, rfl⟩ ((ends_written begins).append ['#', ' '])
  have hash : (Regex.capture 1 (.run (· == '#') 1 (some 6) true)).Reaches
      (['#'] ++ ' ' :: (boxText node.checked ++ unboxed node (written node.text))) []
      (' ' :: (boxText node.checked ++ unboxed node (written node.text))) [(1, ['#'])] := by
    refine (reaches_run rfl (fun _ => ?_) (le_refl 1) (fun bound same => ?_)).capture
    · rintro char ⟨⟩
      rfl
    · rw [← Option.some.inj same]
      decide
  have found : ∃ taken, match? headingLine
      ('#' :: ' ' :: (boxText node.checked ++ unboxed node (written node.text))) =
        some ⟨taken,
          (boxText node.checked ++ unboxed node (written node.text)).dropWhile Ecma.isDot,
          [(2, oneLine (boxText node.checked ++ unboxed node (written node.text))), (1, ['#'])]⟩ :=
    match?_of_reaches <|
      reaches_all_cons hash <|
      reaches_all_cons (reaches_blank start) (reaches_oneLine 2 _ _)
  have heading : matchHeading (Ecma.trimEnd (headLine node 0)) =
      some (1, boxText node.checked ++ unboxed node
        (Ecma.trimEnd (oneLine (written node.text)))) := by
    obtain ⟨taken, found⟩ := found
    have some := opens.oneLine.trimEnd.begins.ne_nil
    have text :
        trimChars (oneLine (boxText node.checked ++ unboxed node (written node.text))) =
        boxText node.checked ++ unboxed node (Ecma.trimEnd (oneLine (written node.text))) := by
      rw [oneLine_written marked,
        trimChars_of_begins (begins_written node opens.oneLine.begins),
        ← trimEnd_unboxed node opens.oneLine.begins]
      refine trimEnd_append ?_
      rw [trimEnd_unboxed node opens.oneLine.begins]
      exact (begins_unboxed node opens.oneLine.trimEnd.begins).ne_nil
    rw [line, matchHeading, found, ← text]
    rfl
  refine ⟨nodeOf (ids reading.drawn) none (boxText node.checked ++ unboxed node
    (Ecma.trimEnd (oneLine (written node.text)))), ?_, ?_⟩
  · refine ⟨nodeOf_id _ _ _, ?_, nodeOf_notes _ _ _⟩
    rw [nodeOf_text, parseInlinePrefix_written marked opens.oneLine.trimEnd, written, readText]
  · have shape : (Ecma.trimEnd (headLine node 0)).dropWhile Ecma.isWhitespace =
        '#' :: ' ' :: (boxText node.checked ++ unboxed node (written node.text)) := by
      rw [line]
      exact List.dropWhile_cons_of_neg (by decide)
    refine readLine_of_heading ⟨?_, ?_, commentLine_of_head shape (by decide)⟩ heading
    · rw [trimmed]
      exact List.cons_ne_nil _ _
    · rw [trimmed]
      exact ruleLine_of_mem List.mem_cons_self rfl

/-- What a line of a note says when it is read. -/
def readNote (noteLine : Chars) : Chars :=
  replaceFirst calloutMark Regex.erase (oneLine (Ecma.trimEnd noteLine))

/-- An indented line that begins with a character of no other kind of line. -/
theorem told_indented (times : Nat) {char : Char}
    (dark : Ecma.isWhitespace char = false) (rule : isRule char = false)
    (comment : char ≠ '<') (mark : isItemMark char = false) (rest : Chars) :
    Told (Ecma.trimEnd (blanks (times + 1) ++ char :: rest)) ∧
      matchHeading (Ecma.trimEnd (blanks (times + 1) ++ char :: rest)) = none ∧
      (matchListItem (Ecma.trimEnd (blanks (times + 1) ++ char :: rest))).or
        (matchOrderedListItem (Ecma.trimEnd (blanks (times + 1) ++ char :: rest))) = none ∧
      trimChars (Ecma.trimEnd (blanks (times + 1) ++ char :: rest)) =
        char :: Ecma.trimEnd rest := by
  have some : Ecma.trimEnd (char :: rest) ≠ [] := by
    rw [trimEnd_cons dark]
    exact List.cons_ne_nil _ _
  have line : Ecma.trimEnd (blanks (times + 1) ++ char :: rest) =
      blanks (times + 1) ++ char :: Ecma.trimEnd rest := by
    rw [trimEnd_append some, trimEnd_cons dark]
  have shape : (blanks (times + 1) ++ char :: Ecma.trimEnd rest).dropWhile
      Ecma.isWhitespace = char :: Ecma.trimEnd rest := by
    rw [List.dropWhile_append_of_pos (List.all_eq_true.mp (all_blanks _))]
    exact List.dropWhile_cons_of_neg (by simp [dark])
  have ends : Ecma.Ends (char :: Ecma.trimEnd rest) := by
    rw [← trimEnd_cons dark]
    exact ends_trimEnd some
  have trimmed : trimChars (blanks (times + 1) ++ char :: Ecma.trimEnd rest) =
      char :: Ecma.trimEnd rest := by
    rw [trimChars_append (all_blanks _)]
    exact trimChars_of_both ⟨char, _, rfl, dark⟩ ends
  rw [line]
  refine ⟨⟨?_, ?_, commentLine_of_head shape comment⟩, ?_, matchItems_of_head shape mark, trimmed⟩
  · rw [trimmed]
    exact List.cons_ne_nil _ _
  · rw [trimmed]
    exact ruleLine_of_mem List.mem_cons_self rule
  · rw [blanks_succ]
    exact matchHeading_of_head (by decide)

theorem exists_bodyIndent (depth : Nat) : ∃ times, bodyIndent depth = blanks (times + 1) := by
  unfold bodyIndent
  split_ifs
  · exact ⟨0, rfl⟩
  · exact ⟨depth, rfl⟩

theorem matchMetadata_of_quote (rest : Chars) : matchMetadata ('>' :: rest) = none := by
  have tags : match? tagsLine ('>' :: rest) = none := by
    have leads : (Regex.literal "Tags:").Leads (· == 'T') := (leads_one _).seq
    exact match?_of_leads leads.seq rfl
  have dates : match? datesLine ('>' :: rest) = none := match?_of_leads (leads_one _).seq rfl
  have attachment : match? attachmentLine ('>' :: rest) = none :=
    match?_of_leads (leads_one _).seq rfl
  have url : match? urlLine ('>' :: rest) = none := match?_of_leads (leads_one _).seq rfl
  rw [matchMetadata, tags, dates, attachment, url]
  rfl

/-- A line of a note after its mark. -/
theorem quoteLine_found (noteLine : Chars) :
    ∃ step, match? quoteLine ('>' :: Ecma.trimEnd (' ' :: noteLine)) = some step ∧
      noteText step = readNote noteLine := by
  by_cases blank : Ecma.trimEnd noteLine = []
  · have nothing : Ecma.trimEnd (' ' :: noteLine) = [] := by
      obtain ⟨white, split, isWhite⟩ := trimEnd_append_white noteLine
      rw [blank, List.nil_append] at split
      by_contra some
      obtain ⟨front, char, same, dark⟩ := ends_trimEnd some
      obtain ⟨more, whole, -⟩ := trimEnd_append_white (' ' :: noteLine)
      have inside : char ∈ ' ' :: noteLine := by
        rw [whole, same]
        simp
      have all : ∀ other ∈ ' ' :: noteLine, Ecma.isWhitespace other = true := by
        rw [split]
        exact List.forall_mem_cons.mpr ⟨rfl, List.all_eq_true.mp isWhite⟩
      rw [all char inside] at dark
      exact Bool.false_ne_true dark.symm
    refine ⟨⟨['>'], [], [(1, [])]⟩, by rw [nothing]; rfl, ?_⟩
    rw [readNote, blank]
    rfl
  · have shape : Ecma.trimEnd ([' '] ++ noteLine) = [' '] ++ Ecma.trimEnd noteLine :=
      trimEnd_append blank
    have blankBefore : (Regex.run Ecma.isWhitespace 0 (some 1) true).Reaches
        ([' '] ++ Ecma.trimEnd noteLine) [] (Ecma.trimEnd noteLine) [] :=
      reaches_run rfl (fun notFull => absurd rfl notFull) (Nat.zero_le _)
        (fun bound same => by rw [← Option.some.inj same]; rfl)
    have found : ∃ taken, match? quoteLine ('>' :: ([' '] ++ Ecma.trimEnd noteLine)) =
        some ⟨taken, (Ecma.trimEnd noteLine).dropWhile Ecma.isDot,
          [(1, oneLine (Ecma.trimEnd noteLine))]⟩ :=
      match?_of_reaches <|
        reaches_all_cons (reaches_char '>') <|
        reaches_all_cons blankBefore (reaches_oneLine 1 _ _)
    obtain ⟨taken, found⟩ := found
    refine ⟨_, shape ▸ found, ?_⟩
    rw [noteText, readNote]
    rfl

/-- The lines of notes are read as what they say. -/
theorem readLine_note (depth : Nat) (noteLine : Chars) :
    readLine ids toIsoDate reading (bodyIndent depth ++ '>' :: ' ' :: noteLine) =
      reading.changeLast (applyNote (readNote noteLine)) := by
  obtain ⟨times, same⟩ := exists_bodyIndent depth
  have other : '>' ≠ '<' := by decide
  obtain ⟨told, heading, item, trimmed⟩ := told_indented times rfl rfl other rfl (' ' :: noteLine)
  obtain ⟨step, found, content⟩ := quoteLine_found noteLine
  rw [same, ← content]
  exact (readLine_of_other told heading item).2 step
    (by rw [trimmed]; exact matchMetadata_of_quote _) (by rw [trimmed]; exact found)

/-- What a node carries beside its text and its notes is read as what it carries. -/
structure Carried (fmtDate : Chars → Chars) (node : NodeFields) : Prop where
  marked : Marked node
  oneLine : ∀ line ∈ metadata fmtDate node, '\n' ∉ line
  known : ∀ line ∈ metadata fmtDate node, (matchMetadata (trimChars line)).isSome = true

/-- The lines of metadata begin with a name or a picture. -/
theorem metadata_head {fmtDate : Chars → Chars} {line : Chars}
    (listed : line ∈ metadata fmtDate node) :
    ∃ char ∈ ['T', '📅', '📎', '🔗'], ∃ rest, line = char :: rest := by
  unfold metadata at listed
  simp only [List.mem_append] at listed
  rcases listed with ((tags | dates) | attachments) | urls
  · split_ifs at tags
    · exact absurd tags List.not_mem_nil
    · exact ⟨'T', by decide, _, List.mem_singleton.mp tags⟩
  · split at dates
    · exact absurd dates List.not_mem_nil
    · exact ⟨'📅', by decide, _, List.mem_singleton.mp dates⟩
  · obtain ⟨attachment, -, rfl⟩ := List.mem_map.mp attachments
    exact ⟨'📎', by decide, _, rfl⟩
  · obtain ⟨entry, -, rfl⟩ := List.mem_map.mp urls
    exact ⟨'🔗', by decide, _, rfl⟩

/-- The lines of metadata change what the last node carries. -/
theorem readLine_metadata {fmtDate : Chars → Chars} (carried : Carried fmtDate node)
    {line : Chars} (listed : line ∈ metadata fmtDate node) (depth : Nat) :
    ∃ found, ∀ reading : Reading,
      readLine ids toIsoDate reading (bodyIndent depth ++ line) =
        reading.changeLast (applyMetadata toIsoDate found) := by
  obtain ⟨times, same⟩ := exists_bodyIndent depth
  obtain ⟨char, kind, rest, rfl⟩ := metadata_head listed
  obtain ⟨found, isFound⟩ := Option.isSome_iff_exists.mp (carried.known _ listed)
  have others : ∀ char ∈ ['T', '📅', '📎', '🔗'], Ecma.isWhitespace char = false ∧
      isRule char = false ∧ char ≠ '<' ∧ isItemMark char = false := by
    simp only [List.forall_mem_cons]
    exact ⟨⟨rfl, rfl, by decide, rfl⟩, ⟨rfl, rfl, by decide, rfl⟩, ⟨rfl, rfl, by decide, rfl⟩,
      ⟨rfl, rfl, by decide, rfl⟩, List.forall_mem_nil _⟩
  obtain ⟨dark, rule, comment, mark⟩ := others char kind
  obtain ⟨told, heading, item, trimmed⟩ := told_indented times dark rule comment mark rest
  rw [trimChars_of_begins ⟨char, rest, rfl, dark⟩, trimEnd_cons dark] at isFound
  refine ⟨found, fun reading => ?_⟩
  rw [same]
  exact (readLine_of_other told heading item).1 found (by rw [trimmed]; exact isFound)

end Reading

end Formats
end MindMapVault
