import MindMapVault.Foundations.Text

/-!
# Strings as scripts treat them

What the string functions of ECMAScript do, on characters.
-/

namespace Ecma

/-- `WhiteSpace` and `LineTerminator`. -/
def isWhitespace (char : Char) : Bool :=
  let code := char.toNat
  (9 ≤ code && code ≤ 13) || code == 32 || code == 0xA0 || code == 0x1680 ||
    (0x2000 ≤ code && code ≤ 0x200A) || code == 0x2028 || code == 0x2029 ||
    code == 0x202F || code == 0x205F || code == 0x3000 || code == 0xFEFF

/-- `LineTerminator`, which a dot in a regular expression does not match. -/
def isLineTerminator (char : Char) : Bool :=
  let code := char.toNat
  code == 10 || code == 13 || code == 0x2028 || code == 0x2029

/-- `String.prototype.trim`. -/
def trim (text : String) : String := Text.trimMatches isWhitespace text

/-- The same functions on lists of characters. -/
def trimChars (text : List Char) : List Char := Text.trimList isWhitespace text
def trimStart (text : List Char) : List Char := text.dropWhile isWhitespace
def trimEnd (text : List Char) : List Char := (text.reverse.dropWhile isWhitespace).reverse

/-- What a dot in a regular expression matches. -/
def isDot (char : Char) : Bool := !isLineTerminator char

/-- The digits. -/
def isDigit (char : Char) : Bool := '0' ≤ char && char ≤ '9'

/-- `[A-Za-z]`. -/
def isLetter (char : Char) : Bool := ('A' ≤ char && char ≤ 'Z') || ('a' ≤ char && char ≤ 'z')

/-- The word characters of a regular expression. -/
def isWord (char : Char) : Bool := isLetter char || isDigit char || char == '_'

theorem isDot_of_dark {char : Char} (dark : isWhitespace char = false) :
    isDot char = true := by
  unfold isDot isLineTerminator
  unfold isWhitespace at dark
  simp only [Bool.or_eq_false_iff, Bool.and_eq_false_iff, decide_eq_false_iff_not,
    beq_eq_false_iff_ne] at dark
  simp only [Bool.not_eq_true', Bool.or_eq_false_iff, beq_eq_false_iff_ne]
  omega

theorem dark_of_ascii {char : Char} (low : 33 ≤ char.toNat)
    (high : char.toNat ≤ 126) : isWhitespace char = false := by
  unfold isWhitespace
  simp only [Bool.or_eq_false_iff, Bool.and_eq_false_iff, decide_eq_false_iff_not,
    beq_eq_false_iff_ne]
  omega

/-- The text begins with a character that is not white. -/
def Begins (text : List Char) : Prop := ∃ char rest, text = char :: rest ∧ isWhitespace char = false

/-- The text ends with a character that is not white. -/
def Ends (text : List Char) : Prop :=
  ∃ front char, text = front ++ [char] ∧ isWhitespace char = false

section Trim

variable {text first second : List Char}

theorem Begins.ne_nil (begins : Begins text) : text ≠ [] := by
  obtain ⟨char, rest, rfl, -⟩ := begins
  exact List.cons_ne_nil _ _

theorem Ends.ne_nil (ends : Ends text) : text ≠ [] := by
  obtain ⟨front, char, rfl, -⟩ := ends
  exact List.append_ne_nil_of_right_ne_nil _ (List.cons_ne_nil _ _)

theorem Begins.append (begins : Begins first) (second : List Char) : Begins (first ++ second) := by
  obtain ⟨char, rest, rfl, dark⟩ := begins
  exact ⟨char, rest ++ second, rfl, dark⟩

theorem Ends.append (first : List Char) (ends : Ends second) : Ends (first ++ second) := by
  obtain ⟨front, char, rfl, dark⟩ := ends
  exact ⟨first ++ front, char, (List.append_assoc _ _ _).symm, dark⟩

theorem trimStart_of_begins (begins : Begins text) : trimStart text = text := by
  obtain ⟨char, rest, rfl, dark⟩ := begins
  rw [trimStart, List.dropWhile_cons_of_neg (by simp [dark])]

theorem trimEnd_of_ends (ends : Ends text) : trimEnd text = text := by
  obtain ⟨front, char, rfl, dark⟩ := ends
  rw [trimEnd, List.reverse_append, List.reverse_singleton, List.singleton_append,
    List.dropWhile_cons_of_neg (by simp [dark]), List.reverse_cons, List.reverse_reverse]

theorem trimChars_of_begins (begins : Begins text) : trimChars text = trimEnd text :=
  congrArg trimEnd (trimStart_of_begins begins)

theorem trimChars_of_both (begins : Begins text) (ends : Ends text) : trimChars text = text := by
  rw [trimChars_of_begins begins, trimEnd_of_ends ends]

/-- White characters before a text. -/
theorem trimStart_append (white : first.all isWhitespace = true) :
    trimStart (first ++ second) = trimStart second := by
  rw [trimStart, List.dropWhile_append_of_pos (List.all_eq_true.mp white), trimStart]

theorem trimChars_append (white : first.all isWhitespace = true) :
    trimChars (first ++ second) = trimChars second :=
  congrArg trimEnd (trimStart_append white)

/-- What is taken off the end is white. -/
theorem trimEnd_append_white (text : List Char) :
    ∃ white, text = trimEnd text ++ white ∧ white.all isWhitespace = true := by
  refine ⟨(text.reverse.takeWhile isWhitespace).reverse, ?_, ?_⟩
  · rw [trimEnd, ← List.reverse_append, List.takeWhile_append_dropWhile, List.reverse_reverse]
  · rw [List.all_reverse]
    exact List.all_takeWhile

theorem ends_trimEnd (some : trimEnd text ≠ []) : Ends (trimEnd text) := by
  have shape : text.reverse.dropWhile isWhitespace ≠ [] := fun none =>
    some (by rw [trimEnd, none, List.reverse_nil])
  cases same : text.reverse.dropWhile isWhitespace with
  | nil => exact absurd same shape
  | cons char rest =>
      have dark := List.head_dropWhile_not isWhitespace shape
      simp only [same, List.head_cons] at dark
      exact ⟨rest.reverse, char, by rw [trimEnd, same, List.reverse_cons], by simpa using dark⟩

theorem trimEnd_append (some : trimEnd second ≠ []) :
    trimEnd (first ++ second) = first ++ trimEnd second := by
  obtain ⟨front, char, same, dark⟩ := ends_trimEnd some
  obtain ⟨white, split, isWhite⟩ := trimEnd_append_white second
  rw [same] at split ⊢
  rw [split, trimEnd, List.reverse_append, List.reverse_append, List.append_assoc,
    List.dropWhile_append_of_pos (by simpa using isWhite), List.reverse_append,
    List.reverse_singleton, List.singleton_append, List.cons_append,
    List.dropWhile_cons_of_neg (by simp [dark])]
  simp

theorem trimEnd_cons {char : Char} (dark : isWhitespace char = false)
    (text : List Char) : trimEnd (char :: text) = char :: trimEnd text := by
  by_cases some : trimEnd text = []
  · obtain ⟨white, split, isWhite⟩ := trimEnd_append_white text
    rw [some, List.nil_append] at split
    rw [some, split, trimEnd, List.reverse_cons,
      List.dropWhile_append_of_pos (by simpa using isWhite),
      List.dropWhile_cons_of_neg (by simp [dark])]
    rfl
  · have shape : trimEnd ([char] ++ text) = [char] ++ trimEnd text :=
      trimEnd_append some
    exact shape

/-- The end that is taken off leaves the beginning. -/
theorem Begins.trimEnd (begins : Begins text) : Begins (trimEnd text) := by
  obtain ⟨char, rest, rfl, dark⟩ := begins
  exact ⟨char, Ecma.trimEnd rest, trimEnd_cons dark rest, dark⟩

/-- What is trimmed is empty, or begins and ends with characters that are not white. -/
theorem begins_of_trimChars (trimmed : trimChars text = text) (some : text ≠ []) :
    Begins text := by
  have whole : Ecma.trimStart text = text := by
    obtain ⟨white, split, -⟩ := trimEnd_append_white (trimStart text)
    have same : trimEnd (trimStart text) = text := trimmed
    rw [same] at split
    have shorter := (List.dropWhile_sublist isWhitespace (l := text)).length_le
    have longer : (trimStart text).length = text.length + white.length := by
      rw [split, List.length_append]
    have none : white = [] := List.length_eq_zero_iff.mp (by
      change (trimStart text).length ≤ _ at shorter
      omega)
    rw [none, List.append_nil] at split
    exact split
  cases text with
  | nil => exact absurd rfl some
  | cons char rest =>
      refine ⟨char, rest, rfl, ?_⟩
      by_contra white
      rw [trimStart, List.dropWhile_cons_of_pos (by simpa using white)] at whole
      have shorter := (List.dropWhile_sublist isWhitespace (l := rest)).length_le
      rw [whole, List.length_cons] at shorter
      omega

theorem ends_of_trimChars (trimmed : trimChars text = text) (some : text ≠ []) : Ends text := by
  have same : trimEnd (trimStart text) = text := trimmed
  rw [← same]
  exact ends_trimEnd (same.symm ▸ some)

theorem begins_trimStart (some : trimStart text ≠ []) : Begins (trimStart text) := by
  cases shape : trimStart text with
  | nil => exact absurd shape some
  | cons char rest =>
      have dark := List.head?_dropWhile_not isWhitespace text
      have head : (text.dropWhile isWhitespace).head? = Option.some char :=
        congrArg List.head? shape
      rw [head] at dark
      exact ⟨char, rest, rfl, dark⟩

/-- What is trimmed off stands around the text. -/
theorem infix_trimChars (text : List Char) : trimChars text <:+: text := by
  obtain ⟨white, split, -⟩ := trimEnd_append_white (trimStart text)
  have left : trimEnd (trimStart text) <+: trimStart text := ⟨white, split.symm⟩
  exact left.isInfix.trans (List.dropWhile_suffix _).isInfix

theorem trimChars_trimChars (text : List Char) : trimChars (trimChars text) = trimChars text := by
  by_cases none : trimChars text = []
  · rw [none]
    rfl
  · refine trimChars_of_both (Begins.trimEnd (begins_trimStart fun start => none ?_))
      (ends_trimEnd none)
    exact congrArg trimEnd start

end Trim

end Ecma
