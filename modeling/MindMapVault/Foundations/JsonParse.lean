import MindMapVault.Foundations.JsonText
import MindMapVault.Foundations.KeyedList
import MindMapVault.Foundations.Regex
import MindMapVault.Foundations.Text

/-!
# JSON values from text

`JSON.parse`. What a number prints as is left open. A value whose objects have distinct
names, and whose numbers are printed as they are, is read back from what is printed of it.
-/

namespace Json

/-- White space between tokens. -/
def isBlank (char : Char) : Bool := char == ' ' || char == '\t' || char == '\n' || char == '\r'

/-- The value of a hexadecimal digit. -/
def hexDigit (char : Char) : Option Nat :=
  let code := char.toNat
  if 48 ≤ code ∧ code ≤ 57 then some (code - 48)
  else if 97 ≤ code ∧ code ≤ 102 then some (code - 87)
  else if 65 ≤ code ∧ code ≤ 70 then some (code - 55)
  else none

/-- The code of four hexadecimal digits, and what comes after them. -/
def takeHex : List Char → Option (Nat × List Char)
  | first :: second :: third :: fourth :: rest => do
      let first ← hexDigit first
      let second ← hexDigit second
      let third ← hexDigit third
      let fourth ← hexDigit fourth
      some (((first * 16 + second) * 16 + third) * 16 + fourth, rest)
  | _ => none

/-- The character of an escape of one letter. -/
def unescaped (letter : Char) : Option Char :=
  if letter = '"' ∨ letter = '\\' ∨ letter = '/' then some letter
  else if letter = 'b' then some '\x08'
  else if letter = 'f' then some '\x0c'
  else if letter = 'n' then some '\n'
  else if letter = 'r' then some '\r'
  else if letter = 't' then some '\t'
  else none

/-- The character of a code, with the second half of a pair; half a pair is no character. -/
def codeCharacter (code : Nat) (rest : List Char) : Char × List Char :=
  if 0xD800 ≤ code ∧ code < 0xDC00 then
    match rest with
    | backslash :: letter :: after =>
        match (if backslash = '\\' ∧ letter = 'u' then takeHex after else none) with
        | some (low, after) =>
            if 0xDC00 ≤ low ∧ low < 0xE000 then
              (Char.ofNat (0x10000 + (code - 0xD800) * 1024 + (low - 0xDC00)), after)
            else ('\uFFFD', rest)
        | none => ('\uFFFD', rest)
    | _ => ('\uFFFD', rest)
  else if 0xDC00 ≤ code ∧ code < 0xE000 then ('\uFFFD', rest)
  else (Char.ofNat code, rest)

/-- The next character of a string, and what comes after it. -/
def takeCharacter : List Char → Option (Char × List Char)
  | [] => none
  | first :: rest =>
      if first.toNat < 32 ∨ first = '"' then none
      else if first = '\\' then
        match rest with
        | [] => none
        | letter :: after =>
            if letter = 'u' then (takeHex after).map fun code => codeCharacter code.1 code.2
            else (unescaped letter).map fun char => (char, after)
      else some (first, rest)

/-- The characters of a string up to its closing quote, and what comes after it. -/
def takeString : Nat → List Char → Option (List Char × List Char)
  | 0, _ => none
  | fuel + 1, text =>
      if text.head? = some '"' then some ([], text.tail)
      else do
        let (char, rest) ← takeCharacter text
        let (chars, rest) ← takeString fuel rest
        some (char :: chars, rest)

/-- The digits of a number. -/
def isDigit (char : Char) : Bool := '0' ≤ char && char ≤ '9'

/-- The characters that numbers are made of. -/
def isNumeral (char : Char) : Bool :=
  isDigit char || char == '-' || char == '+' || char == '.' || char == 'e' || char == 'E'

/-- How a number is written. -/
def numberSyntax : Regex :=
  .all
    [.start, .optional (.char '-'),
      .either (.char '0') (.seq (.one fun digit => isDigit digit && digit != '0') (.many isDigit)),
      .optional (.seq (.char '.') (.many1 isDigit)),
      .optional (.all [.one fun letter => letter == 'e' || letter == 'E',
        .optional (.one fun sign => sign == '-' || sign == '+'), .many1 isDigit]),
      .stop]

section Parse

variable (printNumber : List Char → String)

/-- A word that stands for a value, or a number. -/
def takeAtom (text : List Char) : Option (Json × List Char) :=
  if "null".toList.isPrefixOf text then some (.null, text.drop 4)
  else if "true".toList.isPrefixOf text then some (.bool true, text.drop 4)
  else if "false".toList.isPrefixOf text then some (.bool false, text.drop 5)
  else
    let numeral := text.takeWhile isNumeral
    if numberSyntax.test numeral then
      some (.number (printNumber numeral), text.dropWhile isNumeral)
    else none

/-- An object: a property that comes again changes the one that is there. -/
def ofFields (fields : List (String × Json)) : Json :=
  .object (KeyedList.overlayAll Prod.fst (fun _ field => field) [] fields)

mutual

/-- A value, and what comes after it. -/
def takeValue : Nat → List Char → Option (Json × List Char)
  | 0, _ => none
  | fuel + 1, text =>
      let text := text.dropWhile isBlank
      match text with
      | [] => none
      | first :: rest =>
          if first = '"' then
            (takeString rest.length rest).map fun taken =>
              (.string (String.ofList taken.1), taken.2)
          else if first = '[' then
            let rest := rest.dropWhile isBlank
            if rest.head? = some ']' then some (.array [], rest.tail)
            else (takeItems fuel rest).map fun taken => (.array taken.1, taken.2)
          else if first = '\x7b' then
            let rest := rest.dropWhile isBlank
            if rest.head? = some '\x7d' then some (.object [], rest.tail)
            else (takeFields fuel rest).map fun taken => (ofFields taken.1, taken.2)
          else takeAtom printNumber text

/-- The items of an array up to its closing bracket, and what comes after it. -/
def takeItems : Nat → List Char → Option (List Json × List Char)
  | 0, _ => none
  | fuel + 1, text => do
      let (item, rest) ← takeValue fuel text
      match rest.dropWhile isBlank with
      | [] => none
      | mark :: rest =>
          if mark = ']' then some ([item], rest)
          else if mark = ',' then
            (takeItems fuel rest).map fun taken => (item :: taken.1, taken.2)
          else none

/-- The properties of an object up to its closing brace, and what comes after it. -/
def takeFields : Nat → List Char → Option (List (String × Json) × List Char)
  | 0, _ => none
  | fuel + 1, text => do
      let text := text.dropWhile isBlank
      let (name, rest) ← if text.head? = some '"' then takeString text.length text.tail else none
      let rest := rest.dropWhile isBlank
      let (value, rest) ← if rest.head? = some ':' then takeValue fuel rest.tail else none
      match rest.dropWhile isBlank with
      | [] => none
      | mark :: rest =>
          if mark = '\x7d' then some ([(String.ofList name, value)], rest)
          else if mark = ',' then
            (takeFields fuel rest).map fun taken =>
              ((String.ofList name, value) :: taken.1, taken.2)
          else none

end

/-- `JSON.parse`. -/
def parse (text : String) : Option Json :=
  match takeValue printNumber (text.length + 1) text.toList with
  | some (value, rest) => if (rest.dropWhile isBlank).isEmpty then some value else none
  | none => none

end Parse

section Strings

theorem eq_of_toNat {char : Char} {code : Nat} (same : char.toNat = code) :
    char = Char.ofNat code := by
  rw [← same, Char.ofNat_toNat]

theorem hexDigit_digitChar {digit : Nat} (small : digit < 16) :
    hexDigit (Nat.digitChar digit) = some digit := by
  revert digit
  decide

/-- How a character is printed: as it is, by a letter, or by its code. -/
inductive EscapedAs (char : Char) : List Char → Prop
  | plain (visible : 32 ≤ char.toNat) (noQuote : char ≠ '"')
      (noEscape : char ≠ '\\') : EscapedAs char [char]
  | letter {letter : Char} (other : letter ≠ 'u')
      (stands : unescaped letter = some char) : EscapedAs char ['\\', letter]
  | code (control : char.toNat < 32) : EscapedAs char
      ['\\', 'u', '0', '0', Nat.digitChar (char.toNat / 16), Nat.digitChar (char.toNat % 16)]

theorem escapedAs (char : Char) : EscapedAs char (escaped char).toList := by
  unfold escaped
  split
  -- the letters that have an escape of their own
  iterate 7 · next same => rw [eq_of_toNat same]; exact .letter (by decide) rfl
  · next code quote backslash _ _ _ _ _ =>
      split_ifs with control
      · rw [String.toList_append, String.toList_ofList, String.toList_ofList]
        exact .code control
      · rw [Char.toString_eq_singleton, String.toList_singleton]
        refine .plain (Nat.le_of_not_lt control) ?_ ?_
        · rintro rfl
          exact quote rfl
        · rintro rfl
          exact backslash rfl

/-- An escape is read as the character it stands for. -/
theorem takeCharacter_escaped (char : Char) (rest : List Char) :
    takeCharacter ((escaped char).toList ++ rest) = some (char, rest) := by
  have shape := escapedAs char
  generalize (escaped char).toList = printed at shape ⊢
  cases shape with
  | plain visible noQuote noEscape =>
      have goesOn : ¬(char.toNat < 32 ∨ char = '"') := not_or.mpr ⟨Nat.not_lt.mpr visible, noQuote⟩
      unfold takeCharacter
      simp only [List.singleton_append, if_neg goesOn, if_neg noEscape]
  | letter other stands =>
      have escapes : ¬('\\'.toNat < 32 ∨ '\\' = '"') := by decide
      simp only [List.cons_append, List.nil_append, takeCharacter, if_neg escapes, if_true,
        if_neg other, stands, Option.map_some]
  | code control =>
      have front : hexDigit (Nat.digitChar (char.toNat / 16)) =
          some (char.toNat / 16) := hexDigit_digitChar (by omega)
      have back : hexDigit (Nat.digitChar (char.toNat % 16)) =
          some (char.toNat % 16) := hexDigit_digitChar (by omega)
      have zero : hexDigit '0' = some 0 := by decide
      have whole : ((0 * 16 + 0) * 16 + char.toNat / 16) * 16 + char.toNat % 16 =
          char.toNat := by omega
      have escapes : ¬('\\'.toNat < 32 ∨ '\\' = '"') := by decide
      simp only [List.cons_append, List.nil_append, takeCharacter, if_neg escapes, if_true,
        takeHex, zero, front, back, Option.bind_eq_bind, Option.bind_some,
        Option.map_some, whole]
      unfold codeCharacter
      rw [if_neg (by omega), if_neg (by omega), Char.ofNat_toNat]

/-- An escape does not begin with a quote. -/
theorem head?_escaped (char : Char) (rest : List Char) :
    ((escaped char).toList ++ rest).head? ≠ some '"' := by
  have shape := escapedAs char
  generalize (escaped char).toList = printed at shape ⊢
  cases shape with
  | plain _ noQuote _ => exact fun same => noQuote (Option.some.inj same)
  | letter _ _ => exact fun same => absurd (Option.some.inj same) (by decide)
  | code _ => exact fun same => absurd (Option.some.inj same) (by decide)

/-- The characters of a string between its quotes. -/
def escapedAll (chars : List Char) : List Char := chars.flatMap fun char => (escaped char).toList

theorem toList_quoted (text : String) :
    (quoted text).toList = '"' :: escapedAll text.toList ++ ['"'] := by
  rw [quoted, String.toList_append, String.toList_append, String.toList_join, List.flatMap_map]
  rfl

theorem length_le_escapedAll (chars : List Char) :
    chars.length ≤ (escapedAll chars).length := by
  induction chars with
  | nil => exact Nat.le_refl 0
  | cons char chars ih =>
      have some : 1 ≤ (escaped char).toList.length := by
        have shape := escapedAs char
        generalize (escaped char).toList = printed at shape ⊢
        cases shape with
        | plain _ _ _ => exact Nat.le_refl 1
        | letter _ _ => exact Nat.le_add_left 1 1
        | code _ => exact Nat.le_add_left 1 5
      rw [escapedAll, List.flatMap_cons, ← escapedAll, List.length_append, List.length_cons]
      omega

/-- A string is read as the characters it was printed of. -/
theorem takeString_escapedAll : ∀ (chars rest : List Char) (fuel : Nat),
    chars.length < fuel →
    takeString fuel (escapedAll chars ++ '"' :: rest) = some (chars, rest)
  | [], rest, fuel + 1, _ => rfl
  | char :: chars, rest, fuel + 1, enough => by
      have later := takeString_escapedAll chars rest fuel (Nat.lt_of_succ_lt_succ enough)
      rw [escapedAll, List.flatMap_cons, List.append_assoc, takeString,
        if_neg (head?_escaped char _), takeCharacter_escaped]
      simp only [Option.bind_eq_bind, Option.bind_some]
      rw [← escapedAll, later, Option.bind_some]

end Strings

section Printed

variable (printNumber : List Char → String)

mutual

/-- Numbers are printed as they are, and the names of an object are distinct. -/
def Printable : Json → Prop
  | .number text => text.toList.all isNumeral = true ∧ numberSyntax.test text.toList = true ∧
      printNumber text.toList = text
  | .array items => PrintableItems items
  | .object fields => (fields.map Prod.fst).Nodup ∧ PrintableFields fields
  | .null | .bool _ | .string _ => True

/-- The same for the items of an array. -/
def PrintableItems : List Json → Prop
  | [] => True
  | item :: items => Printable item ∧ PrintableItems items

/-- The same for the properties of an object. -/
def PrintableFields : List (String × Json) → Prop
  | [] => True
  | (_, value) :: fields => Printable value ∧ PrintableFields fields

end

theorem printableFields_iff {fields : List (String × Json)} :
    PrintableFields printNumber fields ↔ ∀ field ∈ fields, Printable printNumber field.2 := by
  induction fields with
  | nil => exact iff_of_true trivial (by simp)
  | cons field fields ih =>
      rw [PrintableFields, ih, List.forall_mem_cons]

theorem printableItems_iff {items : List Json} :
    PrintableItems printNumber items ↔ ∀ item ∈ items, Printable printNumber item := by
  induction items with
  | nil => exact iff_of_true trivial (by simp)
  | cons item items ih =>
      rw [PrintableItems, ih, List.forall_mem_cons]

theorem printableFields_properties {entries : List (String × Option Json)} :
    PrintableFields printNumber (properties entries) ↔
      ∀ entry ∈ entries, ∀ value ∈ entry.2, Printable printNumber value := by
  rw [printableFields_iff]
  constructor
  · intro printable entry listed value given
    refine printable (entry.1, value) (List.mem_filterMap.mpr ⟨entry, listed, ?_⟩)
    rw [given, Option.map_some]
  · intro printable field present
    obtain ⟨entry, listed, given⟩ := List.mem_filterMap.mp present
    obtain ⟨value, isValue, rfl⟩ := Option.map_eq_some_iff.mp given
    exact printable entry listed value isValue

mutual

/-- The tokens that delimit a value. -/
def weight : Json → Nat
  | .array items => weightItems items + 1
  | .object fields => weightFields fields + 1
  | .null | .bool _ | .string _ | .number _ => 1

/-- The same for the items of an array. -/
def weightItems : List Json → Nat
  | [] => 0
  | item :: items => weight item + 1 + weightItems items

/-- The same for the properties of an object. -/
def weightFields : List (String × Json) → Nat
  | [] => 0
  | (_, value) :: fields => weight value + 1 + weightFields fields

end

/-- What a line is indented by. -/
def gap (indent levels : Nat) : List Char :=
  if indent = 0 then [] else '\n' :: List.replicate (indent * levels) ' '

theorem isBlank_gap (indent levels : Nat) : ∀ char ∈ gap indent levels,
    isBlank char = true := by
  intro char inGap
  unfold gap at inGap
  split_ifs at inGap
  · exact absurd inGap List.not_mem_nil
  · rcases List.mem_cons.mp inGap with rfl | blank
    · decide
    · rw [List.eq_of_mem_replicate blank]
      decide

theorem dropWhile_gap (indent levels : Nat) (text : List Char) :
    (gap indent levels ++ text).dropWhile isBlank = text.dropWhile isBlank :=
  List.dropWhile_append_of_pos (isBlank_gap indent levels)

theorem toList_bracketed {opening closing : String} {indent depth : Nat} {items : List String}
    (some : items ≠ []) :
    (bracketed opening closing indent depth items).toList =
      opening.toList ++ (gap indent (depth + 1) ++
        ((',' :: gap indent (depth + 1)).intercalate (items.map String.toList) ++
          (gap indent depth ++ closing.toList))) := by
  have newline (levels : Nat) : (if indent = 0 then "" else
      "\n" ++ String.ofList (List.replicate (indent * levels) ' ')).toList = gap indent levels := by
    unfold gap
    split_ifs
    · rfl
    · rw [String.toList_append, String.toList_ofList, String.toList_ofList, List.singleton_append]
  have nonempty : items.isEmpty = false := by
    rw [← Bool.not_eq_true, List.isEmpty_iff]
    exact some
  simp only [bracketed, nonempty, Bool.false_eq_true, if_false, String.toList_append,
    String.toList_intercalate, newline, List.append_assoc]
  rfl

/-- Nothing that could go on with a number comes next. -/
def Stops (rest : List Char) : Prop := rest.head?.any isNumeral = false

theorem stops_gap (indent levels : Nat) {char : Char} (other : isNumeral char = false)
    (rest : List Char) : Stops (gap indent levels ++ char :: rest) := by
  unfold gap Stops
  split_ifs
  · exact other
  · rfl

/-- Blanks before a value are passed over. -/
theorem takeValue_blanks (fuel : Nat) {blanks : List Char}
    (blank : ∀ char ∈ blanks, isBlank char = true) (text : List Char) :
    takeValue printNumber fuel (blanks ++ text) = takeValue printNumber fuel text := by
  cases fuel with
  | zero => rw [takeValue, takeValue]
  | succ fuel =>
      rw [takeValue.eq_def, takeValue.eq_def]
      simp only [List.dropWhile_append_of_pos blank]

theorem takeItems_gap (fuel indent levels : Nat) (text : List Char) :
    takeItems printNumber fuel (gap indent levels ++ text) = takeItems printNumber fuel text := by
  cases fuel with
  | zero => rw [takeItems, takeItems]
  | succ fuel => rw [takeItems, takeItems, takeValue_blanks _ _ (isBlank_gap indent levels)]

theorem takeFields_gap (fuel indent levels : Nat) (text : List Char) :
    takeFields printNumber fuel (gap indent levels ++ text) = takeFields printNumber fuel text := by
  cases fuel with
  | zero => rw [takeFields, takeFields]
  | succ fuel => rw [takeFields, takeFields, dropWhile_gap]

variable {printNumber}

/-- What comes first decides what is read. -/
theorem takeValue_cons (fuel : Nat) {first : Char} (dark : isBlank first = false)
    (rest : List Char) :
    takeValue printNumber (fuel + 1) (first :: rest) =
      if first = '"' then
        (takeString rest.length rest).map fun taken => (.string (String.ofList taken.1), taken.2)
      else if first = '[' then
        if (rest.dropWhile isBlank).head? = some ']' then
          some (.array [], (rest.dropWhile isBlank).tail)
        else
          (takeItems printNumber fuel (rest.dropWhile isBlank)).map fun taken =>
            (.array taken.1, taken.2)
      else if first = '\x7b' then
        if (rest.dropWhile isBlank).head? = some '\x7d' then
          some (.object [], (rest.dropWhile isBlank).tail)
        else
          (takeFields printNumber fuel (rest.dropWhile isBlank)).map fun taken =>
            (ofFields taken.1, taken.2)
      else takeAtom printNumber (first :: rest) := by
  have kept : (first :: rest).dropWhile isBlank = first :: rest :=
    List.dropWhile_cons_of_neg (by rw [dark]; exact Bool.false_ne_true)
  rw [takeValue.eq_def]
  simp only [kept]

/-- A number begins with a numeral. -/
theorem head_number {text : String} (printable : Printable printNumber (.number text)) :
    ∃ first rest, text.toList = first :: rest ∧ isNumeral first = true := by
  obtain ⟨numerals, wellFormed, -⟩ := printable
  cases shape : text.toList with
  | nil =>
      rw [shape] at wellFormed
      exact absurd wellFormed (by decide)
  | cons first rest =>
      rw [shape] at numerals
      exact ⟨first, rest, rfl, List.all_eq_true.mp numerals _ List.mem_cons_self⟩

theorem ne_of_isNumeral {char other : Char} (numeral : isNumeral char = true)
    (different : isNumeral other = false) : char ≠ other := by
  rintro rfl
  rw [numeral] at different
  exact Bool.noConfusion different

/-- A numeral is no blank. -/
theorem not_isBlank_of_isNumeral {char : Char} (numeral : isNumeral char = true) :
    isBlank char = false := by
  unfold isBlank
  simp only [Bool.or_eq_false_iff, beq_eq_false_iff_ne]
  exact ⟨⟨⟨ne_of_isNumeral numeral (by decide), ne_of_isNumeral numeral (by decide)⟩,
    ne_of_isNumeral numeral (by decide)⟩, ne_of_isNumeral numeral (by decide)⟩

/-- A number is read up to where its numerals end. -/
theorem takeAtom_number {text : String} (printable : Printable printNumber (.number text))
    {rest : List Char} (stops : Stops rest) :
    takeAtom printNumber (text.toList ++ rest) = some (.number text, rest) := by
  obtain ⟨first, others, shape, numeral⟩ := head_number printable
  obtain ⟨numerals, wellFormed, kept⟩ := printable
  obtain ⟨taken, left⟩ := Text.takeWhile_append_other isNumeral text.toList rest numerals stops
  have noWord {letter : Char} {letters : List Char} (different : isNumeral letter = false) :
      ((letter :: letters).isPrefixOf (text.toList ++ rest)) = false := by
    have differs := beq_eq_false_iff_ne.mpr (ne_of_isNumeral numeral different).symm
    rw [shape, List.cons_append, List.isPrefixOf, differs, Bool.false_and]
  have noNull : "null".toList.isPrefixOf (text.toList ++ rest) = false := noWord (by decide)
  have noTrue : "true".toList.isPrefixOf (text.toList ++ rest) = false := noWord (by decide)
  have noFalse : "false".toList.isPrefixOf (text.toList ++ rest) = false := noWord (by decide)
  simp only [takeAtom, noNull, noTrue, noFalse, Bool.false_eq_true, if_false, taken, left,
    wellFormed, if_true, kept]

/-- A number does not begin like a value of another kind. -/
theorem takeValue_number {text : String} (printable : Printable printNumber (.number text))
    {rest : List Char} (stops : Stops rest) (fuel : Nat) :
    takeValue printNumber (fuel + 1) (text.toList ++ rest) = some (.number text, rest) := by
  obtain ⟨first, others, shape, numeral⟩ := head_number printable
  have atom := takeAtom_number printable stops
  rw [shape, List.cons_append] at atom ⊢
  rw [takeValue_cons fuel (not_isBlank_of_isNumeral numeral),
    if_neg (ne_of_isNumeral numeral (by decide)), if_neg (ne_of_isNumeral numeral (by decide)),
    if_neg (ne_of_isNumeral numeral (by decide)), atom]

theorem toList_bracketed_nil (opening closing : String) (indent depth : Nat) :
    (bracketed opening closing indent depth []).toList = opening.toList ++ closing.toList := by
  simp only [bracketed, List.isEmpty_nil, if_true, String.toList_append]

/-- What is printed between brackets begins with the opening one. -/
theorem head_bracketed (opening closing : String) {first : Char}
    (isFirst : opening.toList = [first]) (indent depth : Nat) (items : List String) :
    ∃ rest, (bracketed opening closing indent depth items).toList = first :: rest := by
  by_cases none : items = []
  · rw [none, toList_bracketed_nil, isFirst]
    exact ⟨_, rfl⟩
  · rw [toList_bracketed none, isFirst]
    exact ⟨_, rfl⟩

/-- What a value is printed as begins with no blank and closes no array. -/
theorem head_print (indent depth : Nat) {value : Json} (printable : Printable printNumber value) :
    ∃ first rest, (print indent depth value).toList = first :: rest ∧
      isBlank first = false ∧ first ≠ ']' := by
  cases value with
  | null => exact ⟨'n', ['u', 'l', 'l'], by rw [print]; rfl, by decide, by decide⟩
  | bool value =>
      rw [print]
      cases value with
      | true => exact ⟨'t', ['r', 'u', 'e'], rfl, by decide, by decide⟩
      | false => exact ⟨'f', ['a', 'l', 's', 'e'], rfl, by decide, by decide⟩
  | number text =>
      obtain ⟨first, rest, shape, numeral⟩ := head_number printable
      rw [print]
      exact ⟨first, rest, shape, not_isBlank_of_isNumeral numeral,
        ne_of_isNumeral numeral (by decide)⟩
  | string text =>
      rw [print, toList_quoted]
      exact ⟨'"', _, rfl, by decide, by decide⟩
  | array items =>
      rw [print]
      obtain ⟨rest, shape⟩ := head_bracketed "[" "]" (by rfl) indent depth
        (printItems indent (depth + 1) items)
      exact ⟨'[', rest, shape, by decide, by decide⟩
  | object fields =>
      rw [print]
      obtain ⟨rest, shape⟩ := head_bracketed "\x7b" "\x7d" (by rfl) indent depth
        (printFields indent (depth + 1) fields)
      exact ⟨'\x7b', rest, shape, by decide, by decide⟩

variable (indent : Nat)

/-- What is printed of a value and what comes after it, with blanks before. -/
theorem dropWhile_print (depth : Nat) {value : Json} (printable : Printable printNumber value)
    (rest : List Char) :
    ((print indent depth value).toList ++ rest).dropWhile isBlank =
        (print indent depth value).toList ++ rest ∧
      ((print indent depth value).toList ++ rest).head? ≠ some ']' := by
  obtain ⟨first, others, shape, dark, noClose⟩ := head_print indent depth printable
  rw [shape, List.cons_append]
  refine ⟨List.dropWhile_cons_of_neg (by rw [dark]; exact Bool.false_ne_true), ?_⟩
  exact fun same => noClose (Option.some.inj same)

theorem intercalate_cons (separator first : List Char) (others : List (List Char)) :
    ∃ rest, separator.intercalate (first :: others) = first ++ rest := by
  cases others with
  | nil => exact ⟨[], by rw [List.intercalate_singleton, List.append_nil]⟩
  | cons second others =>
      exact ⟨_, by rw [List.intercalate_cons_cons, List.append_assoc]⟩

/-- Only a blank is passed over. -/
theorem dropWhile_isBlank_cons {first : Char} (dark : isBlank first = false)
    (rest : List Char) : (first :: rest).dropWhile isBlank = first :: rest :=
  List.dropWhile_cons_of_neg (by rw [dark]; exact Bool.false_ne_true)

/-- An object whose names are distinct is made of its properties as they come. -/
theorem ofFields_of_nodup {fields : List (String × Json)}
    (distinct : (fields.map Prod.fst).Nodup) : ofFields fields = .object fields := by
  rw [ofFields, KeyedList.overlayAll_of_absorbed (fun _ _ => rfl) fields [] distinct
    fun _ _ _ missing => absurd missing List.not_mem_nil, List.map_nil, List.nil_append,
    List.filter_eq_self.mpr]
  exact fun field _ => decide_eq_true List.not_mem_nil

/-- A property is read as its name and what is read of its value. -/
theorem takeFields_cons {fuel depth : Nat} (name : String) {value : Json} {after : List Char}
    (read : takeValue printNumber fuel ((print indent depth value).toList ++ after) =
      some (value, after)) :
    takeFields printNumber (fuel + 1)
        ((quoted name ++ (if indent = 0 then ":" else ": ") ++ print indent depth value).toList ++
          after) =
      match after.dropWhile isBlank with
      | [] => none
      | mark :: rest =>
          if mark = '\x7d' then some ([(name, value)], rest)
          else if mark = ',' then
            (takeFields printNumber fuel rest).map fun taken =>
              ((name, value) :: taken.1, taken.2)
          else none := by
  have colon : (if indent = 0 then ":" else ": ").toList =
      ':' :: if indent = 0 then [] else [' '] := by
    split_ifs
    · rfl
    · rfl
  have blank : ∀ char ∈ (if indent = 0 then [] else [' ']), isBlank char = true := by
    split_ifs
    · exact List.forall_mem_nil _
    · exact List.forall_mem_singleton.mpr (by decide)
  have whole : (quoted name ++ (if indent = 0 then ":" else ": ") ++
        print indent depth value).toList ++ after =
      '"' :: (escapedAll name.toList ++ '"' :: ':' :: ((if indent = 0 then [] else [' ']) ++
        ((print indent depth value).toList ++ after))) := by
    simp only [String.toList_append, toList_quoted, colon, List.append_assoc, List.cons_append,
      List.nil_append]
  have short := length_le_escapedAll name.toList
  have named (tail : List Char) : takeString ('"' :: (escapedAll name.toList ++ '"' :: tail)).length
      (escapedAll name.toList ++ '"' :: tail) = some (name.toList, tail) :=
    takeString_escapedAll _ _ _ (by
      rw [List.length_cons, List.length_append, List.length_cons]
      omega)
  rw [whole, takeFields, dropWhile_isBlank_cons (by decide)]
  simp only [List.head?_cons, if_true, List.tail_cons, named, Option.bind_eq_bind, Option.bind_some]
  rw [dropWhile_isBlank_cons (by decide)]
  simp only [List.head?_cons, if_true, List.tail_cons, takeValue_blanks printNumber fuel blank,
    read, Option.bind_some, String.ofList_toList]

mutual

/-- A value is read back from what is printed of it. -/
theorem takeValue_print : ∀ (value : Json) (depth fuel : Nat) (rest : List Char),
    Printable printNumber value → weight value ≤ fuel → Stops rest →
    takeValue printNumber fuel ((print indent depth value).toList ++ rest) = some (value, rest)
  | .null, _, fuel + 1, rest, _, _, _ => by
      rw [print]
      exact takeValue_cons fuel (by decide) ('u' :: 'l' :: 'l' :: rest)
  | .bool true, _, fuel + 1, rest, _, _, _ => by
      rw [print]
      exact takeValue_cons fuel (by decide) ('r' :: 'u' :: 'e' :: rest)
  | .bool false, _, fuel + 1, rest, _, _, _ => by
      rw [print]
      exact takeValue_cons fuel (by decide) ('a' :: 'l' :: 's' :: 'e' :: rest)
  | .number text, _, fuel + 1, rest, printable, _, stops => by
      rw [print]
      exact takeValue_number printable stops fuel
  | .string text, _, fuel + 1, rest, _, _, _ => by
      have short := length_le_escapedAll text.toList
      have read := takeString_escapedAll text.toList rest
        (escapedAll text.toList ++ '"' :: rest).length
        (by rw [List.length_append, List.length_cons]; omega)
      rw [print, toList_quoted, List.cons_append, List.cons_append,
        takeValue_cons fuel (by decide), if_pos rfl, List.append_assoc, List.singleton_append, read,
        Option.map_some, String.ofList_toList]
  | .array [], depth, fuel + 1, rest, _, _, _ => by
      rw [print, printItems, toList_bracketed_nil]
      exact takeValue_cons fuel (by decide) (']' :: rest)
  | .array (item :: items), depth, fuel + 1, rest, printable, enough, stops => by
      have read := takeItems_print (item :: items) (depth + 1) depth fuel rest
        (List.cons_ne_nil _ _) printable (by rw [weight] at enough; omega)
      obtain ⟨more, whole⟩ := intercalate_cons (',' :: gap indent (depth + 1))
        (print indent (depth + 1) item).toList
        ((printItems indent (depth + 1) items).map String.toList)
      rw [printItems, List.map_cons, whole, List.append_assoc] at read
      obtain ⟨kept, noClose⟩ := dropWhile_print indent (depth + 1) printable.1
        (more ++ (gap indent depth ++ ']' :: rest))
      rw [print, printItems, toList_bracketed (List.cons_ne_nil _ _), List.map_cons, whole]
      have opening : "[".toList = ['['] := rfl
      have closing : "]".toList = [']'] := rfl
      simp only [opening, closing, List.append_assoc, List.cons_append, List.nil_append]
      rw [takeValue_cons fuel (by decide), if_neg (by decide), if_pos rfl, dropWhile_gap, kept,
        if_neg noClose, read, Option.map_some]
  | .object [], depth, fuel + 1, rest, _, _, _ => by
      rw [print, printFields, toList_bracketed_nil]
      exact takeValue_cons fuel (by decide) ('\x7d' :: rest)
  | .object ((name, value) :: fields), depth, fuel + 1, rest, printable, enough, stops => by
      have read := takeFields_print ((name, value) :: fields) (depth + 1) depth fuel rest
        (List.cons_ne_nil _ _) printable.2 (by rw [weight] at enough; omega)
      obtain ⟨more, whole⟩ := intercalate_cons (',' :: gap indent (depth + 1))
        (quoted name ++ (if indent = 0 then ":" else ": ") ++ print indent (depth + 1) value).toList
        ((printFields indent (depth + 1) fields).map String.toList)
      obtain ⟨others, first⟩ : ∃ others, (quoted name ++ (if indent = 0 then ":" else ": ") ++
          print indent (depth + 1) value).toList = '"' :: others := by
        rw [String.toList_append, String.toList_append, toList_quoted]
        exact ⟨_, rfl⟩
      rw [printFields, List.map_cons, whole, first] at read
      rw [print, printFields, toList_bracketed (List.cons_ne_nil _ _), List.map_cons, whole, first]
      have opening : "\x7b".toList = ['\x7b'] := rfl
      have closing : "\x7d".toList = ['\x7d'] := rfl
      simp only [opening, closing, List.append_assoc, List.cons_append, List.nil_append] at read ⊢
      rw [takeValue_cons fuel (by decide), if_neg (by decide), if_neg (by decide), if_pos rfl,
        dropWhile_gap, dropWhile_isBlank_cons (by decide), List.head?_cons,
        if_neg fun same => absurd (Option.some.inj same) (by decide), read, Option.map_some,
        ofFields_of_nodup printable.1]

/-- The items of an array are read back up to its closing bracket. -/
theorem takeItems_print : ∀ (items : List Json) (depth levels fuel : Nat) (rest : List Char),
    items ≠ [] → PrintableItems printNumber items → weightItems items ≤ fuel →
    takeItems printNumber fuel
        ((',' :: gap indent depth).intercalate
          ((printItems indent depth items).map String.toList) ++
          (gap indent levels ++ ']' :: rest)) = some (items, rest)
  | [item], depth, levels, fuel + 1, rest, _, printable, enough => by
      have read := takeValue_print item depth fuel (gap indent levels ++ ']' :: rest) printable.1
        (by rw [weightItems, weightItems] at enough; omega) (stops_gap indent levels rfl rest)
      rw [printItems, printItems, List.map_cons, List.map_nil, List.intercalate_singleton,
        takeItems, read]
      simp only [Option.bind_eq_bind, Option.bind_some, dropWhile_gap]
      rw [dropWhile_isBlank_cons (by decide)]
      rfl
  | item :: other :: items, depth, levels, fuel + 1, rest, _, printable, enough => by
      have later := takeItems_print (other :: items) depth levels fuel rest
        (List.cons_ne_nil _ _) printable.2 (by rw [weightItems] at enough; omega)
      have read := takeValue_print item depth fuel (',' :: (gap indent depth ++
          ((',' :: gap indent depth).intercalate
              ((printItems indent depth (other :: items)).map String.toList) ++
            (gap indent levels ++ ']' :: rest)))) printable.1
        (by rw [weightItems] at enough; omega) rfl
      rw [printItems, List.map_cons] at read later
      rw [printItems, printItems, List.map_cons, List.map_cons, List.intercalate_cons_cons]
      simp only [List.append_assoc, List.cons_append]
      rw [takeItems, read]
      simp only [Option.bind_eq_bind, Option.bind_some]
      rw [dropWhile_isBlank_cons (by decide)]
      simp only [takeItems_gap, later, Option.map_some]
      rfl
  | [], _, _, _, _, nonempty, _, _ => absurd rfl nonempty
  | _ :: _, _, _, 0, _, _, _, enough => absurd enough (by rw [weightItems]; omega)

/-- The properties of an object are read back up to its closing brace. -/
theorem takeFields_print : ∀ (fields : List (String × Json)) (depth levels fuel : Nat)
    (rest : List Char), fields ≠ [] → PrintableFields printNumber fields →
    weightFields fields ≤ fuel →
    takeFields printNumber fuel
        ((',' :: gap indent depth).intercalate
            ((printFields indent depth fields).map String.toList) ++
          (gap indent levels ++ '\x7d' :: rest)) = some (fields, rest)
  | [(name, value)], depth, levels, fuel + 1, rest, _, printable, enough => by
      have read := takeValue_print value depth fuel (gap indent levels ++ '\x7d' :: rest)
        printable.1 (by rw [weightFields, weightFields] at enough; omega)
        (stops_gap indent levels rfl rest)
      rw [printFields, printFields, List.map_cons, List.map_nil, List.intercalate_singleton,
        takeFields_cons indent name read, dropWhile_gap, dropWhile_isBlank_cons (by decide)]
      rfl
  | (name, value) :: (second, secondValue) :: fields, depth, levels, fuel + 1, rest, _, printable,
    enough => by
      have later := takeFields_print ((second, secondValue) :: fields) depth levels fuel rest
        (List.cons_ne_nil _ _) printable.2 (by rw [weightFields] at enough; omega)
      have read := takeValue_print value depth fuel (',' :: (gap indent depth ++
          ((',' :: gap indent depth).intercalate
              ((printFields indent depth ((second, secondValue) :: fields)).map String.toList) ++
            (gap indent levels ++ '\x7d' :: rest)))) printable.1
        (by rw [weightFields] at enough; omega) rfl
      have step := takeFields_cons indent name read
      rw [printFields, List.map_cons] at later step
      rw [printFields, printFields, List.map_cons, List.map_cons, List.intercalate_cons_cons]
      simp only [List.append_assoc, List.cons_append] at step ⊢
      rw [step, dropWhile_isBlank_cons (by decide)]
      simp only [takeFields_gap, later, Option.map_some]
      rfl
  | [], _, _, _, _, nonempty, _, _ => absurd rfl nonempty
  | _ :: _, _, _, 0, _, _, _, enough => absurd enough (by rw [weightFields]; omega)

end

/-- Something is printed of every value. -/
theorem one_le_length_print (depth : Nat) {value : Json}
    (printable : Printable printNumber value) : 1 ≤ (print indent depth value).toList.length := by
  obtain ⟨first, rest, shape, -⟩ := head_print indent depth printable
  rw [shape, List.length_cons]
  omega

mutual

/-- A value does not weigh more than what is printed of it. -/
theorem weight_le_length : ∀ (value : Json) (depth : Nat), Printable printNumber value →
    weight value ≤ (print indent depth value).toList.length
  | .null, depth, printable | .bool _, depth, printable | .number _, depth, printable
  | .string _, depth, printable | .array [], depth, printable | .object [], depth, printable =>
      one_le_length_print indent depth printable
  | .array (item :: items), depth, printable => by
      have inside := weightItems_le_length (item :: items) (depth + 1) printable
      have opening : "[".toList.length = 1 := rfl
      have closing : "]".toList.length = 1 := rfl
      rw [weight, print, toList_bracketed (by rw [printItems]; exact List.cons_ne_nil _ _)]
      simp only [List.length_append]
      omega
  | .object ((name, value) :: fields), depth, printable => by
      have inside := weightFields_le_length ((name, value) :: fields) (depth + 1) printable.2
      have opening : "\x7b".toList.length = 1 := rfl
      have closing : "\x7d".toList.length = 1 := rfl
      rw [weight, print, toList_bracketed (by rw [printFields]; exact List.cons_ne_nil _ _)]
      simp only [List.length_append]
      omega

/-- The same for the items of an array. -/
theorem weightItems_le_length : ∀ (items : List Json) (depth : Nat),
    PrintableItems printNumber items →
    weightItems items ≤ ((',' :: gap indent depth).intercalate
      ((printItems indent depth items).map String.toList)).length + 1
  | [], _, _ => Nat.zero_le _
  | [item], depth, printable => by
      have here := weight_le_length item depth printable.1
      rw [weightItems, weightItems, printItems, printItems, List.map_cons, List.map_nil,
        List.intercalate_singleton]
      omega
  | item :: other :: items, depth, printable => by
      have here := weight_le_length item depth printable.1
      have later := weightItems_le_length (other :: items) depth printable.2
      rw [printItems, List.map_cons] at later
      rw [weightItems, printItems, printItems, List.map_cons, List.map_cons,
        List.intercalate_cons_cons, List.length_append, List.length_append, List.length_cons]
      omega

/-- The same for the properties of an object. -/
theorem weightFields_le_length : ∀ (fields : List (String × Json)) (depth : Nat),
    PrintableFields printNumber fields →
    weightFields fields ≤ ((',' :: gap indent depth).intercalate
      ((printFields indent depth fields).map String.toList)).length + 1
  | [], _, _ => Nat.zero_le _
  | [(name, value)], depth, printable => by
      have here := weight_le_length value depth printable.1
      rw [weightFields, weightFields, printFields, printFields, List.map_cons, List.map_nil,
        List.intercalate_singleton, String.toList_append, List.length_append]
      omega
  | (name, value) :: (second, secondValue) :: fields, depth, printable => by
      have here := weight_le_length value depth printable.1
      have later := weightFields_le_length ((second, secondValue) :: fields) depth printable.2
      rw [printFields, List.map_cons] at later
      rw [weightFields, printFields, printFields, List.map_cons, List.map_cons,
        List.intercalate_cons_cons, List.length_append, List.length_append, List.length_cons,
        String.toList_append, List.length_append]
      omega

end

/-- A value is read back from the text of it. -/
theorem parse_stringify {value : Json} (printable : Printable printNumber value) :
    parse printNumber (value.stringify indent) = some value := by
  have light := weight_le_length indent value 0 printable
  rw [String.length_toList] at light
  have read := takeValue_print indent value 0 _ [] printable (Nat.le_succ_of_le light) rfl
  rw [List.append_nil] at read
  rw [parse, stringify, read]
  rfl

end Printed

end Json
