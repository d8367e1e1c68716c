import MindMapVault.Foundations.Collapse
import MindMapVault.Foundations.Ecma

/-!
# The names of exported files

A name is built from the first title that is not blank: characters that file systems
refuse become dashes, white space becomes single blanks, and the number of a version is
put at the end where it is not there yet. The editor builds a name and the page builds
it again, so a name that is built is left as it is.
-/

namespace MindMapVault
namespace Formats

open Ecma Regex

/-- `ExportFileNameInput`. -/
structure ExportFileNameInput where
  baseTitle : Option String
  title : Option String
  fallback : String
  versionLabel : Option String
  deriving DecidableEq

/-- The characters of `UNSAFE_FILENAME_CHARS`. -/
def unsafeCharacters : List Char := ['\\', '/', ':', '*', '?', '"', '<', '>', '|']

/-- One of them. -/
def isUnsafe (char : Char) : Bool := unsafeCharacters.contains char

/-- `[-_ ]`. -/
def isSeparator (char : Char) : Bool := ['-', '_', ' '].contains char

/-- A letter or a digit in any case. -/
def inAnyCase (char : Char) : Regex := .one fun other => other.toLower == char.toLower

/-- The first of the titles that is not blank, trimmed. -/
def normalizedTitle (input : ExportFileNameInput) : String :=
  let values := [input.baseTitle, input.title, some input.fallback]
  ((values.map fun value => Ecma.trim (value.getD "")).find? (· != "")).getD input.fallback

/-- A title as files may be named. -/
def safeTitle (title : List Char) : List Char :=
  let safe := replaceAll (.many1 isUnsafe) (fun _ => ['-']) title
  let spaced := replaceAll (.many1 Ecma.isWhitespace) (fun _ => [' ']) safe
  trimChars spaced

/-- What follows the start in `/^v\s*(\d+)$/i`. -/
def versionPattern : Regex :=
  .all [inAnyCase 'v', .many Ecma.isWhitespace, .capture 1 (.many1 Ecma.isDigit), .stop]

/-- The token of a version label with a number, and of no other. -/
def versionToken (versionLabel : Option String) : Option (List Char) :=
  let label := (Ecma.trim (versionLabel.getD "")).toList
  (match? (.seq .start versionPattern) label).map fun step =>
    'v' :: Regex.group 1 step.groups

/-- The pattern of a title that ends with the token already. -/
def endsWithToken (token : List Char) : Regex :=
  .all (.one isSeparator :: (token.map inAnyCase ++ [.stop]))

/-- `buildExportFileBaseName`. -/
def buildExportFileBaseName (input : ExportFileNameInput) : String :=
  let safe := safeTitle (normalizedTitle input).toList
  match versionToken input.versionLabel with
  | none => String.ofList safe
  | some token =>
      if Regex.test (endsWithToken token) safe then String.ofList safe
      else String.ofList (safe ++ '-' :: token)

/-- What names of files are: neither end is white, no character is refused, and white
space is single blanks. -/
structure FileName (name : List Char) : Prop where
  begins : Begins name
  ends : Ecma.Ends name
  safe : ∀ char ∈ name, isUnsafe char = false
  spaced : Collapsed Ecma.isWhitespace ' ' name

/-! ### Titles -/

section Titles

variable {name title : List Char}

/-- Replacing a class by a character that is not white leaves the ends dark. -/
theorem begins_collapse {ok : Char → Bool} {mark : Char} {text : List Char}
    (dark : ∀ char, ok char = true →
      Ecma.isWhitespace char = false → Ecma.isWhitespace mark = false)
    (begins : Begins text) : Begins (collapse ok mark false text) := by
  obtain ⟨first, rest, rfl, isDark⟩ := begins
  cases matched : ok first with
  | true =>
      rw [collapse, if_pos matched, if_neg Bool.false_ne_true]
      exact ⟨mark, _, rfl, dark first matched isDark⟩
  | false =>
      rw [collapse, if_neg (by simp [matched])]
      exact ⟨first, _, rfl, isDark⟩

/-- Collapsing keeps the end of a text. -/
theorem ends_collapse {ok : Char → Bool} {mark : Char} {text : List Char}
    (dark : ∀ char, ok char = true →
      Ecma.isWhitespace char = false → Ecma.isWhitespace mark = false)
    (ends : Ecma.Ends text) : Ecma.Ends (collapse ok mark false text) := by
  obtain ⟨front, last, rfl, isDark⟩ := ends
  rcases collapse_concat last front false with ⟨outside, _⟩ | ⟨left, same⟩
  · exact absurd outside Bool.false_ne_true
  · refine ⟨left, _, same, ?_⟩
    split_ifs with matched
    · exact dark last matched isDark
    · exact isDark

/-- The regular expressions of the file name as two collapses and a trim. -/
theorem safeTitle_eq (title : List Char) :
    safeTitle title = trimChars (collapse Ecma.isWhitespace ' ' false
      (collapse isUnsafe '-' false title)) := by
  simp only [Formats.safeTitle, replaceAll_many1]

/-- A name of a file is left as it is. -/
theorem FileName.safeTitle (isName : FileName name) : safeTitle name = name := by
  rw [safeTitle_eq, collapse_of_forall false isName.safe,
    collapse_of_collapsed isName.spaced fun inside => absurd inside Bool.false_ne_true,
    trimChars_of_both isName.begins isName.ends]

/-- A trimmed title that is not blank becomes a name. -/
theorem fileName_safeTitle (begins : Begins title) (ends : Ecma.Ends title) :
    FileName (Formats.safeTitle title) := by
  have dash : ∀ char, isUnsafe char = true →
      Ecma.isWhitespace char = false → Ecma.isWhitespace '-' = false :=
    fun _ _ _ => by decide
  have blank : ∀ char, Ecma.isWhitespace char = true →
      Ecma.isWhitespace char = false → Ecma.isWhitespace ' ' = false :=
    fun char white isDark => absurd white (by simp [isDark])
  have begins' := begins_collapse blank (begins_collapse dash begins)
  have ends' := ends_collapse blank (ends_collapse dash ends)
  rw [safeTitle_eq, trimChars_of_both begins' ends']
  refine ⟨begins', ends', fun char present => ?_, collapsed_collapse _ false⟩
  rcases mem_collapse present with rfl | ⟨present, _⟩
  · decide
  · rcases mem_collapse present with rfl | ⟨_, isSafe⟩
    · decide
    · exact isSafe

theorem trimChars_of_blank (blank : title.all Ecma.isWhitespace = true) :
    trimChars title = [] := by
  have same : trimChars (title ++ []) = trimChars [] := trimChars_append blank
  rw [List.append_nil] at same
  exact same

theorem safe_of_white {char : Char} (white : Ecma.isWhitespace char = true) :
    isUnsafe char = false := by
  cases refused : isUnsafe char with
  | false => rfl
  | true =>
      have dark : (unsafeCharacters.all fun other => !Ecma.isWhitespace other) = true := rfl
      have isDark := List.all_eq_true.mp dark char (List.contains_iff_mem.mp refused)
      exact absurd white (by simpa using isDark)

/-- A blank title becomes nothing. -/
theorem safeTitle_of_blank (blank : title.all Ecma.isWhitespace = true) :
    Formats.safeTitle title = [] := by
  have white := List.all_eq_true.mp blank
  have safe : ∀ char ∈ title, isUnsafe char = false :=
    fun char present => safe_of_white (white char present)
  rw [safeTitle_eq, collapse_of_forall false safe]
  refine trimChars_of_blank (List.all_eq_true.mpr fun char present => ?_)
  rcases mem_collapse present with rfl | ⟨present, _⟩
  · decide
  · exact white char present

end Titles

/-! ### Version tokens -/

section Tokens

/-- The label has a number: a letter, white space and digits. -/
def SequentialLabel (versionLabel : Option String) (digits : List Char) : Prop :=
  ∃ letter white, (letter = 'v' ∨ letter = 'V') ∧ white.all Ecma.isWhitespace = true ∧
    digits ≠ [] ∧ digits.all Ecma.isDigit = true ∧
    (Ecma.trim (versionLabel.getD "")).toList = letter :: (white ++ digits)

theorem dark_of_isDigit {char : Char} (isDigit : Ecma.isDigit char = true) :
    Ecma.isWhitespace char = false := by
  simp only [Ecma.isDigit, Bool.and_eq_true, decide_eq_true_eq] at isDigit
  have low : '0'.toNat ≤ char.toNat := isDigit.1
  have high : char.toNat ≤ '9'.toNat := isDigit.2
  exact dark_of_ascii (le_trans (by decide) low) (le_trans high (by decide))

/-- A label with a number is cut into its parts. -/
theorem versionToken_of_sequential {versionLabel : Option String} {digits : List Char}
    (sequential : SequentialLabel versionLabel digits) :
    versionToken versionLabel = some ('v' :: digits) := by
  obtain ⟨letter, white, isLetter, isWhite, some, areDigits, label⟩ := sequential
  have first : (letter.toLower == 'v'.toLower) = true := by
    rcases isLetter with rfl | rfl <;> rfl
  have digitsNext : ∀ char ∈ digits.head?, Ecma.isWhitespace char = false :=
    fun char isHead =>
      dark_of_isDigit (List.all_eq_true.mp areDigits char (List.mem_of_mem_head? isHead))
  have number : (Regex.capture 1 (.many1 Ecma.isDigit)).Reaches (digits ++ []) [] []
      [(1, digits)] :=
    (reaches_run areDigits (fun _ _ none => by cases none)
      (List.length_pos_iff.mpr some) (fun _ none => by cases none)).capture
  rw [List.append_nil] at number
  have reaches : versionPattern.Reaches (letter :: (white ++ digits)) [] [] [(1, digits)] :=
    reaches_all_cons (reaches_one first)
      (reaches_all_cons
        (reaches_run isWhite (fun _ => digitsNext) (Nat.zero_le _) (fun _ none => by cases none))
        (reaches_all_cons number reaches_stop))
  obtain ⟨taken, matched⟩ := match?_of_reaches reaches
  simp only [versionToken, label, matched, Option.map_some, group_cons]

/-- A token is a letter and digits. -/
theorem digits_of_versionToken {versionLabel : Option String} {token : List Char}
    (isToken : versionToken versionLabel = some token) :
    ∃ digits, token = 'v' :: digits ∧ digits.all Ecma.isDigit = true := by
  rw [versionToken, Option.map_eq_some_iff] at isToken
  obtain ⟨step, matched, rfl⟩ := isToken
  have number : (Regex.capture 1 (.many1 Ecma.isDigit)).Fills 1 Ecma.isDigit :=
    fills_capture (within_run 1 none true)
  have fills : versionPattern.Fills 1 Ecma.isDigit := ((number.before keeps_stop).after).after
  exact ⟨_, rfl, fills.of_match? matched⟩

theorem all_cons_of_ne_nil {regex : Regex} {others : List Regex} (some : others ≠ []) :
    Regex.all (regex :: others) = .seq regex (.all others) := by
  cases others with
  | nil => exact absurd rfl some
  | cons other others => rfl

/-- A word in any case up to the end of the text. -/
theorem steps_inAnyCase_ne_nil_iff (token : List Char) : ∀ (text : List Char) (atStart : Bool),
    (Regex.all (token.map inAnyCase ++ [.stop])).steps atStart text [] ≠ [] ↔
      text.map Char.toLower = token.map Char.toLower := by
  induction token with
  | nil =>
      intro text atStart
      cases text <;> simp [Regex.all, Regex.steps]
  | cons letter token ih =>
      intro text atStart
      rw [List.map_cons, List.cons_append, all_cons_of_ne_nil (by simp), Regex.steps, inAnyCase]
      cases text with
      | nil => simp
      | cons char text =>
          have rest := ih text false
          rw [steps_one_cons]
          cases same : char.toLower == letter.toLower with
          | true =>
              have equal : char.toLower = letter.toLower := beq_iff_eq.mp same
              simpa [equal] using rest
          | false =>
              have differ : char.toLower ≠ letter.toLower := beq_eq_false_iff_ne.mp same
              simp [differ]

/-- A name ends in a token after a separator, in any case. -/
theorem test_endsWithToken_iff (token name : List Char) :
    Regex.test (endsWithToken token) name = true ↔
      ∃ front separator tail, name = front ++ separator :: tail ∧
        isSeparator separator = true ∧
        tail.map Char.toLower = token.map Char.toLower := by
  have matches_ (rest : List Char) (atStart : Bool) :
      (endsWithToken token).steps atStart rest [] ≠ [] ↔
        ∃ separator tail, rest = separator :: tail ∧ isSeparator separator = true ∧
          tail.map Char.toLower = token.map Char.toLower := by
    rw [endsWithToken, all_cons_of_ne_nil (by simp), Regex.steps]
    cases rest with
    | nil => simp
    | cons separator tail =>
        have word := steps_inAnyCase_ne_nil_iff token tail false
        rw [steps_one_cons]
        cases isOne : isSeparator separator with
        | true => simpa [isOne] using word
        | false => simp [isOne]
  rw [test_iff]
  constructor
  · rintro ⟨front, rest, rfl, some⟩
    obtain ⟨separator, tail, rfl, isOne, same⟩ := (matches_ rest _).mp some
    exact ⟨front, separator, tail, rfl, isOne, same⟩
  · rintro ⟨front, separator, tail, rfl, isOne, same⟩
    exact ⟨front, separator :: tail, rfl, (matches_ _ _).mpr ⟨separator, tail, rfl, isOne, same⟩⟩

theorem safe_of_isDigit {char : Char} (isDigit : Ecma.isDigit char = true) :
    isUnsafe char = false := by
  cases refused : isUnsafe char with
  | false => rfl
  | true =>
      have noDigit : (unsafeCharacters.all fun other => !Ecma.isDigit other) = true := rfl
      have other := List.all_eq_true.mp noDigit char (List.contains_iff_mem.mp refused)
      exact absurd isDigit (by simpa using other)

/-- A token at the end of a name, or alone, makes a name. -/
theorem fileName_token {name digits : List Char} (isName : name = [] ∨ FileName name)
    (areDigits : digits.all Ecma.isDigit = true) :
    FileName (name ++ '-' :: 'v' :: digits) := by
  have suffix : ∀ char ∈ '-' :: 'v' :: digits,
      Ecma.isWhitespace char = false ∧ isUnsafe char = false := by
    intro char present
    rcases List.mem_cons.mp present with rfl | present
    · decide
    rcases List.mem_cons.mp present with rfl | present
    · decide
    have isDigit := List.all_eq_true.mp areDigits char present
    exact ⟨dark_of_isDigit isDigit, safe_of_isDigit isDigit⟩
  have token : Collapsed Ecma.isWhitespace ' ' ('-' :: 'v' :: digits) :=
    collapsed_of_forall fun char present => (suffix char present).1
  refine ⟨?_, ?_, fun char present => ?_, fun char present white => ?_, ?_⟩
  · rcases isName with rfl | isName
    · exact ⟨'-', 'v' :: digits, rfl, by decide⟩
    · exact isName.begins.append _
  · refine Ecma.Ends.append name ?_
    rcases List.eq_nil_or_concat' ('v' :: digits) with none | ⟨front, last, same⟩
    · cases none
    · refine ⟨'-' :: front, last, congrArg ('-' :: ·) same, ?_⟩
      exact (suffix last (List.mem_cons_of_mem _ (by rw [same]; simp))).1
  · rcases List.mem_append.mp present with inName | inToken
    · rcases isName with rfl | isName
      · cases inName
      · exact isName.safe char inName
    · exact (suffix char inToken).2
  · rcases List.mem_append.mp present with inName | inToken
    · rcases isName with rfl | isName
      · cases inName
      · exact isName.spaced.only char inName white
    · exact token.only char inToken white
  · refine List.isChain_append.mpr ⟨?_, token.apart, fun _ _ next isHead both => ?_⟩
    · rcases isName with rfl | isName
      · exact List.isChain_nil
      · exact isName.spaced.apart
    · cases isHead
      exact absurd both.2 (by decide)

end Tokens

/-! ### Names that are built -/

/-- One of the titles is not blank. -/
def ExportFileNameInput.Titled (input : ExportFileNameInput) : Prop :=
  ∃ value ∈ [input.baseTitle, input.title, some input.fallback], Ecma.trim (value.getD "") ≠ ""

/-- A title that is not blank is trimmed to what neither end of is white. -/
theorem begins_ends_trim {value : String} (some : Ecma.trim value ≠ "") :
    Begins (Ecma.trim value).toList ∧ Ecma.Ends (Ecma.trim value).toList := by
  have same : (Ecma.trim value).toList = trimChars value.toList := Text.toList_trimMatches _ value
  have again : trimChars (Ecma.trim value).toList = (Ecma.trim value).toList := by
    rw [same, trimChars_trimChars]
  have ne : (Ecma.trim value).toList ≠ [] := fun none => some (String.toList_eq_nil_iff.mp none)
  exact ⟨begins_of_trimChars again ne, ends_of_trimChars again ne⟩

/-- A title that is trimmed away is white. -/
theorem white_of_trim {value : String} (none : Ecma.trim value = "") :
    value.toList.all Ecma.isWhitespace = true := by
  have trimmed : Ecma.trimEnd (trimStart value.toList) = [] := by
    have same : (Ecma.trim value).toList = trimChars value.toList := Text.toList_trimMatches _ value
    rw [none] at same
    exact same.symm
  obtain ⟨white, split, isWhite⟩ := trimEnd_append_white (trimStart value.toList)
  rw [trimmed, List.nil_append] at split
  have start : trimStart value.toList = [] := by
    by_contra some
    obtain ⟨first, rest, shape, dark⟩ := begins_trimStart some
    rw [← split, shape, List.all_cons, dark, Bool.false_and] at isWhite
    exact Bool.false_ne_true isWhite
  exact List.all_eq_true.mpr (List.dropWhile_eq_nil_iff.mp start)

/-- The titles in the order in which they are looked at. -/
def ExportFileNameInput.values (input : ExportFileNameInput) : List String :=
  [input.baseTitle, input.title, some input.fallback].map fun value =>
    Ecma.trim (value.getD "")

theorem titled_iff {input : ExportFileNameInput} :
    input.Titled ↔ ∃ value ∈ input.values, (value != "") = true := by
  unfold ExportFileNameInput.Titled ExportFileNameInput.values
  simp only [List.mem_map, bne_iff_ne]
  constructor
  · rintro ⟨value, listed, filled⟩
    exact ⟨_, ⟨value, listed, rfl⟩, filled⟩
  · rintro ⟨_, ⟨value, listed, rfl⟩, filled⟩
    exact ⟨value, listed, filled⟩

/-- Without a title the fallback names the file. -/
theorem normalizedTitle_of_not_titled {input : ExportFileNameInput}
    (untitled : ¬ input.Titled) : normalizedTitle input = input.fallback := by
  have absent : input.values.find? (· != "") = none :=
    List.find?_eq_none.mpr fun value listed filled =>
      untitled (titled_iff.mpr ⟨value, listed, filled⟩)
  change (input.values.find? (· != "")).getD input.fallback = input.fallback
  rw [absent, Option.getD_none]

/-- The title that is chosen is trimmed, or there is none. -/
theorem normalizedTitle_cases (input : ExportFileNameInput) :
    Begins (normalizedTitle input).toList ∧ Ecma.Ends (normalizedTitle input).toList ∨
      ¬ input.Titled ∧ (normalizedTitle input).toList.all Ecma.isWhitespace = true := by
  by_cases titled : input.Titled
  · obtain ⟨value, found⟩ := Option.isSome_iff_exists.mp
      (List.find?_isSome.mpr (titled_iff.mp titled))
    obtain ⟨raw, _, rfl⟩ := List.mem_map.mp (List.mem_of_find?_eq_some found)
    have filled := List.find?_some found
    have chosen : normalizedTitle input = Ecma.trim (raw.getD "") := by
      change (input.values.find? (· != "")).getD input.fallback = _
      rw [found, Option.getD_some]
    rw [chosen]
    exact .inl (begins_ends_trim (bne_iff_ne.mp filled))
  · refine .inr ⟨titled, ?_⟩
    rw [normalizedTitle_of_not_titled titled]
    refine white_of_trim (by_contra fun filled => titled (titled_iff.mpr ?_))
    exact ⟨Ecma.trim input.fallback, by simp [ExportFileNameInput.values], bne_iff_ne.mpr filled⟩

/-- What is built is a name that carries its token; or there is no title and no token,
and it is empty. -/
theorem buildExportFileBaseName_cases (input : ExportFileNameInput) :
    FileName (buildExportFileBaseName input).toList ∧
        (∀ token, versionToken input.versionLabel = some token →
          Regex.test (endsWithToken token) (buildExportFileBaseName input).toList = true) ∨
      ¬ input.Titled ∧ buildExportFileBaseName input = "" := by
  have title : safeTitle (normalizedTitle input).toList = [] ∧ ¬ input.Titled ∨
      FileName (safeTitle (normalizedTitle input).toList) := by
    rcases normalizedTitle_cases input with ⟨begins, ends⟩ | ⟨untitled, blank⟩
    · exact .inr (fileName_safeTitle begins ends)
    · exact .inl ⟨safeTitle_of_blank blank, untitled⟩
  unfold buildExportFileBaseName
  generalize safeTitle (normalizedTitle input).toList = safe at title ⊢
  cases isToken : versionToken input.versionLabel with
  | none =>
      rcases title with ⟨rfl, untitled⟩ | isName
      · exact .inr ⟨untitled, rfl⟩
      · exact .inl ⟨by simpa using isName, fun _ none => by cases none⟩
  | some token =>
      obtain ⟨digits, rfl, areDigits⟩ := digits_of_versionToken isToken
      by_cases carries : Regex.test (endsWithToken ('v' :: digits)) safe = true
      · rcases title with ⟨rfl, _⟩ | isName
        · obtain ⟨front, separator, tail, none, _⟩ := (test_endsWithToken_iff _ _).mp carries
          exact absurd none.symm (by simp)
        · refine .inl ⟨by simpa [carries] using isName, fun token same => ?_⟩
          cases same
          simp [carries]
      · have isName := fileName_token (title.imp And.left id) areDigits
        simp only [carries, Bool.false_eq_true, if_false, String.toList_ofList]
        refine .inl ⟨isName, fun token same => ?_⟩
        cases same
        exact (test_endsWithToken_iff _ _).mpr ⟨safe, '-', 'v' :: digits, rfl, rfl, rfl⟩

/-- A file name has no blanks around it. -/
theorem FileName.trim {name : String} (isName : FileName name.toList) :
    Ecma.trim name = name := by
  rw [← String.toList_inj, Ecma.trim, Text.toList_trimMatches]
  exact trimChars_of_both isName.begins isName.ends

theorem FileName.ne_empty {name : String} (isName : FileName name.toList) : name ≠ "" :=
  fun none => isName.begins.ne_nil (by rw [none]; rfl)

/-- A name that carries its token is built from itself, whatever else is given. -/
theorem buildExportFileBaseName_of_fileName
    {name : String} {versionLabel : Option String} (isName : FileName name.toList)
    (carries : ∀ token, versionToken versionLabel = some token →
      Regex.test (endsWithToken token) name.toList = true)
    (title : Option String) (fallback : String) :
    buildExportFileBaseName ⟨some name, title, fallback, versionLabel⟩ = name := by
  have trimmed := isName.trim
  have filled := isName.ne_empty
  have chosen : normalizedTitle ⟨some name, title, fallback, versionLabel⟩ = name := by
    simp [normalizedTitle, trimmed, filled]
  unfold buildExportFileBaseName
  simp only [chosen, isName.safeTitle, String.ofList_toList]
  cases isToken : versionToken versionLabel with
  | none => rfl
  | some token => exact if_pos (carries token isToken)

/-- Building a name again from what was built gives it back. And where one of the titles
is not blank, the name is not empty, has no white space at its ends and none of the
characters that are refused, is built again whatever the other titles are by then, and
ends in any case with the token of a label that has a number. -/
theorem buildExportFileBaseName_spec (input : ExportFileNameInput) :
    let name := buildExportFileBaseName input
    buildExportFileBaseName { input with baseTitle := some name } = name ∧
      (input.Titled →
        name ≠ "" ∧ Ecma.trim name = name ∧
        (∀ char ∈ name.toList, char ∉ unsafeCharacters) ∧
        (∀ title fallback,
          buildExportFileBaseName ⟨some name, title, fallback, input.versionLabel⟩ = name) ∧
        ∀ digits, SequentialLabel input.versionLabel digits →
          ∃ front tail, name.toList = front ++ tail ∧
            tail.map Char.toLower = ('v' :: digits).map Char.toLower) := by
  intro name
  rcases buildExportFileBaseName_cases input with ⟨isName, carries⟩ | ⟨untitled, empty⟩
  · have again := buildExportFileBaseName_of_fileName isName carries
    refine ⟨again input.title input.fallback, fun _ => ⟨?_, ?_, ?_, again, ?_⟩⟩
    · exact isName.ne_empty
    · exact isName.trim
    · intro char present refused
      exact absurd (List.contains_iff_mem.mpr refused)
        (by simpa [isUnsafe] using isName.safe char present)
    · intro digits sequential
      have ends := carries _ (versionToken_of_sequential sequential)
      obtain ⟨front, separator, tail, same, _, token⟩ := (test_endsWithToken_iff _ _).mp ends
      refine ⟨front ++ [separator], tail, ?_, token⟩
      rw [same, List.append_assoc, List.singleton_append]
  · refine ⟨?_, fun titled => absurd titled untitled⟩
    -- Nothing is chosen again, and the fallback is as blank as before.
    have blank : ¬ { input with baseTitle := some name }.Titled := by
      rintro ⟨value, listed, filled⟩
      rcases List.mem_cons.mp listed with rfl | later
      · exact filled (by rw [Option.getD_some, show name = "" from empty]; rfl)
      · exact untitled ⟨value, List.mem_cons_of_mem _ later, filled⟩
    unfold buildExportFileBaseName
    rw [normalizedTitle_of_not_titled blank]
    change _ = buildExportFileBaseName input
    unfold buildExportFileBaseName
    rw [normalizedTitle_of_not_titled untitled]

end Formats
end MindMapVault
