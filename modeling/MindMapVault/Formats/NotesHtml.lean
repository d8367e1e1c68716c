import MindMapVault.Foundations.Result
import MindMapVault.Formats.FreemindImport
import MindMapVault.Formats.NoteParagraphs

/-!
# The text of the HTML of notes

Paragraphs of lines are HTML as it is serialized, and stripping gives their text back, with a
line break after each, as long as no part of it reads as an entity. Whatever is decoded in it
becomes shorter, so nothing else comes back as it was.
-/

namespace MindMapVault
namespace Formats

open Ecma Regex
open Xml.Node (serializedChar)

/-- The HTML of paragraphs, each of which is a list of lines. -/
def paragraphsHtml (paragraphs : List (List Chars)) : Chars :=
  paragraphs.flatMap fun lines =>
    "<p>".toList ++ "<br/>".toList.intercalate (lines.map (·.flatMap serializedChar)) ++
      "</p>".toList

/-- Their text. -/
def paragraphsText (paragraphs : List (List Chars)) : Chars :=
  paragraphs.flatMap fun lines => ['\n'].intercalate lines ++ ['\n']

/-! ### Tags -/

/-- What paragraphs are written of. -/
inductive NoteToken
  | opening
  | lineBreak
  | closing
  | letter (char : Char)

namespace NoteToken

/-- A token with these texts for the tags. -/
def spell (start breaks stop : Chars) : NoteToken → Chars
  | .opening => start
  | .lineBreak => breaks
  | .closing => stop
  | .letter char => serializedChar char

/-- The tokens of paragraphs. -/
def all (paragraphs : List (List Chars)) : List NoteToken :=
  paragraphs.flatMap fun lines =>
    .opening :: ([.lineBreak].intercalate (lines.map (·.map .letter)) ++ [.closing])

theorem flatMap_intercalate {α β : Type} (change : α → List β) (between : List α) :
    ∀ pieces : List (List α), (between.intercalate pieces).flatMap change =
      (between.flatMap change).intercalate (pieces.map (·.flatMap change))
  | [] => by simp
  | [piece] => by simp
  | piece :: next :: pieces => by
      have rest := flatMap_intercalate change between (next :: pieces)
      rw [List.intercalate_cons_cons, List.flatMap_append, List.flatMap_append, rest,
        List.map_cons, List.map_cons, List.map_cons, List.intercalate_cons_cons]

theorem flatMap_spell (start breaks stop : Chars) (paragraphs : List (List Chars)) :
    (all paragraphs).flatMap (spell start breaks stop) =
      paragraphs.flatMap fun lines =>
        start ++ breaks.intercalate (lines.map (·.flatMap serializedChar)) ++ stop := by
  rw [all, List.flatMap_assoc]
  refine List.flatMap_congr fun lines _ => ?_
  rw [List.flatMap_cons, List.flatMap_append, flatMap_intercalate, List.flatMap_singleton,
    List.flatMap_singleton, List.map_map, List.append_assoc]
  refine congrArg (fun pieces => start ++ (breaks.intercalate pieces ++ stop)) ?_
  refine List.map_congr_left fun line _ => ?_
  rw [Function.comp_apply, List.flatMap_map]
  rfl

theorem paragraphsHtml_eq (paragraphs : List (List Chars)) :
    paragraphsHtml paragraphs =
      (all paragraphs).flatMap (spell "<p>".toList "<br/>".toList "</p>".toList) :=
  (flatMap_spell _ _ _ paragraphs).symm

theorem serialized_paragraphsText (paragraphs : List (List Chars)) :
    (paragraphsText paragraphs).flatMap serializedChar =
      (all paragraphs).flatMap (spell [] ['\n'] ['\n']) := by
  have lineBreak : ['\n'].flatMap serializedChar = ['\n'] := rfl
  rw [flatMap_spell, paragraphsText, List.flatMap_assoc]
  refine List.flatMap_congr fun lines _ => ?_
  rw [List.flatMap_append, flatMap_intercalate, lineBreak, List.nil_append]

section Stages

variable {regex : Regex} {write : Regex.Groups → Chars}

/-- No tag begins in a text without the mark. -/
theorem not_tag_of_all {text : Chars} (clean : text.all (· != '<') = true) :
    ∀ char ∈ text, (char == '<') = false :=
  fun char listed => (Bool.not_eq_true' _).mp (List.all_eq_true.mp clean char listed)

/-- No tag begins in a letter. -/
theorem not_tag_of_mem (char : Char) :
    ∀ other ∈ serializedChar char, (other == '<') = false := by
  unfold serializedChar
  split_ifs with isAmp isLess isGreater
  · exact not_tag_of_all rfl
  · exact not_tag_of_all rfl
  · exact not_tag_of_all rfl
  · intro other listed
    rw [List.mem_singleton.mp listed]
    exact beq_eq_false_iff_ne.mpr isLess

theorem serializedChar_ne_nil (char : Char) : serializedChar char ≠ [] := by
  unfold serializedChar
  split_ifs
  · exact List.cons_ne_nil _ _
  · exact List.cons_ne_nil _ _
  · exact List.cons_ne_nil _ _
  · exact List.cons_ne_nil _ _

/-- A pattern for tags does to each token what it does to its tag. -/
theorem replaceAll_spell (leads : regex.Leads (· == '<'))
    {start breaks stop start' breaks' stop' : Chars}
    (opening : ∀ atStart rest, replaceFrom regex write atStart 0 (start ++ rest) =
      start' ++ replaceFrom regex write false 0 rest)
    (lineBreak : ∀ atStart rest, replaceFrom regex write atStart 0 (breaks ++ rest) =
      breaks' ++ replaceFrom regex write false 0 rest)
    (closing : ∀ atStart rest, replaceFrom regex write atStart 0 (stop ++ rest) =
      stop' ++ replaceFrom regex write false 0 rest)
    (tokens : List NoteToken) :
    replaceAll regex write (tokens.flatMap (spell start breaks stop)) =
      tokens.flatMap (spell start' breaks' stop') := by
  apply Replacing.replaceAll_flatMap
  · intro atStart
    rw [List.head?_eq_none_iff]
    refine List.eq_nil_iff_forall_not_mem.mpr fun step listed => ?_
    obtain ⟨char, others, taken, -⟩ := leads _ _ _ step listed
    have split := steps_append listed
    rw [taken] at split
    exact List.cons_ne_nil _ _ split
  · intro token _ atStart rest
    cases token with
    | opening => exact opening atStart rest
    | lineBreak => exact lineBreak atStart rest
    | closing => exact closing atStart rest
    | letter char =>
        exact Replacing.replaceFrom_append leads (not_tag_of_mem char)
          (serializedChar_ne_nil char) atStart

theorem leads_tag (second : Regex) : (Regex.seq (Regex.char '<') second).Leads (· == '<') :=
  (leads_one _).seq

/-- A line break is no tag. -/
theorem replaceFrom_lineBreak (leads : regex.Leads (· == '<')) (atStart : Bool) (rest : Chars) :
    replaceFrom regex write atStart 0 (['\n'] ++ rest) =
      ['\n'] ++ replaceFrom regex write false 0 rest :=
  Replacing.replaceFrom_append leads (not_tag_of_all rfl) (List.cons_ne_nil _ _) atStart

/-- A tag that is found is replaced. -/
theorem replaceFrom_found (others : Chars)
    (reaches : ∀ rest, regex.Reaches ('<' :: others ++ rest) [] rest []) (atStart : Bool)
    (rest : Chars) :
    replaceFrom regex write atStart 0 ('<' :: others ++ rest) =
      write [] ++ replaceFrom regex write false 0 rest :=
  Replacing.replaceFrom_of_reaches (reaches rest) atStart

/-- Another tag is left. -/
theorem replaceFrom_other (leads : regex.Leads (· == '<')) (others : Chars)
    (fails : ∀ rest atStart, (regex.steps atStart ('<' :: (others ++ rest)) []).head? = none)
    (one : others.all (· != '<') = true) (atStart : Bool) (rest : Chars) :
    replaceFrom regex write atStart 0 ('<' :: others ++ rest) =
      '<' :: others ++ replaceFrom regex write false 0 rest :=
  Replacing.replaceFrom_of_mark leads (fails rest) (not_tag_of_all one) atStart

/-- No character of a class before one of another. -/
theorem reaches_many_none {ok : Char → Bool} {char : Char} (other : ok char = false)
    (rest : Chars) :
    (Regex.many ok).Reaches (char :: rest) [] (char :: rest) [] := by
  have reaches : (Regex.many ok).Reaches ([] ++ char :: rest) [] (char :: rest) [] := by
    refine reaches_run rfl (fun _ first isHead => ?_) (Nat.zero_le _) (fun _ none => by cases none)
    rw [← Option.mem_some.mp isHead]
    exact other
  exact reaches

/-- A break is replaced, and no other tag. -/
theorem breakTag_stage (tokens : List NoteToken) :
    replaceAll breakTag write
        (tokens.flatMap (spell "<p>".toList "<br/>".toList "</p>".toList)) =
      tokens.flatMap (spell "<p>".toList (write []) "</p>".toList) := by
  apply replaceAll_spell (leads_tag _)
  · exact replaceFrom_other (leads_tag _) ['p', '>'] (fun _ _ => rfl) rfl
  · refine replaceFrom_found ['b', 'r', '/', '>'] fun rest => ?_
    have slash : (Regex.optional (Regex.char '/')).Reaches ('/' :: '>' :: rest) []
        ('>' :: rest) [] := (reaches_char '/').either
    exact reaches_all_cons (reaches_char '<') <|
      reaches_all_cons (reaches_one rfl) <|
      reaches_all_cons (reaches_one rfl) <|
      reaches_all_cons (reaches_many_none rfl _) <|
      reaches_all_cons slash (reaches_char '>')
  · exact replaceFrom_other (leads_tag _) ['/', 'p', '>'] (fun _ _ => rfl) rfl

/-- The end of a paragraph is replaced, and no other tag. -/
theorem paragraphEnd_stage (tokens : List NoteToken) :
    replaceAll paragraphEnd write
        (tokens.flatMap (spell "<p>".toList ['\n'] "</p>".toList)) =
      tokens.flatMap (spell "<p>".toList ['\n'] (write [])) := by
  apply replaceAll_spell (leads_tag _)
  · exact replaceFrom_other (leads_tag _) ['p', '>'] (fun _ _ => rfl) rfl
  · exact replaceFrom_lineBreak (leads_tag _)
  · refine replaceFrom_found ['/', 'p', '>'] fun rest => ?_
    exact reaches_all_cons (reaches_char '<') <|
      reaches_all_cons (reaches_char '/') <|
      reaches_all_cons (reaches_one rfl) (reaches_char '>')

/-- There is no division. -/
theorem divisionEnd_stage (tokens : List NoteToken) :
    replaceAll divisionEnd write (tokens.flatMap (spell "<p>".toList ['\n'] ['\n'])) =
      tokens.flatMap (spell "<p>".toList ['\n'] ['\n']) := by
  apply replaceAll_spell (leads_tag _)
  · exact replaceFrom_other (leads_tag _) ['p', '>'] (fun _ _ => rfl) rfl
  · exact replaceFrom_lineBreak (leads_tag _)
  · exact replaceFrom_lineBreak (leads_tag _)

/-- The other tags are erased. -/
theorem anyTag_stage (tokens : List NoteToken) :
    replaceAll anyTag Regex.erase (tokens.flatMap (spell "<p>".toList ['\n'] ['\n'])) =
      tokens.flatMap (spell [] ['\n'] ['\n']) := by
  apply replaceAll_spell (leads_tag _)
  · refine replaceFrom_found ['p', '>'] fun rest => ?_
    have name : (Regex.many1 (· != '>')).Reaches (['p'] ++ '>' :: rest) [] ('>' :: rest) [] := by
      refine reaches_run rfl (fun _ char isHead => ?_) (le_refl 1) (fun _ none => by cases none)
      rw [← Option.mem_some.mp isHead]
      rfl
    exact reaches_all_cons (reaches_char '<') <| reaches_all_cons name (reaches_char '>')
  · exact replaceFrom_lineBreak (leads_tag _)
  · exact replaceFrom_lineBreak (leads_tag _)

end Stages

end NoteToken

/-- Without its tags, the HTML is the text of the paragraphs as it is serialized. -/
theorem untagged_paragraphsHtml (paragraphs : List (List Chars)) :
    untagged (paragraphsHtml paragraphs) = (paragraphsText paragraphs).flatMap serializedChar := by
  rw [NoteToken.serialized_paragraphsText, NoteToken.paragraphsHtml_eq, untagged,
    NoteToken.breakTag_stage, NoteToken.paragraphEnd_stage, NoteToken.divisionEnd_stage,
    NoteToken.anyTag_stage]

/-! ### Entities -/

section Entities

open Replacing (replaceText replaceEach)

/-- The entities of the serializer after the first character. -/
def ampTail : Chars := ['a', 'm', 'p', ';']
def lessTail : Chars := ['l', 't', ';']
def greaterTail : Chars := ['g', 't', ';']

/-- `&lt;` for `<`, and nothing else. -/
def lessEscape (char : Char) : Chars := if char = '<' then '&' :: lessTail else [char]

/-- `&gt;` for `>`, and nothing else. -/
def greaterEscape (char : Char) : Chars := if char = '>' then '&' :: greaterTail else [char]

/-- Another entity is passed over. -/
theorem replaceText_other {tail written other : Chars} (unlike : ∀ rest, ¬tail <+: other ++ rest)
    (absent : '&' ∉ other) (rest : Chars) :
    replaceText '&' tail written ('&' :: other ++ rest) =
      '&' :: other ++ replaceText '&' tail written rest := by
  rw [List.cons_append, Replacing.replaceText_of_unlike, Replacing.replaceText_append absent]
  · rfl
  · rw [List.cons_prefix_cons]
    exact fun both => unlike rest both.2

/-- Once `&amp;` is replaced, only brackets are escaped. -/
theorem replaceText_amp (text : Chars) :
    replaceText '&' ampTail ['&'] (text.flatMap serializedChar) =
      (text.flatMap greaterEscape).flatMap lessEscape := by
  rw [List.flatMap_assoc]
  refine Replacing.replaceText_flatMap fun char _ rest => ?_
  by_cases isAmp : char = '&'
  · subst isAmp
    exact Replacing.replaceText_match rest
  · by_cases isLess : char = '<'
    · subst isLess
      have passed : replaceText '&' ampTail ['&'] ('&' :: lessTail ++ rest) =
          '&' :: lessTail ++ replaceText '&' ampTail ['&'] rest :=
        replaceText_other (fun rest => by simp [ampTail, lessTail]) (by decide) rest
      exact passed
    · by_cases isGreater : char = '>'
      · subst isGreater
        have passed : replaceText '&' ampTail ['&'] ('&' :: greaterTail ++ rest) =
            '&' :: greaterTail ++ replaceText '&' ampTail ['&'] rest :=
          replaceText_other (fun rest => by simp [ampTail, greaterTail]) (by decide) rest
        exact passed
      · rw [serializedChar, if_neg isAmp, if_neg isLess, if_neg isGreater, greaterEscape,
          if_neg isGreater, List.flatMap_singleton, lessEscape, if_neg isLess]
        exact Replacing.replaceText_of_ne (Ne.symm isAmp)

theorem escapes_less : Replacing.Escapes '&' lessEscape := by
  intro char
  unfold lessEscape
  split_ifs
  · exact .inr ⟨lessTail, rfl, by decide⟩
  · exact .inl rfl

theorem escapes_greater : Replacing.Escapes '&' greaterEscape := by
  intro char
  unfold greaterEscape
  split_ifs
  · exact .inr ⟨greaterTail, rfl, by decide⟩
  · exact .inl rfl

/-- The escapes of brackets are taken back, and the text is read as it would be without. -/
theorem replaceText_brackets (text : Chars) :
    replaceText '&' greaterTail ['>'] (replaceText '&' lessTail ['<']
        ((text.flatMap greaterEscape).flatMap lessEscape)) =
      replaceText '&' greaterTail ['>'] (replaceText '&' lessTail ['<'] text) := by
  have less := Replacing.replaceText_escape escapes_less (by decide : '&' ∉ lessTail)
    (rfl : lessEscape '<' = '&' :: lessTail) (fun other different => if_neg different)
    (by decide) (text.flatMap greaterEscape)
  have foreign : ∀ char, greaterEscape char ≠ [char] →
      char ∉ '&' :: lessTail ∧
        ∀ rest, greaterEscape char = '&' :: rest → ∀ more, ¬lessTail <+: rest ++ more := by
    intro char changed
    have isGreater : char = '>' := by_contra fun other => changed (if_neg other)
    subst isGreater
    refine ⟨by decide, fun rest same more => ?_⟩
    rw [← (List.cons.inj same).2]
    simp [lessTail, greaterTail]
  have kept := Replacing.replaceText_keeps_escape escapes_greater
    (by decide : '&' ∉ lessTail) foreign (rfl : ['<'].flatMap greaterEscape = ['<']) text
  rw [less, kept]
  exact Replacing.replaceText_escape escapes_greater (by decide : '&' ∉ greaterTail)
    (rfl : greaterEscape '>' = '&' :: greaterTail) (fun other different => if_neg different)
    (by decide) _

/-- The references that are replaced after `&amp;`, and what is written for them. -/
def namedReferences : List (Regex × (Regex.Groups → Chars)) :=
  namedEntities.tail.map fun entity => (Regex.literal entity.1, fun _ => [entity.2])

/-- References by code, in the order in which they are decoded. -/
def numericReferences : List (Regex × (Regex.Groups → Chars)) :=
  [(hexReference, fun groups => [fromCodePoint (referenceCode 16 groups)]),
    (decimalReference, fun groups => [fromCodePoint (referenceCode 10 groups)])]

/-- What is serialized is decoded as if `&amp;` were all there is to it. -/
theorem decodeNamed_serialized (text : Chars) :
    decodeNamed (text.flatMap serializedChar) = replaceEach namedReferences text := by
  have amp (text : Chars) : replaceAll (Regex.literal "&amp;") (fun _ => ['&']) text =
      replaceText '&' ampTail ['&'] text := Replacing.replaceAll_literal rfl _ _
  have less (text : Chars) : replaceAll (Regex.literal "&lt;") (fun _ => ['<']) text =
      replaceText '&' lessTail ['<'] text := Replacing.replaceAll_literal rfl _ _
  have greater (text : Chars) : replaceAll (Regex.literal "&gt;") (fun _ => ['>']) text =
      replaceText '&' greaterTail ['>'] text := Replacing.replaceAll_literal rfl _ _
  rw [decodeNamed, namedEntities, namedReferences, namedEntities, List.tail_cons]
  simp only [List.map_cons, Replacing.replaceEach_cons, List.foldl_cons, amp, less, greater]
  rw [replaceText_amp, replaceText_brackets]
  rfl

theorem stripHtml_eq {html text : Chars} (tagless : untagged html = text.flatMap serializedChar) :
    stripHtml html = do
      let decoded ← decodeNumeric hexReference 16 (replaceEach namedReferences text)
      let text ← decodeNumeric decimalReference 10 decoded
      return trimChars (replaceAll manyBreaks (fun _ => ['\n', '\n']) text) := by
  rw [stripHtml, tagless, decodeNamed_serialized]

/-- Every reference that is decoded. -/
def noteReferences : List (Regex × (Regex.Groups → Chars)) := namedReferences ++ numericReferences

/-- The texts that a pattern for references finds. -/
structure Words (regex : Regex) (words : Chars → Prop) : Prop where
  oneLine : ∀ word, words word → '\n' ∉ word
  find?_eq_none : ∀ text, Regex.find? regex true text = none ↔ ¬∃ word, words word ∧ word <:+: text

theorem words_literal {pattern : String} {head : Char} {tail : Chars}
    (shape : pattern.toList = head :: tail) (oneLine : '\n' ∉ pattern.toList) :
    Words (Regex.literal pattern) (· = pattern.toList) where
  oneLine := fun _ same => same ▸ oneLine
  find?_eq_none := fun text => by rw [Replacing.find?_literal shape, exists_eq_left]

/-- A reference by code is a word of its own. -/
theorem words_reference {mark : String} {ok : Char → Bool} {head : Char} {tail : Chars}
    (shape : mark.toList = head :: tail) (oneLine : '\n' ∉ mark.toList)
    (noEnd : ok ';' = false) (noBreak : ok '\n' = false) :
    Words (Replacing.reference mark ok)
      (fun word => ∃ digits, Replacing.IsReference mark ok digits word) where
  oneLine := by
    rintro word ⟨digits, -, each, rfl⟩ listed
    rcases List.mem_append.mp listed with inMark | later
    · exact oneLine inMark
    · rcases List.mem_append.mp later with inDigits | inEnd
      · have isDigit := List.all_eq_true.mp each _ inDigits
        rw [noBreak] at isDigit
        exact Bool.noConfusion isDigit
      · exact absurd (List.mem_singleton.mp inEnd) (by decide)
  find?_eq_none := fun text => by
    rw [Replacing.find?_reference shape noEnd]
    refine not_congr (exists_comm.trans ?_)
    simp only [exists_and_right]

/-- A name is longer than what is written for it. -/
theorem lightens_literal {pattern : String} {head : Char} {tail : Chars}
    (shape : pattern.toList = head :: tail) (heavy : 1 < pattern.toList.countP (· ≠ '\n'))
    (char : Char) :
    (Regex.literal pattern).Lightens (fun _ => [char]) (· ≠ '\n') := by
  intro atStart text step listed
  rw [Replacing.steps_literal shape] at listed
  split_ifs at listed
  · rw [List.mem_singleton.mp listed]
    exact lt_of_le_of_lt List.countP_le_length heavy
  · exact absurd listed List.not_mem_nil

theorem lightens_reference {mark : String} {ok : Char → Bool} {head : Char} {tail : Chars}
    (shape : mark.toList = head :: tail) (heavy : 1 < mark.toList.countP (· ≠ '\n'))
    (written : Regex.Groups → Char) :
    (Replacing.reference mark ok).Lightens (fun groups => [written groups]) (· ≠ '\n') := by
  intro atStart text step listed
  obtain ⟨digits, ⟨-, -, taken⟩, -⟩ := Replacing.reference_spec shape listed
  rw [taken, List.countP_append]
  exact lt_of_le_of_lt List.countP_le_length (Nat.lt_add_right _ heavy)

theorem forall_namedEntities {holds : String × Char → Prop}
    (each : holds ("&lt;", '<') ∧ holds ("&gt;", '>') ∧ holds ("&quot;", '"') ∧
      holds ("&#39;", '\'') ∧ holds ("&nbsp;", ' ')) :
    ∀ entity ∈ namedEntities.tail, holds entity := by
  rw [namedEntities, List.tail_cons]
  simpa only [List.forall_mem_cons, List.not_mem_nil, false_imp_iff, implies_true, and_true]
    using each

theorem lightens_of_mem : ∀ stage ∈ noteReferences, stage.1.Lightens stage.2 (· ≠ '\n') := by
  rw [noteReferences, List.forall_mem_append]
  constructor
  · rw [namedReferences, List.forall_mem_map]
    exact forall_namedEntities ⟨lightens_literal rfl (by decide) _,
      lightens_literal rfl (by decide) _, lightens_literal rfl (by decide) _,
      lightens_literal rfl (by decide) _, lightens_literal rfl (by decide) _⟩
  · simp only [numericReferences, List.forall_mem_cons, List.not_mem_nil, false_imp_iff,
      implies_true, and_true]
    exact ⟨lightens_reference rfl (by decide) _, lightens_reference rfl (by decide) _⟩

theorem words_of_mem : ∀ stage ∈ noteReferences, ∃ words, Words stage.1 words := by
  rw [noteReferences, List.forall_mem_append]
  constructor
  · rw [namedReferences, List.forall_mem_map]
    exact forall_namedEntities ⟨⟨_, words_literal rfl (by decide)⟩,
      ⟨_, words_literal rfl (by decide)⟩, ⟨_, words_literal rfl (by decide)⟩,
      ⟨_, words_literal rfl (by decide)⟩, ⟨_, words_literal rfl (by decide)⟩⟩
  · simp only [numericReferences, List.forall_mem_cons, List.not_mem_nil, false_imp_iff,
      implies_true, and_true]
    exact ⟨⟨_, words_reference rfl (by decide) rfl rfl⟩,
      ⟨_, words_reference rfl (by decide) rfl rfl⟩⟩

/-- A line break after a text makes no reference of it. -/
theorem find?_append_lineBreak {stage : Regex × (Regex.Groups → Chars)}
    (listed : stage ∈ noteReferences) (text : Chars) :
    Regex.find? stage.1 true (text ++ ['\n']) = none ↔ Regex.find? stage.1 true text = none := by
  obtain ⟨words, ⟨oneLine, find⟩⟩ := words_of_mem stage listed
  rw [find, find]
  refine not_congr (exists_congr fun word => and_congr_right fun isWord => ?_)
  rw [List.infix_concat_iff, List.suffix_concat_iff]
  constructor
  · rintro ((rfl | ⟨front, rfl, -⟩) | inside)
    · exact List.nil_infix
    · exact absurd (List.mem_concat_self) (oneLine _ isWord)
    · exact inside
  · exact Or.inr

end Entities

/-! ### Stripping -/

section Stripping

open Replacing (replaceEach)

variable {html text notes : Chars}

theorem eq_of_decodeNumeric {regex : Regex} {base : Nat} {decoded : Chars}
    (decodes : decodeNumeric regex base text = .ok decoded) :
    decoded = replaceAll regex
      (fun groups => [fromCodePoint (referenceCode base groups)]) text := by
  rw [decodeNumeric] at decodes
  split_ifs at decodes
  exact (Except.ok.inj decodes).symm

theorem decodeNumeric_of_find? {regex : Regex} {base : Nat}
    (absent : Regex.find? regex true text = none) :
    decodeNumeric regex base text = .ok text := by
  rw [decodeNumeric, matchAll, matchFrom_of_find? absent, replaceAll_of_find? absent]
  rfl

/-- Three line breaks hold a blank line. -/
theorem find?_manyBreaks (noBlank : NoBlankLine text) :
    Regex.find? manyBreaks true text = none := by
  cases isFound : Regex.find? manyBreaks true text with
  | none => rfl
  | some found =>
      obtain ⟨⟨atStart, suffix, listed⟩, split⟩ := find?_spec isFound
      obtain ⟨-, each, long⟩ := run_spec listed
      obtain ⟨first, others, taken⟩ := List.exists_cons_of_length_pos (Nat.lt_of_succ_le
        (Nat.le_trans (by decide : 1 ≤ 3) long))
      rw [taken, List.length_cons] at long
      obtain ⟨second, rest, rfl⟩ := List.exists_cons_of_length_pos (by omega : 0 < others.length)
      rw [taken, List.all_cons, List.all_cons, Bool.and_eq_true, Bool.and_eq_true] at each
      refine absurd ⟨found.1, rest ++ found.2.rest, ?_⟩ noBlank
      rw [split, taken, beq_iff_eq.mp each.1, beq_iff_eq.mp each.2.1]
      simp

/-- Fewer line breaks are written than are taken. -/
theorem drops_manyBreaks : manyBreaks.Drops (fun _ => ['\n', '\n']) fun _ => true := by
  intro atStart text step listed
  obtain ⟨-, each, long⟩ := run_spec listed
  have shape : step.taken = List.replicate step.taken.length '\n' :=
    List.eq_replicate_of_mem fun char inTaken =>
      beq_iff_eq.mp (List.all_eq_true.mp each char inTaken)
  constructor
  · rw [shape]
    exact List.replicate_sublist_replicate '\n' |>.mpr (Nat.le_of_succ_le long)
  · rw [List.countP_true]
    exact long

/-- What is decoded and trimmed has no more characters than before, line breaks apart. -/
theorem countP_stripped_le (text : Chars) :
    (trimChars (replaceAll manyBreaks (fun _ => ['\n', '\n']) text)).countP (· ≠ '\n') ≤
      text.countP (· ≠ '\n') :=
  ((infix_trimChars _).sublist.trans (replaceAll_sublist drops_manyBreaks text)).countP_le

theorem replaceEach_noteReferences (text : Chars) :
    replaceEach noteReferences text =
      replaceAll decimalReference
        (fun groups => [fromCodePoint (referenceCode 10 groups)])
        (replaceAll hexReference (fun groups => [fromCodePoint (referenceCode 16 groups)])
          (replaceEach namedReferences text)) := by
  rw [noteReferences, replaceEach, List.foldl_append]
  rfl

/-- What is stripped has every reference replaced. -/
theorem eq_of_stripHtml (tagless : untagged html = text.flatMap serializedChar)
    (back : stripHtml html = .ok notes) :
    notes = trimChars (replaceAll manyBreaks (fun _ => ['\n', '\n'])
      (replaceEach noteReferences text)) := by
  rw [stripHtml_eq tagless] at back
  obtain ⟨decoded, hex, back⟩ := Result.bind_eq_ok.mp back
  obtain ⟨whole, decimal, back⟩ := Result.bind_eq_ok.mp back
  rw [← Except.ok.inj back, replaceEach_noteReferences, eq_of_decodeNumeric decimal,
    eq_of_decodeNumeric hex]

/-- No character comes back that was not there, line breaks apart. -/
theorem countP_stripHtml_le (tagless : untagged html = text.flatMap serializedChar)
    (back : stripHtml html = .ok notes) :
    notes.countP (· ≠ '\n') ≤ text.countP (· ≠ '\n') := by
  rw [eq_of_stripHtml tagless back]
  exact (countP_stripped_le _).trans (Replacing.countP_replaceEach_le lightens_of_mem text)

/-- Where all characters come back, there was no reference. -/
theorem find?_of_stripHtml (tagless : untagged html = text.flatMap serializedChar)
    (back : stripHtml html = .ok notes) (all : text.countP (· ≠ '\n') ≤ notes.countP (· ≠ '\n')) :
    ∀ stage ∈ noteReferences, Regex.find? stage.1 true text = none := by
  apply Replacing.find?_of_countP_replaceEach lightens_of_mem
  rw [eq_of_stripHtml tagless back] at all
  exact all.trans (countP_stripped_le _)

/-- A text without references and blank lines is trimmed. -/
theorem stripHtml_of_find? (tagless : untagged html = text.flatMap serializedChar)
    (absent : ∀ stage ∈ noteReferences, Regex.find? stage.1 true text = none)
    (noBlank : NoBlankLine text) : stripHtml html = .ok (trimChars text) := by
  rw [noteReferences, List.forall_mem_append] at absent
  simp only [numericReferences, List.forall_mem_cons, List.not_mem_nil, false_imp_iff,
    implies_true, and_true] at absent
  obtain ⟨named, hex, decimal⟩ := absent
  rw [stripHtml_eq tagless, Replacing.replaceEach_of_find? named, decodeNumeric_of_find? hex]
  change (decodeNumeric decimalReference 10 text >>= _) = _
  rw [decodeNumeric_of_find? decimal]
  exact congrArg (fun text => Except.ok (trimChars text))
    (replaceAll_of_find? (find?_manyBreaks noBlank))

end Stripping

/-! ### Notes -/

/-- The lines of the paragraphs of notes. -/
def paragraphLines (notes : Chars) : List (List Chars) :=
  (Regex.split blankLines notes).map (List.splitOn '\n')

/-- Nothing in the notes is read as something else: no blank line, and no reference. -/
structure PlainNotes (notes : Chars) : Prop where
  noBlank : NoBlankLine notes
  noReference : ∀ pattern ∈ noteReferences.map Prod.fst, Regex.test pattern notes = false

section Notes

variable {notes : Chars}

theorem paragraphsText_paragraphLines (notes : Chars) :
    paragraphsText (paragraphLines notes) = rejoined notes := by
  rw [paragraphsText, paragraphLines, rejoined, List.flatMap_map]
  refine List.flatMap_congr fun block _ => ?_
  rw [List.intercalate_splitOn]

theorem untagged_paragraphLines (notes : Chars) :
    untagged (paragraphsHtml (paragraphLines notes)) = (rejoined notes).flatMap serializedChar := by
  rw [untagged_paragraphsHtml, paragraphsText_paragraphLines]

/-- Trimmed notes end with no line break. -/
theorem getLast?_ne_of_trimmed (trimmed : trimChars notes = notes) (nonempty : notes ≠ []) :
    notes.getLast? ≠ some '\n' := by
  obtain ⟨front, char, rfl, dark⟩ := ends_of_trimChars trimmed nonempty
  rw [List.getLast?_concat]
  intro same
  rw [Option.some.inj same] at dark
  exact absurd dark (by decide)

theorem noReference_iff :
    (∀ pattern ∈ noteReferences.map Prod.fst, Regex.test pattern notes = false) ↔
      ∀ stage ∈ noteReferences, Regex.find? stage.1 true notes = none := by
  simp only [List.forall_mem_map, Regex.test, Option.isSome_eq_false_iff, Option.isNone_iff_eq_none]

/-- Trimmed notes come back from their HTML exactly if they are plain. -/
theorem stripHtml_paragraphLines_iff (trimmed : trimChars notes = notes) (nonempty : notes ≠ []) :
    stripHtml (paragraphsHtml (paragraphLines notes)) = .ok notes ↔ PlainNotes notes := by
  have tagless := untagged_paragraphLines notes
  have joined : NoBlankLine (rejoined notes) :=
    noBlankLine_rejoined nonempty (getLast?_ne_of_trimmed trimmed nonempty)
  constructor
  · intro back
    have absent := find?_of_stripHtml tagless back (countP_rejoined rfl notes).le
    rw [stripHtml_of_find? tagless absent joined] at back
    have inside : notes <:+: rejoined notes := by
      conv_lhs => rw [← Except.ok.inj back]
      exact infix_trimChars _
    have noBlank : NoBlankLine notes := fun blank => joined (blank.trans inside)
    rw [rejoined_of_noBlankLine noBlank] at absent
    exact ⟨noBlank, noReference_iff.mpr fun stage listed =>
      (find?_append_lineBreak listed notes).mp (absent stage listed)⟩
  · rintro ⟨noBlank, noReference⟩
    have absent := noReference_iff.mp noReference
    rw [rejoined_of_noBlankLine noBlank] at tagless joined
    rw [stripHtml_of_find? tagless (fun stage listed =>
      (find?_append_lineBreak listed notes).mpr (absent stage listed)) joined]
    obtain ⟨front, char, shape, dark⟩ := ends_of_trimChars trimmed nonempty
    rw [trimChars_of_begins
      ((begins_of_trimChars trimmed nonempty).append _), shape, Ecma.trimEnd,
      List.reverse_append, List.reverse_append, List.reverse_singleton, List.singleton_append,
      List.reverse_singleton, List.singleton_append, List.dropWhile_cons_of_pos (by decide),
      List.dropWhile_cons_of_neg (by simp [dark]), List.reverse_cons, List.reverse_reverse]

end Notes

end Formats
end MindMapVault
