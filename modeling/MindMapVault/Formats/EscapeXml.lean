import MindMapVault.Foundations.XmlText
import MindMapVault.Formats.TreeNode

/-!
# Five entities for the marks of XML

FreePlane and WiseMapping files escape the marks of XML, one after the other, and leave every
other character as it is. What is read of a text is the text between tags, but for its line
breaks, and in an attribute every tab and line break is a blank.
-/

namespace MindMapVault
namespace Formats

open Xml

/-- `replace` of every occurrence of a character. -/
def replaceChar (mark : Char) (entity text : Chars) : Chars :=
  text.flatMap fun ch => if ch = mark then entity else [ch]

/-- The marks and what is written for them, in the order in which they are replaced. -/
def markEntities : List (Char × String) :=
  [('&', "&amp;"), ('<', "&lt;"), ('>', "&gt;"), ('"', "&quot;"), ('\'', "&apos;")]

/-- `escapeXml`. -/
def escapeXml (text : Chars) : Chars :=
  markEntities.foldl (fun text entity => replaceChar entity.1 entity.2.toList text) text

/-- A character as it is written. -/
def markEscaped (ch : Char) : Chars := ((markEntities.lookup ch).map String.toList).getD [ch]

example : escapeXml "a < b & c".toList = "a &lt; b &amp; c".toList := by decide

section Escape

theorem replaceChar_append (mark : Char) (entity first second : Chars) :
    replaceChar mark entity (first ++ second) =
      replaceChar mark entity first ++ replaceChar mark entity second :=
  List.flatMap_append

/-- The replacements go through a text character by character. -/
theorem foldl_replaceChar_append (entities : List (Char × String)) (first second : Chars) :
    entities.foldl (fun text entity => replaceChar entity.1 entity.2.toList text)
        (first ++ second) =
      entities.foldl (fun text entity => replaceChar entity.1 entity.2.toList text) first ++
        entities.foldl (fun text entity => replaceChar entity.1 entity.2.toList text) second := by
  induction entities generalizing first second with
  | nil => rfl
  | cons entity entities ih =>
      rw [List.foldl_cons, List.foldl_cons, List.foldl_cons, replaceChar_append, ih]

/-- A character that is no mark is left alone. -/
theorem foldl_replaceChar_of_ne {entities : List (Char × String)} {ch : Char}
    (other : ∀ entity ∈ entities, ch ≠ entity.1) :
    entities.foldl (fun text entity => replaceChar entity.1 entity.2.toList text) [ch] = [ch] := by
  induction entities with
  | nil => rfl
  | cons entity entities ih =>
      obtain ⟨here, later⟩ := List.forall_mem_cons.mp other
      have same : replaceChar entity.1 entity.2.toList [ch] = [ch] := by
        rw [replaceChar, List.flatMap_singleton, if_neg here]
      rw [List.foldl_cons, same, ih later]

/-- What holds of the marks and of every other character. -/
theorem mark_cases {holds : Char → Prop}
    (marks : holds '&' ∧ holds '<' ∧ holds '>' ∧ holds '"' ∧ holds '\'')
    (others : ∀ ch, (∀ entity ∈ markEntities, ch ≠ entity.1) → holds ch) (ch : Char) :
    holds ch := by
  by_cases isMark : ∃ entity ∈ markEntities, ch = entity.1
  · obtain ⟨entity, listed, rfl⟩ := isMark
    have each : ∀ entity ∈ markEntities, holds entity.1 := by
      rw [markEntities]
      simpa only [List.forall_mem_cons, List.not_mem_nil, false_imp_iff, implies_true, and_true]
        using marks
    exact each entity listed
  · push Not at isMark
    exact others ch isMark

theorem markEscaped_of_ne {ch : Char} (other : ∀ entity ∈ markEntities, ch ≠ entity.1) :
    markEscaped ch = [ch] := by
  have none : markEntities.lookup ch = none :=
    List.lookup_eq_none_iff.mpr fun entity listed => bne_iff_ne.mpr (other entity listed)
  rw [markEscaped, none]
  rfl

theorem escapeXml_singleton (ch : Char) : escapeXml [ch] = markEscaped ch := by
  induction ch using mark_cases with
  | marks => exact ⟨rfl, rfl, rfl, rfl, rfl⟩
  | others ch other =>
      rw [markEscaped_of_ne other]
      exact foldl_replaceChar_of_ne other

/-- The five replacements escape character by character. -/
theorem escapeXml_eq (text : Chars) : escapeXml text = text.flatMap markEscaped := by
  induction text with
  | nil => rfl
  | cons ch text ih =>
      have split : escapeXml ([ch] ++ text) = escapeXml [ch] ++ escapeXml text :=
        foldl_replaceChar_append markEntities [ch] text
      rw [List.singleton_append, escapeXml_singleton] at split
      rw [split, ih, List.flatMap_cons]

theorem markEscaped_ne_nil (ch : Char) : markEscaped ch ≠ [] := by
  induction ch using mark_cases with
  | marks => decide
  | others ch other =>
      rw [markEscaped_of_ne other]
      exact List.cons_ne_nil _ _

theorem escapeXml_eq_nil {text : Chars} : escapeXml text = [] ↔ text = [] := by
  rw [escapeXml_eq, List.flatMap_eq_nil_iff]
  constructor
  · exact fun none => List.eq_nil_iff_forall_not_mem.mpr fun ch listed =>
      markEscaped_ne_nil ch (none ch listed)
  · rintro rfl
    exact List.forall_mem_nil _

/-- Not a character that ends what stands between tags or in an attribute. -/
def isClean (ch : Char) : Bool := ch != '<' && ch != '>' && ch != '"'

/-- What a character is escaped to ends no attribute and no text. -/
theorem markEscaped_clean (ch : Char) : (markEscaped ch).all isClean = true := by
  induction ch using mark_cases with
  | marks => decide
  | others ch other =>
      have noLess : ch ≠ '<' := other ('<', "&lt;") (by decide)
      have noGreater : ch ≠ '>' := other ('>', "&gt;") (by decide)
      have noQuote : ch ≠ '"' := other ('"', "&quot;") (by decide)
      rw [markEscaped_of_ne other, List.all_cons, List.all_nil, Bool.and_true]
      simp [isClean, noLess, noGreater, noQuote]

/-- No tag begins or ends in an escaped text, and no attribute. -/
theorem escapeXml_clean (text : Chars) :
    ∀ ch ∈ escapeXml text, ch ≠ '<' ∧ ch ≠ '>' ∧ ch ≠ '"' := by
  rw [escapeXml_eq]
  intro written listed
  obtain ⟨ch, -, inside⟩ := List.mem_flatMap.mp listed
  have clean := List.all_eq_true.mp (markEscaped_clean ch) written inside
  simpa [isClean, and_assoc] using clean

/-- A text without marks is written as it is. -/
theorem escapeXml_of_plain {text : Chars}
    (plain : ∀ ch ∈ text, ∀ entity ∈ markEntities, ch ≠ entity.1) : escapeXml text = text := by
  rw [escapeXml_eq]
  refine (List.flatMap_congr fun ch listed => markEscaped_of_ne (plain ch listed)).trans ?_
  exact List.flatMap_singleton' text

/-- No mark is of the class that the text is of. -/
theorem escapeXml_of_all {ok : Char → Bool} {text : Chars}
    (marks : markEntities.all (fun entity => !ok entity.1) = true)
    (plain : text.all ok = true) : escapeXml text = text := by
  refine escapeXml_of_plain fun ch listed entity isEntity same => ?_
  have isOk := List.all_eq_true.mp plain ch listed
  have notOk := List.all_eq_true.mp marks entity isEntity
  rw [← same, isOk] at notOk
  exact Bool.noConfusion notOk

theorem isChar_of_isWord {ch : Char} (isWord : Ecma.isWord ch = true) : isChar ch = true := by
  simp only [Ecma.isWord, Ecma.isLetter, Ecma.isDigit, Bool.or_eq_true, Bool.and_eq_true,
    decide_eq_true_eq, beq_iff_eq, Char.le_def, UInt32.le_iff_toNat_le] at isWord
  have code : 48 ≤ ch.toNat ∧ ch.toNat ≤ 122 := by
    rcases isWord with ((⟨low, high⟩ | ⟨low, high⟩) | ⟨low, high⟩) | rfl
    · exact ⟨Nat.le_trans (by decide) low, Nat.le_trans high (by decide)⟩
    · exact ⟨Nat.le_trans (by decide) low, Nat.le_trans high (by decide)⟩
    · exact ⟨low, Nat.le_trans high (by decide)⟩
    · decide
  simp only [isChar, isCharCode, Bool.or_eq_true, Bool.and_eq_true, decide_eq_true_eq, beq_iff_eq]
  omega

/-- Escaped texts can stand in the attributes of a tag. -/
theorem grammar_escaped {fields : List (String × Option Chars)}
    (names : ∀ name ∈ fields.map Prod.fst, Xml.Markup.IsName name) :
    ∀ field ∈ (Xml.present fields).map fun field => (field.1, escapeXml field.2),
      Xml.Markup.AttributeGrammar field := by
  rw [List.forall_mem_map]
  intro field listed
  have named := (names_present fields).subset (List.mem_map_of_mem listed)
  have clean := escapeXml_clean field.2
  exact ⟨names _ named, fun inside => (clean _ inside).2.2 rfl,
    fun inside => (clean _ inside).1 rfl⟩

/-! ### Reading -/

/-- An entity is read as its mark. -/
theorem reads_markEscaped {space : Char → Char}
    (marks : space '&' = '&' ∧ space '<' = '<' ∧ space '>' = '>' ∧ space '"' = '"' ∧
      space '\'' = '\'') : Xml.Reads space markEscaped space := by
  have entity {mark : Char} (name : Chars) (open_ : ';' ∉ name)
      (known : referenced name = some mark) (valid : isChar mark = true)
      (kept : space mark = mark) (rest : Chars) :
      expandFrom space none ('&' :: (name ++ ';' :: rest)) =
        if isChar mark = true then (expandFrom space none rest).map (space mark :: ·)
        else none := by
    rw [kept]
    exact expandFrom_named name open_ known valid rest
  obtain ⟨amp, less, greater, quote, apos⟩ := marks
  refine mark_cases ⟨?_, ?_, ?_, ?_, ?_⟩ fun ch other rest => ?_
  · exact entity ['a', 'm', 'p'] (by decide) rfl rfl amp
  · exact entity ['l', 't'] (by decide) rfl rfl less
  · exact entity ['g', 't'] (by decide) rfl rfl greater
  · exact entity ['q', 'u', 'o', 't'] (by decide) rfl rfl quote
  · exact entity ['a', 'p', 'o', 's'] (by decide) rfl rfl apos
  · rw [markEscaped_of_ne other, List.singleton_append,
      expandFrom_cons (other ('&', "&amp;") (by decide))]

/-- An entity has no line break in it. -/
theorem markEscaped_plain (ch : Char) :
    markEscaped ch = [ch] ∨
      (markEscaped ch).all (fun written => written != '\n' && written != '\r') = true := by
  induction ch using mark_cases with
  | marks => decide
  | others ch other => exact .inl (markEscaped_of_ne other)

theorem keepsBreaks_markEscaped : KeepsBreaks markEscaped where
  breaks := rfl
  returns := rfl
  others := by
    intro ch noBreak noReturn
    refine ⟨markEscaped_ne_nil ch, ?_⟩
    rcases markEscaped_plain ch with same | plain
    · rw [same, List.forall_mem_singleton]
      exact ⟨noBreak, noReturn⟩
    · simpa using plain

theorem expandFrom_escapeXml {space : Char → Char} (reads : Xml.Reads space markEscaped space)
    (text : Chars) :
    expandFrom space none (normalizeBreaks (escapeXml text)) =
      if text.all isChar = true then some ((normalizeBreaks text).map space) else none := by
  have valid : (normalizeBreaks text).all isChar = text.all isChar :=
    all_isChar_breaksFrom text false
  rw [escapeXml_eq, keepsBreaks_markEscaped.normalizeBreaks_flatMap,
    expandFrom_flatMap reads, valid]

/-- The white space of an attribute is read as blanks. -/
theorem attributeValue_escapeXml (text : Chars) :
    attributeValue (escapeXml text) =
      if text.all isChar = true then some (inlined text) else none :=
  expandFrom_escapeXml (reads_markEscaped (by decide)) text

/-- A text between tags is read as it was, with its breaks normalised, if XML can hold it. -/
theorem characterData_escapeXml (text : Chars) :
    characterData (escapeXml text) =
      if text.all isChar = true then some (normalizeBreaks text) else none := by
  have reads : Xml.Reads id markEscaped id := reads_markEscaped (by decide)
  have read := expandFrom_escapeXml reads text
  rw [List.map_id] at read
  exact read

end Escape

end Formats
end MindMapVault
