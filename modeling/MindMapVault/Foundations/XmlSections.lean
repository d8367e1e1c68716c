import MindMapVault.Foundations.Replacing
import MindMapVault.Foundations.XmlText

/-!
# Texts in sections

A section cannot hold its own end. A text is cut within every end, and the sections of the
pieces are read as the text, but for its line breaks.
-/

namespace Xml

/-- The first piece of a text that is cut within every end of a section, and the other pieces. -/
def cut : List Char → List Char × List (List Char)
  | [] => ([], [])
  | char :: text =>
      if sectionEnd.isPrefixOf (char :: text) then
        let rest := cut (text.drop 2)
        ([']', ']'], ('>' :: rest.1) :: rest.2)
      else
        let rest := cut text
        (char :: rest.1, rest.2)
termination_by text => text.length
decreasing_by
  · rw [List.length_drop, List.length_cons]
    omega
  · exact Nat.lt_succ_self _

/-- The pieces of a text. -/
def sections (text : List Char) : List (List Char) := (cut text).1 :: (cut text).2

section Cut

theorem cut_nil : cut [] = ([], []) := by rw [cut]

theorem cut_end (rest : List Char) :
    cut (sectionEnd ++ rest) = ([']', ']'], ('>' :: (cut rest).1) :: (cut rest).2) := by
  have ends : sectionEnd.isPrefixOf (']' :: (']' :: '>' :: rest)) = true :=
    List.isPrefixOf_iff_prefix.mpr ⟨rest, rfl⟩
  change cut (']' :: (']' :: '>' :: rest)) = _
  rw [cut, if_pos ends]
  rfl

theorem cut_of_unlike {char : Char} {text : List Char} (other : ¬sectionEnd <+: char :: text) :
    cut (char :: text) = (char :: (cut text).1, (cut text).2) := by
  rw [cut, if_neg (List.isPrefixOf_iff_prefix.not.mpr other)]

/-- Induction over a text that is cut within every end. -/
theorem cut_induction {holds : List Char → Prop} (nil : holds [])
    (ends : ∀ rest, holds rest → holds (sectionEnd ++ rest))
    (other : ∀ char text, ¬sectionEnd <+: char :: text → holds text →
      holds (char :: text)) : ∀ text, holds text
  | [] => nil
  | char :: text => by
      by_cases isEnd : sectionEnd <+: char :: text
      · obtain ⟨rest, split⟩ := isEnd
        have shorter : rest.length < text.length + 1 := by
          have sizes := congrArg List.length split
          rw [List.length_append, List.length_cons] at sizes
          have three : sectionEnd.length = 3 := rfl
          omega
        rw [← split]
        exact ends rest (cut_induction nil ends other rest)
      · exact other char text isEnd (cut_induction nil ends other text)
termination_by text => text.length

/-- The first piece is a beginning of the text. -/
theorem cut_prefix (text : List Char) : (cut text).1 <+: text := by
  induction text using cut_induction with
  | nil =>
      rw [cut_nil]
  | ends rest ih =>
      rw [cut_end]
      exact ⟨'>' :: rest, rfl⟩
  | other char text unlike ih =>
      rw [cut_of_unlike unlike]
      exact List.cons_prefix_cons.mpr ⟨rfl, ih⟩

/-- No piece has an end of a section in it. -/
theorem noEnd_sections (text : List Char) : ∀ piece ∈ sections text, Markup.NoEnd piece := by
  -- an end begins with a bracket, and what follows the bracket is a piece without its mark
  have marked {piece : List Char} (noEnd : Markup.NoEnd piece) (char : Char)
      (unlike : ¬sectionEnd <+: char :: piece) : Markup.NoEnd (char :: piece) := by
    intro inside
    rcases List.infix_cons_iff.mp inside with atStart | later
    · exact unlike atStart
    · exact noEnd later
  induction text using cut_induction with
  | nil =>
      rw [sections, cut_nil, List.forall_mem_singleton, Markup.NoEnd]
      decide
  | ends rest ih =>
      rw [sections, List.forall_mem_cons] at ih
      have first : Markup.NoEnd ([']', ']'] : List Char) := by
        rw [Markup.NoEnd]
        decide
      rw [sections, cut_end, List.forall_mem_cons, List.forall_mem_cons]
      refine ⟨first, marked ih.1 '>' fun atStart => ?_, ih.2⟩
      exact absurd (List.cons_prefix_cons.mp atStart).1 (by decide)
  | other char text unlike ih =>
      rw [sections, List.forall_mem_cons] at ih
      rw [sections, cut_of_unlike unlike, List.forall_mem_cons]
      refine ⟨marked ih.1 char fun atStart => unlike ?_, ih.2⟩
      exact atStart.trans (List.cons_prefix_cons.mpr ⟨rfl, cut_prefix text⟩)

/-- The text is what the pieces are together. -/
theorem flatten_sections (text : List Char) : (sections text).flatten = text := by
  rw [sections, List.flatten_cons]
  induction text using cut_induction with
  | nil =>
      rw [cut_nil]
      rfl
  | ends rest ih =>
      rw [cut_end, List.flatten_cons]
      exact congrArg (sectionEnd ++ ·) ih
  | other char text unlike ih =>
      rw [cut_of_unlike unlike, List.cons_append, ih]

/-- Line breaks are read piece by piece, since no piece but the last ends with one. -/
theorem breaksFrom_cut (text : List Char) (afterReturn : Bool) :
    breaksFrom afterReturn text =
      breaksFrom afterReturn (cut text).1 ++ (cut text).2.flatMap normalizeBreaks := by
  induction text using cut_induction generalizing afterReturn with
  | nil =>
      rw [cut_nil]
      rfl
  | ends rest ih =>
      rw [cut_end, List.flatMap_cons, normalizeBreaks, sectionEnd]
      simp [breaksFrom, ih false]
  | other char text unlike ih =>
      rw [cut_of_unlike unlike, breaksFrom, breaksFrom]
      split_ifs
      · exact ih false
      · rw [ih, List.cons_append]
      · rw [ih, List.cons_append]

theorem flatMap_normalizeBreaks_sections (text : List Char) :
    (sections text).flatMap normalizeBreaks = normalizeBreaks text := by
  rw [sections, List.flatMap_cons, normalizeBreaks, normalizeBreaks, breaksFrom_cut text]

/-- Where the end of a section stands, a section ends and another one begins. -/
theorem flatMap_cdataText_sections (text : List Char) :
    (sections text).flatMap cdataText =
      sectionStart ++ (Replacing.replaceText ']' [']', '>']
        (']' :: ']' :: (sectionEnd ++ (sectionStart ++ ['>']))) text ++ sectionEnd) := by
  have between (text : List Char) : Replacing.replaceText ']' [']', '>']
      (']' :: ']' :: (sectionEnd ++ (sectionStart ++ ['>']))) text ++ sectionEnd =
        (cut text).1 ++ (sectionEnd ++ (cut text).2.flatMap cdataText) := by
    induction text using cut_induction with
    | nil =>
        rw [cut_nil, Replacing.replaceText_nil]
        rfl
    | ends rest ih =>
        have found : Replacing.replaceText ']' [']', '>']
            (']' :: ']' :: (sectionEnd ++ (sectionStart ++ ['>']))) (sectionEnd ++ rest) = _ :=
          Replacing.replaceText_match rest
        rw [cut_end, found, List.append_assoc, ih, List.flatMap_cons]
        simp [cdataText]
    | other char text unlike ih =>
        rw [cut_of_unlike unlike, Replacing.replaceText_of_unlike unlike, List.cons_append, ih]
        rfl
  rw [sections, List.flatMap_cons, between, cdataText]
  simp [List.append_assoc]

end Cut

end Xml
