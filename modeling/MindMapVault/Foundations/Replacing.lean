import Mathlib.Data.List.Infix
import MindMapVault.Foundations.Regex

/-!
# Replacing one text by another

`String.prototype.replaceAll` with a text for a pattern. Escapes that are written for single
characters are taken back by it, and what it does to the text around them stays the same. A
replacement that writes less than it takes changes nothing only if nothing matches.
-/

namespace Replacing

/-- Every occurrence of a pattern from the left, replaced. The pattern is not empty. -/
def replaceText (head : Char) (tail written : List Char) : List Char → List Char
  | [] => []
  | character :: text =>
      if (head :: tail).isPrefixOf (character :: text) then
        written ++ replaceText head tail written (text.drop tail.length)
      else character :: replaceText head tail written text
termination_by text => text.length
decreasing_by
  · rw [List.length_drop, List.length_cons]
    omega
  · exact Nat.lt_succ_self _

section Spec

variable {head character : Char} {tail written text front : List Char}

theorem replaceText_nil (head : Char) (tail written : List Char) :
    replaceText head tail written [] = [] := by rw [replaceText]

theorem replaceText_match (rest : List Char) :
    replaceText head tail written (head :: (tail ++ rest)) =
      written ++ replaceText head tail written rest := by
  have isPrefix : (head :: tail).isPrefixOf (head :: (tail ++ rest)) = true :=
    List.isPrefixOf_iff_prefix.mpr (List.prefix_append _ _)
  rw [replaceText, if_pos isPrefix, List.drop_left]

theorem replaceText_of_unlike (other : ¬(head :: tail) <+: character :: text) :
    replaceText head tail written (character :: text) =
      character :: replaceText head tail written text := by
  rw [replaceText, if_neg (List.isPrefixOf_iff_prefix.not.mpr other)]

theorem replaceText_of_ne (other : head ≠ character) :
    replaceText head tail written (character :: text) =
      character :: replaceText head tail written text :=
  replaceText_of_unlike fun isPrefix => other (List.cons_prefix_cons.mp isPrefix).1

/-- What does not begin a match is passed over. -/
theorem replaceText_append (absent : head ∉ front) (rest : List Char) :
    replaceText head tail written (front ++ rest) =
      front ++ replaceText head tail written rest := by
  induction front with
  | nil => rfl
  | cons character front ih =>
      obtain ⟨here, later⟩ := not_or.mp (List.mem_cons.not.mp absent)
      rw [List.cons_append, replaceText_of_ne here, ih later, List.cons_append]

/-- Texts that are replaced one by one, whatever comes after them. -/
theorem replaceText_flatMap {τ : Type} {tokens : List τ} {spell after : τ → List Char}
    (each : ∀ token ∈ tokens, ∀ rest, replaceText head tail written (spell token ++ rest) =
      after token ++ replaceText head tail written rest) :
    replaceText head tail written (tokens.flatMap spell) = tokens.flatMap after := by
  induction tokens with
  | nil => rw [List.flatMap_nil, List.flatMap_nil, replaceText]
  | cons token tokens ih =>
      obtain ⟨here, later⟩ := List.forall_mem_cons.mp each
      rw [List.flatMap_cons, List.flatMap_cons, here, ih later]

end Spec

section Escapes

variable {head : Char} {tail written : List Char} {escape : Char → List Char}

/-- Every character is written as it is, or as something that begins like the pattern and goes
on without its first character. -/
def Escapes (head : Char) (escape : Char → List Char) : Prop :=
  ∀ character, escape character = [character] ∨
    ∃ rest, escape character = head :: rest ∧ head ∉ rest

/-- A text that begins with no escape was there before. -/
theorem prefix_of_flatMap (escapes : Escapes head escape) : ∀ {found text : List Char},
    head ∉ found → found <+: text.flatMap escape → found <+: text
  | [], _, _, _ => List.nil_prefix
  | _ :: _, [], _, isPrefix => isPrefix
  | first :: found, character :: text, absent, isPrefix => by
      obtain ⟨other, others⟩ := not_or.mp (List.mem_cons.not.mp absent)
      rw [List.flatMap_cons] at isPrefix
      rcases escapes character with same | ⟨rest, same, -⟩
      · rw [same, List.singleton_append, List.cons_prefix_cons] at isPrefix
        rw [List.cons_prefix_cons]
        exact ⟨isPrefix.1, prefix_of_flatMap escapes others isPrefix.2⟩
      · rw [same, List.cons_append, List.cons_prefix_cons] at isPrefix
        exact absurd isPrefix.1.symm other

/-- A pattern that none of the escapes is part of begins where it began before. -/
theorem prefix_flatMap_iff (escapes : Escapes head escape) (once : head ∉ tail)
    {character : Char} {text : List Char} (kept : escape character = [character]) :
    (head :: tail) <+: (character :: text).flatMap escape →
      (head :: tail) <+: character :: text := by
  rw [List.flatMap_cons, kept, List.singleton_append, List.cons_prefix_cons, List.cons_prefix_cons]
  exact fun both => ⟨both.1, prefix_of_flatMap escapes once both.2⟩

theorem flatMap_of_kept {text : List Char}
    (kept : ∀ character ∈ text, escape character = [character]) : text.flatMap escape = text := by
  rw [List.flatMap_congr kept, List.flatMap_singleton']

/-- An escape is taken back: the text is read as it would be without the escapes. -/
theorem replaceText_escape {character : Char} (escapes : Escapes head escape)
    (once : head ∉ tail) (escaped : escape character = head :: tail)
    (others : ∀ other, other ≠ character → escape other = [other])
    (absent : character ∉ head :: tail) (text : List Char) :
    replaceText head tail [character] (text.flatMap escape) =
      replaceText head tail [character] text := by
  induction text using replaceText.induct head tail with
  | case1 => rfl
  | case2 first text isPrefix ih =>
      obtain ⟨rest, same⟩ := List.isPrefixOf_iff_prefix.mp isPrefix
      obtain ⟨rfl, rfl⟩ := List.cons.inj same
      have kept : (head :: tail).flatMap escape = head :: tail :=
        flatMap_of_kept fun other listed => others other fun same => absent (same ▸ listed)
      rw [List.append_eq, List.drop_left] at ih
      rw [List.append_eq, replaceText_match, ← List.cons_append, List.flatMap_append, kept,
        List.cons_append, replaceText_match, ih]
  | case3 first text isPrefix ih =>
      have here := List.isPrefixOf_iff_prefix.not.mp isPrefix
      rw [replaceText_of_unlike here]
      by_cases same : first = character
      · rw [same, List.flatMap_cons, escaped, List.cons_append, replaceText_match,
          ih, List.singleton_append]
      · have kept := others first same
        have stays := mt (prefix_flatMap_iff escapes once kept) here
        rw [List.flatMap_cons, kept, List.singleton_append] at stays ⊢
        rw [replaceText_of_unlike stays, ih]

/-- Other escapes stay where they are. -/
theorem replaceText_keeps_escape (escapes : Escapes head escape) (once : head ∉ tail)
    (foreign : ∀ character, escape character ≠ [character] → character ∉ head :: tail ∧
      ∀ rest, escape character = head :: rest → ∀ more, ¬tail <+: rest ++ more)
    (fixed : written.flatMap escape = written) (text : List Char) :
    replaceText head tail written (text.flatMap escape) =
      (replaceText head tail written text).flatMap escape := by
  induction text using replaceText.induct head tail with
  | case1 => rw [List.flatMap_nil, replaceText, List.flatMap_nil]
  | case2 first text isPrefix ih =>
      obtain ⟨rest, same⟩ := List.isPrefixOf_iff_prefix.mp isPrefix
      obtain ⟨rfl, rfl⟩ := List.cons.inj same
      have kept : (head :: tail).flatMap escape = head :: tail := by
        apply flatMap_of_kept
        intro character listed
        by_contra changed
        exact (foreign character changed).1 listed
      rw [List.append_eq, List.drop_left] at ih
      rw [List.append_eq, replaceText_match, ← List.cons_append, List.flatMap_append, kept,
        List.cons_append, replaceText_match, ih, List.flatMap_append, fixed]
  | case3 first text isPrefix ih =>
      have here := List.isPrefixOf_iff_prefix.not.mp isPrefix
      rw [replaceText_of_unlike here]
      by_cases kept : escape first = [first]
      · have stays := mt (prefix_flatMap_iff escapes once kept) here
        rw [List.flatMap_cons, kept, List.singleton_append] at stays ⊢
        rw [replaceText_of_unlike stays, ih, List.flatMap_cons, kept, List.singleton_append]
      · obtain ⟨rest, same, without⟩ := (escapes first).resolve_left kept
        have stays : ¬(head :: tail) <+: head :: (rest ++ text.flatMap escape) := by
          rw [List.cons_prefix_cons]
          exact fun both => (foreign first kept).2 rest same _ both.2
        rw [List.flatMap_cons, same, List.cons_append, replaceText_of_unlike stays,
          replaceText_append without, ih, List.flatMap_cons, same,
          List.cons_append]

end Escapes

section Literals

open Regex

/-- Where a text matches, word for word. -/
theorem steps_all_char (head : Char) (tail : List Char) (atStart : Bool) (text : List Char)
    (groups : Groups) :
    (all ((head :: tail).map char)).steps atStart text groups =
      if (head :: tail).isPrefixOf text then
        [⟨head :: tail, text.drop (tail.length + 1), groups⟩]
      else [] := by
  induction tail generalizing head atStart text with
  | nil =>
      rw [List.map_singleton, all, char]
      cases text with
      | nil => rfl
      | cons character text =>
          rw [steps_one_cons]
          have same : ([head].isPrefixOf (character :: text)) = (character == head) := by
            rw [List.isPrefixOf, List.isPrefixOf, Bool.and_true, Bool.beq_comm]
          rw [same]
          by_cases found : character = head
          · rw [found]
            rfl
          · rw [beq_eq_false_iff_ne.mpr found]
            rfl
  | cons next tail ih =>
      have shape : all ((head :: next :: tail).map char) =
          .seq (char head) (all ((next :: tail).map char)) := rfl
      rw [shape, steps, char]
      cases text with
      | nil => rfl
      | cons character text =>
          rw [steps_one_cons]
          have same : ((head :: next :: tail).isPrefixOf (character :: text)) =
              ((character == head) && (next :: tail).isPrefixOf text) := by
            rw [List.isPrefixOf, Bool.beq_comm]
          rw [same]
          by_cases found : character = head
          · rw [found, beq_self_eq_true, if_pos rfl, List.flatMap_singleton,
              ih, Bool.true_and]
            split_ifs
            · rfl
            · rfl
          · rw [beq_eq_false_iff_ne.mpr found]
            rfl

/-- A text is replaced as a pattern is that matches it word for word. -/
theorem replaceFrom_literal (head : Char) (tail written : List Char) :
    ∀ (text : List Char) (atStart : Bool) (left : Nat),
      replaceFrom (all ((head :: tail).map char)) (fun _ => written) atStart left text =
        replaceText head tail written (text.drop left)
  | [], atStart, 0 => by
      rw [replaceFrom, steps_all_char, List.drop_zero, replaceText_nil]
      rfl
  | [], atStart, left + 1 => by rw [replaceFrom, List.drop_nil, replaceText_nil]
  | character :: text, atStart, left + 1 => by
      rw [replaceFrom, replaceFrom_literal head tail written text, List.drop_succ_cons]
  | character :: text, atStart, 0 => by
      rw [replaceFrom, steps_all_char, List.drop_zero, replaceText]
      by_cases isPrefix : (head :: tail).isPrefixOf (character :: text) = true
      · rw [if_pos isPrefix, if_pos isPrefix, List.head?_cons]
        simp only [List.length_cons]
        rw [replaceFrom_literal head tail written text]
      · rw [if_neg isPrefix, if_neg isPrefix, List.head?_nil]
        simp only
        rw [replaceFrom_literal head tail written text, List.drop_zero]

theorem replaceAll_literal {pattern : String} {head : Char} {tail : List Char}
    (shape : pattern.toList = head :: tail) (written text : List Char) :
    replaceAll (literal pattern) (fun _ => written) text = replaceText head tail written text := by
  rw [replaceAll, literal, shape, replaceFrom_literal, List.drop_zero]

theorem steps_literal {pattern : String} {head : Char} {tail : List Char}
    (shape : pattern.toList = head :: tail) (atStart : Bool) (text : List Char) (groups : Groups) :
    (literal pattern).steps atStart text groups =
      if pattern.toList.isPrefixOf text then
        [⟨pattern.toList, text.drop pattern.toList.length, groups⟩]
      else [] := by
  rw [literal, shape]
  exact steps_all_char head tail atStart text groups

end Literals

section Tokens

open Regex

variable {regex : Regex} {write : Groups → List Char} {front rest : List Char}

/-- What is left of a match is passed over. -/
theorem replaceFrom_left : ∀ front : List Char,
    replaceFrom regex write false front.length (front ++ rest) =
      replaceFrom regex write false 0 rest
  | [] => rfl
  | character :: front => by
      rw [List.cons_append, List.length_cons, replaceFrom, replaceFrom_left front]

/-- A match is replaced, and what comes after it is replaced on its own. -/
theorem replaceFrom_of_head {atStart : Bool} {first : Char} {others : List Char} {step : Step}
    (head : (regex.steps atStart (first :: others ++ rest) []).head? = some step)
    (taken : step.taken = first :: others) :
    replaceFrom regex write atStart 0 (first :: others ++ rest) =
      write step.groups ++ replaceFrom regex write false 0 rest := by
  rw [List.cons_append] at head ⊢
  rw [replaceFrom, head]
  simp only [taken, List.length_cons, replaceFrom_left]

/-- Characters at which nothing matches are passed over. -/
theorem replaceFrom_append {ok : Char → Bool} (leads : regex.Leads ok)
    (unlike : ∀ character ∈ front, ok character = false) (nonempty : front ≠ []) (atStart : Bool) :
    replaceFrom regex write atStart 0 (front ++ rest) =
      front ++ replaceFrom regex write false 0 rest := by
  induction front generalizing atStart with
  | nil => exact absurd rfl nonempty
  | cons character front ih =>
      obtain ⟨here, later⟩ := List.forall_mem_cons.mp unlike
      have fails : (regex.steps atStart (character :: (front ++ rest)) []).head? = none := by
        rw [List.head?_eq_none_iff]
        refine List.eq_nil_iff_forall_not_mem.mpr fun step listed => ?_
        obtain ⟨first, others, shape, matched⟩ := leads _ _ _ step listed
        have same := steps_append listed
        rw [shape, List.cons_append] at same
        rw [(List.cons.inj same).1, here] at matched
        exact Bool.noConfusion matched
      rw [List.cons_append, replaceFrom, fails]
      cases front with
      | nil => rfl
      | cons next front => exact congrArg _ (ih later (List.cons_ne_nil _ _) false)

/-- A character at which nothing matches is passed over. -/
theorem replaceFrom_of_fails {atStart : Bool} {character : Char}
    (fails : (regex.steps atStart (character :: rest) []).head? = none) :
    replaceFrom regex write atStart 0 (character :: rest) =
      character :: replaceFrom regex write false 0 rest := by
  rw [replaceFrom, fails]

/-- What is reached from anywhere is replaced, and what comes after it is replaced on its own. -/
theorem replaceFrom_of_reaches {first : Char} {others : List Char} {groups : Groups}
    (reaches : regex.Reaches (first :: others ++ rest) [] rest groups) (atStart : Bool) :
    replaceFrom regex write atStart 0 (first :: others ++ rest) =
      write groups ++ replaceFrom regex write false 0 rest := by
  obtain ⟨taken, head⟩ := reaches atStart
  have same : taken ++ rest = first :: others ++ rest := steps_append (List.mem_of_mem_head? head)
  exact replaceFrom_of_head head (List.append_cancel_right same)

/-- A mark at which nothing matches, and what follows it. -/
theorem replaceFrom_of_mark {ok : Char → Bool} (leads : regex.Leads ok) {mark : Char}
    (fails : ∀ atStart, (regex.steps atStart (mark :: (front ++ rest)) []).head? = none)
    (unlike : ∀ character ∈ front, ok character = false) (atStart : Bool) :
    replaceFrom regex write atStart 0 (mark :: front ++ rest) =
      mark :: front ++ replaceFrom regex write false 0 rest := by
  rw [List.cons_append, List.cons_append, replaceFrom_of_fails (fails atStart)]
  cases front with
  | nil => rfl
  | cons character front => rw [replaceFrom_append leads unlike (List.cons_ne_nil _ _)]

/-- Texts that are replaced one by one, whatever comes after them. -/
theorem replaceAll_flatMap {τ : Type} {tokens : List τ} {spell after : τ → List Char}
    (ends : ∀ atStart, (regex.steps atStart [] []).head? = none)
    (each : ∀ token ∈ tokens, ∀ atStart rest,
      replaceFrom regex write atStart 0 (spell token ++ rest) =
        after token ++ replaceFrom regex write false 0 rest) :
    replaceAll regex write (tokens.flatMap spell) = tokens.flatMap after := by
  have fromAny (atStart : Bool) : replaceFrom regex write atStart 0 (tokens.flatMap spell) =
      tokens.flatMap after := by
    induction tokens generalizing atStart with
    | nil =>
        rw [List.flatMap_nil, List.flatMap_nil, replaceFrom, ends]
    | cons token tokens ih =>
        obtain ⟨here, later⟩ := List.forall_mem_cons.mp each
        rw [List.flatMap_cons, List.flatMap_cons, here, ih later]
  exact fromAny true

/-- A match further on is found. -/
theorem find?_append_ne_none (front : List Char)
    (found : ∀ atStart, find? regex atStart rest ≠ none) (atStart : Bool) :
    find? regex atStart (front ++ rest) ≠ none := by
  induction front generalizing atStart with
  | nil => exact found atStart
  | cons character front ih =>
      intro absent
      exact ih false (find?_cons_eq_none.mp absent).2

theorem find?_ne_none_of_head {text : List Char} {atStart : Bool} {step : Step}
    (head : (regex.steps atStart text []).head? = some step) :
    find? regex atStart text ≠ none := by
  cases text with
  | nil =>
      rw [find?, head]
      exact Option.some_ne_none _
  | cons character text =>
      intro absent
      have none := (find?_cons_eq_none.mp absent).1
      rw [head] at none
      exact Option.some_ne_none _ none

end Tokens

section Stages

open Regex

/-- One replacement after the other. -/
def replaceEach (stages : List (Regex × (Groups → List Char))) (text : List Char) : List Char :=
  stages.foldl (fun text stage => replaceAll stage.1 stage.2 text) text

variable {stages : List (Regex × (Groups → List Char))} {weigh : Char → Bool} {text : List Char}

theorem replaceEach_cons (stage : Regex × (Groups → List Char)) (text : List Char) :
    replaceEach (stage :: stages) text = replaceEach stages (replaceAll stage.1 stage.2 text) :=
  rfl

theorem countP_replaceEach_le (each : ∀ stage ∈ stages, stage.1.Lightens stage.2 weigh)
    (text : List Char) : (replaceEach stages text).countP weigh ≤ text.countP weigh := by
  induction stages generalizing text with
  | nil => exact le_refl _
  | cons stage stages ih =>
      obtain ⟨first, others⟩ := List.forall_mem_cons.mp each
      rw [replaceEach_cons]
      exact (ih others _).trans (countP_replaceAll_le first text)

theorem replaceEach_of_find? (absent : ∀ stage ∈ stages, find? stage.1 true text = none) :
    replaceEach stages text = text := by
  induction stages with
  | nil => rfl
  | cons stage stages ih =>
      obtain ⟨first, others⟩ := List.forall_mem_cons.mp absent
      rw [replaceEach_cons, replaceAll_of_find? first, ih others]

/-- Replacements that leave all of a class find nothing. -/
theorem find?_of_countP_replaceEach (each : ∀ stage ∈ stages, stage.1.Lightens stage.2 weigh)
    (all : text.countP weigh ≤ (replaceEach stages text).countP weigh) :
    ∀ stage ∈ stages, find? stage.1 true text = none := by
  induction stages with
  | nil => exact List.forall_mem_nil _
  | cons stage stages ih =>
      obtain ⟨first, others⟩ := List.forall_mem_cons.mp each
      rw [replaceEach_cons] at all
      have here : find? stage.1 true text = none :=
        find?_of_countP_replaceAll first (all.trans (countP_replaceEach_le others _))
      rw [replaceAll_of_find? here] at all
      exact List.forall_mem_cons.mpr ⟨here, ih others all⟩

end Stages

section Patterns

open Regex

/-- A literal is found where it is part of a text. -/
theorem find?_literal {pattern : String} {head : Char} {tail : List Char}
    (shape : pattern.toList = head :: tail) (text : List Char) :
    find? (literal pattern) true text = none ↔ ¬pattern.toList <:+: text := by
  constructor
  · rintro absent ⟨front, back, rfl⟩
    rw [List.append_assoc] at absent
    refine find?_append_ne_none front (fun atStart => ?_) true absent
    have isPrefix : pattern.toList.isPrefixOf (pattern.toList ++ back) = true :=
      List.isPrefixOf_iff_prefix.mpr (List.prefix_append _ _)
    apply find?_ne_none_of_head
    rw [steps_literal shape, if_pos isPrefix]
    rfl
  · intro absent
    cases isFound : find? (literal pattern) true text with
    | none => rfl
    | some found =>
        obtain ⟨⟨atStart, suffix, listed⟩, split⟩ := find?_spec isFound
        rw [steps_literal shape] at listed
        split_ifs at listed with isPrefix
        · rw [List.mem_singleton.mp listed] at split
          exact absurd ⟨found.1, _, by rw [List.append_assoc]; exact split.symm⟩ absent
        · exact absurd listed List.not_mem_nil

/-- A mark, characters of a class, and a semicolon. -/
def reference (mark : String) (ok : Char → Bool) : Regex :=
  .all [literal mark, capture 1 (many1 ok), char ';']

/-- What a reference is in a text. -/
def IsReference (mark : String) (ok : Char → Bool) (digits taken : List Char) : Prop :=
  digits ≠ [] ∧ digits.all ok = true ∧ taken = mark.toList ++ (digits ++ [';'])

variable {mark : String} {ok : Char → Bool} {head : Char} {tail : List Char}

/-- Every match of a reference takes one, and the group has its digits. -/
theorem reference_spec (shape : mark.toList = head :: tail) {atStart : Bool} {text : List Char}
    {groups : Groups} {step : Step}
    (listed : step ∈ (reference mark ok).steps atStart text groups) :
    ∃ digits, IsReference mark ok digits step.taken ∧ step.groups = (1, digits) :: groups := by
  obtain ⟨marked, inMark, more⟩ := List.mem_flatMap.mp listed
  obtain ⟨later, inLater, rfl⟩ := List.mem_map.mp more
  rw [steps_literal shape] at inMark
  split_ifs at inMark
  · rw [List.mem_singleton.mp inMark] at inLater ⊢
    obtain ⟨captured, inCapture, most⟩ := List.mem_flatMap.mp inLater
    obtain ⟨closed, inClosed, rfl⟩ := List.mem_map.mp most
    obtain ⟨run, inRun, rfl⟩ := List.mem_map.mp inCapture
    obtain ⟨-, each, long⟩ := run_spec inRun
    have keeps := keeps_run ok 1 none true _ _ _ _ inRun
    have nonempty : run.taken ≠ [] := List.length_pos_iff.mp long
    dsimp only at inClosed ⊢
    cases after : run.rest with
    | nil =>
        rw [after, all, char, steps_one_nil] at inClosed
        exact absurd inClosed List.not_mem_nil
    | cons character rest =>
        rw [after, all, char, steps_one_cons] at inClosed
        split_ifs at inClosed with isEnd
        · rw [List.mem_singleton.mp inClosed, keeps]
          exact ⟨run.taken, ⟨nonempty, each, by rw [eq_of_beq isEnd]⟩, rfl⟩
        · exact absurd inClosed List.not_mem_nil
  · exact absurd inMark List.not_mem_nil

/-- A reference is found where there is one in a text. -/
theorem find?_reference (shape : mark.toList = head :: tail) (noEnd : ok ';' = false)
    (text : List Char) :
    find? (reference mark ok) true text = none ↔
      ¬∃ digits taken, IsReference mark ok digits taken ∧ taken <:+: text := by
  constructor
  · rintro absent ⟨digits, taken, ⟨nonempty, each, rfl⟩, ⟨front, back, rfl⟩⟩
    rw [List.append_assoc] at absent
    refine find?_append_ne_none front (fun atStart => ?_) true absent
    have marked : (literal mark).Reaches (mark.toList ++ (digits ++ ';' :: back)) []
        (digits ++ ';' :: back) [] := by
      intro atStart
      refine ⟨mark.toList, ?_⟩
      have isPrefix : mark.toList.isPrefixOf (mark.toList ++ (digits ++ ';' :: back)) = true :=
        List.isPrefixOf_iff_prefix.mpr (List.prefix_append _ _)
      rw [steps_literal shape, if_pos isPrefix, List.drop_left]
      rfl
    have numbered : (capture 1 (many1 ok)).Reaches (digits ++ ';' :: back) [] (';' :: back)
        [(1, digits)] := by
      apply Reaches.capture
      apply reaches_run each
      · intro _ character isHead
        rw [← Option.mem_some.mp isHead]
        exact noEnd
      · exact List.length_pos_iff.mpr nonempty
      · intro bound isBound
        exact absurd isBound (Option.not_mem_none bound)
    obtain ⟨taken, reached⟩ := (marked.seq (numbered.seq (reaches_char ';'))) atStart
    have whole : mark.toList ++ (digits ++ [';']) ++ back =
        mark.toList ++ (digits ++ ';' :: back) := by
      simp only [List.append_assoc, List.singleton_append]
    rw [whole]
    exact find?_ne_none_of_head reached
  · intro absent
    cases isFound : find? (reference mark ok) true text with
    | none => rfl
    | some found =>
        obtain ⟨⟨atStart, suffix, listed⟩, split⟩ := find?_spec isFound
        obtain ⟨digits, isReference, -⟩ := reference_spec shape listed
        refine absurd ⟨digits, _, isReference, found.1, found.2.rest, ?_⟩ absent
        rw [List.append_assoc]
        exact split.symm

end Patterns

end Replacing
