import Mathlib.Data.List.Infix
import MindMapVault.Foundations.Splitting
import MindMapVault.Formats.FreemindExport

/-!
# Notes and their paragraphs

The paragraphs of notes are what stands between blank lines. With one line break after each,
as their HTML is read, nothing is lost but the blank lines.
-/

namespace MindMapVault
namespace Formats

open Regex

/-- There is no blank line in a text. -/
def NoBlankLine (text : Chars) : Prop := ¬['\n', '\n'] <:+: text

instance (text : Chars) : Decidable (NoBlankLine text) := inferInstanceAs (Decidable (¬_))

/-- The paragraphs with a line break after each. -/
def rejoined (text : Chars) : Chars := (Regex.split blankLines text).flatMap (· ++ ['\n'])

theorem noBlankLine_cons {char : Char} {text : Chars} :
    NoBlankLine (char :: text) ↔ (char = '\n' → text.head? ≠ some '\n') ∧ NoBlankLine text := by
  rw [NoBlankLine, List.infix_cons_iff, not_or, List.cons_prefix_cons,
    List.singleton_prefix_iff_head?_eq_some, not_and, eq_comm, NoBlankLine]

/-- Where no run of line breaks begins, there is no blank line. -/
theorem head?_ne_of_short {char : Char} {text : Chars}
    (short : ((char :: text).takeWhile (· == '\n')).length < 2) :
    char = '\n' → text.head? ≠ some '\n' := by
  rintro rfl isBreak
  obtain ⟨rest, rfl⟩ := List.head?_eq_some_iff.mp isBreak
  rw [List.takeWhile_cons_of_pos rfl, List.takeWhile_cons_of_pos rfl, List.length_cons,
    List.length_cons] at short
  omega

section Rejoined

variable {taken rest text : Chars} {char : Char}

theorem split_blankLines_short (short : ((char :: text).takeWhile (· == '\n')).length < 2) :
    Regex.split blankLines (char :: text) =
      (Regex.split blankLines text).modifyHead (char :: ·) := by
  rw [blankLines, split_run_cons (Nat.succ_pos 1), if_neg (Nat.not_le.mpr short)]

theorem rejoined_nil : rejoined [] = ['\n'] := by
  rw [rejoined, split_nil, List.flatMap_singleton, List.nil_append]

theorem rejoined_append (each : taken.all (· == '\n') = true) (enough : 2 ≤ taken.length)
    (stops : ∀ char ∈ rest.head?, (char == '\n') = false) :
    rejoined (taken ++ rest) = '\n' :: rejoined rest := by
  rw [rejoined, blankLines, split_run_append (Nat.succ_pos 1) each enough stops,
    List.flatMap_cons, List.nil_append, List.singleton_append]
  rfl

theorem rejoined_cons (short : ((char :: text).takeWhile (· == '\n')).length < 2) :
    rejoined (char :: text) = char :: rejoined text := by
  rw [rejoined, rejoined, split_blankLines_short short]
  cases pieces : Regex.split blankLines text with
  | nil => exact absurd pieces (split_run_ne_nil (Nat.succ_pos 1) text)
  | cons piece pieces => rfl

/-- A run of line breaks that is followed by something. -/
theorem rest_of_last (each : taken.all (· == '\n') = true) (enough : 2 ≤ taken.length)
    (last : (taken ++ rest).getLast? ≠ some '\n') :
    rest ≠ [] ∧ rest.getLast? ≠ some '\n' := by
  have nonempty : rest ≠ [] := by
    rintro rfl
    rw [List.append_nil] at last
    cases same : taken.getLast? with
    | none =>
        rw [List.getLast?_eq_none_iff.mp same] at enough
        exact absurd enough (by decide)
    | some char =>
        have isBreak := List.all_eq_true.mp each char (List.mem_of_getLast? same)
        exact last (same.trans (congrArg some (beq_iff_eq.mp isBreak)))
  refine ⟨nonempty, ?_⟩
  rwa [List.getLast?_append_of_ne_nil _ nonempty] at last

/-- Only line breaks are left out or put in. -/
theorem countP_rejoined {weigh : Char → Bool} (weightless : weigh '\n' = false) (text : Chars) :
    (rejoined text).countP weigh = text.countP weigh := by
  induction text using run_induction (· == '\n') (Nat.succ_pos 1) with
  | nil =>
      rw [rejoined_nil, List.countP_singleton, weightless]
      rfl
  | run taken rest each enough stops ih =>
      have light : taken.countP weigh = 0 :=
        List.countP_eq_zero.mpr fun char listed => by
          rw [beq_iff_eq.mp (List.all_eq_true.mp each char listed), weightless]
          exact Bool.false_ne_true
      rw [rejoined_append each enough stops, List.countP_append, light, Nat.zero_add, ← ih]
      exact List.countP_cons_of_neg (by rw [weightless]; exact Bool.false_ne_true)
  | cons char text short ih =>
      rw [rejoined_cons short, List.countP_cons, List.countP_cons, ih]

/-- What all characters and line breaks have in common. -/
theorem forall_mem_rejoined {holds : Char → Prop} (lineBreak : holds '\n')
    (each : ∀ char ∈ text, holds char) : ∀ char ∈ rejoined text, holds char := by
  induction text using run_induction (· == '\n') (Nat.succ_pos 1) with
  | nil =>
      rw [rejoined_nil, List.forall_mem_singleton]
      exact lineBreak
  | run taken rest runs enough stops ih =>
      rw [rejoined_append runs enough stops, List.forall_mem_cons]
      exact ⟨lineBreak, ih (List.forall_mem_append.mp each).2⟩
  | cons char text short ih =>
      obtain ⟨here, later⟩ := List.forall_mem_cons.mp each
      rw [rejoined_cons short, List.forall_mem_cons]
      exact ⟨here, ih later⟩

theorem head?_rejoined (nonempty : text ≠ []) : (rejoined text).head? = text.head? := by
  induction text using run_induction (· == '\n') (Nat.succ_pos 1) with
  | nil => exact absurd rfl nonempty
  | run taken rest each enough stops ih =>
      rw [rejoined_append each enough stops]
      cases taken with
      | nil => exact absurd enough (by decide)
      | cons char taken =>
          rw [List.all_cons, Bool.and_eq_true, beq_iff_eq] at each
          rw [each.1]
          rfl
  | cons char text short ih =>
      rw [rejoined_cons short]
      rfl

/-- No blank line is left. -/
theorem noBlankLine_rejoined (nonempty : text ≠ []) (last : text.getLast? ≠ some '\n') :
    NoBlankLine (rejoined text) := by
  induction text using run_induction (· == '\n') (Nat.succ_pos 1) with
  | nil => exact absurd rfl nonempty
  | run taken rest each enough stops ih =>
      obtain ⟨some, later⟩ := rest_of_last each enough last
      rw [rejoined_append each enough stops, noBlankLine_cons, head?_rejoined some]
      refine ⟨fun _ isBreak => ?_, ih some later⟩
      exact absurd (stops _ isBreak) (by decide)
  | cons char text short ih =>
      rw [rejoined_cons short, noBlankLine_cons]
      cases text with
      | nil =>
          rw [rejoined_nil]
          refine ⟨fun same => absurd (congrArg some same) last, by decide⟩
      | cons next text =>
          rw [List.getLast?_cons_cons] at last
          rw [head?_rejoined (List.cons_ne_nil _ _)]
          exact ⟨head?_ne_of_short short, ih (List.cons_ne_nil _ _) last⟩

/-- A text without blank lines is one paragraph. -/
theorem split_of_noBlankLine (noBlank : NoBlankLine text) :
    Regex.split blankLines text = [text] := by
  induction text using run_induction (· == '\n') (Nat.succ_pos 1) with
  | nil => exact split_nil _
  | run taken rest each enough stops ih =>
      refine absurd ?_ noBlank
      cases taken with
      | nil => exact absurd enough (by decide)
      | cons first taken =>
          cases taken with
          | nil => exact absurd enough (Nat.not_succ_le_self 1)
          | cons second taken =>
              simp only [List.all_cons, Bool.and_eq_true, beq_iff_eq] at each
              rw [each.1, each.2.1]
              exact ⟨[], taken ++ rest, rfl⟩
  | cons char text short ih =>
      rw [split_blankLines_short short, ih (noBlankLine_cons.mp noBlank).2]
      rfl

theorem rejoined_of_noBlankLine (noBlank : NoBlankLine text) : rejoined text = text ++ ['\n'] := by
  rw [rejoined, split_of_noBlankLine noBlank, List.flatMap_singleton]

/-- Every paragraph has something in it. -/
theorem blocks_ne_nil (last : text.getLast? ≠ some '\n') :
    [] ∉ (Regex.split blankLines text).tail ∧
      (text.head? ≠ some '\n' → text ≠ [] → [] ∉ Regex.split blankLines text) := by
  induction text using run_induction (· == '\n') (Nat.succ_pos 1) with
  | nil => exact ⟨by rw [split_nil]; exact List.not_mem_nil, fun _ some => absurd rfl some⟩
  | run taken rest each enough stops ih =>
      obtain ⟨some, later⟩ := rest_of_last each enough last
      have split := split_run_append (Nat.succ_pos 1) each enough stops
      have inRest := (ih later).2 (fun isBreak => absurd (stops _ isBreak) (by decide)) some
      rw [blankLines, split]
      refine ⟨inRest, fun first => absurd ?_ first⟩
      cases taken with
      | nil => exact absurd enough (by decide)
      | cons char taken =>
          rw [List.all_cons, Bool.and_eq_true, beq_iff_eq] at each
          rw [each.1]
          rfl
  | cons char text short ih =>
      have later : text.getLast? ≠ some '\n' := by
        cases text with
        | nil => exact (Option.some_ne_none '\n').symm
        | cons next text => rwa [List.getLast?_cons_cons] at last
      have inTail := (ih later).1
      rw [split_blankLines_short short]
      cases pieces : Regex.split blankLines text with
      | nil => exact absurd pieces (split_run_ne_nil (Nat.succ_pos 1) text)
      | cons piece pieces =>
          rw [pieces] at inTail
          refine ⟨inTail, fun _ _ => ?_⟩
          exact List.not_mem_cons_of_ne_of_not_mem (List.cons_ne_nil _ _).symm inTail

end Rejoined

end Formats
end MindMapVault
