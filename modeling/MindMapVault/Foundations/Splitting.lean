import MindMapVault.Foundations.Regex

/-!
# Splitting a text at runs

A text that is split at the long runs of a class, as an equation for its first character, and
the pieces put together again with one character of the class after each.
-/

namespace Regex

variable {ok : Char → Bool} {least : Nat}

/-- A run takes at most the characters of its class that come first. -/
theorem length_le_takeWhile {front rest text : List Char} (split : front ++ rest = text)
    (each : front.all ok = true) : front.length ≤ (text.takeWhile ok).length := by
  rw [← split, List.takeWhile_append_of_pos (List.all_eq_true.mp each), List.length_append]
  exact Nat.le_add_right _ _

/-- What an unbounded run takes first. -/
theorem head?_steps_run (atStart : Bool) (text : List Char) (groups : Groups) :
    ((Regex.run ok least none true).steps atStart text groups).head? =
      if least ≤ (text.takeWhile ok).length then
        some ⟨text.takeWhile ok, text.dropWhile ok, groups⟩
      else none := by
  split_ifs with enough
  · have stops : ∀ char ∈ (text.dropWhile ok).head?, ok char = false := by
      intro char isHead
      have dark := List.head?_dropWhile_not ok text
      rw [Option.mem_def.mp isHead] at dark
      exact dark
    obtain ⟨fewer, same⟩ : ∃ fewer, takes ok none (text.takeWhile ok ++ text.dropWhile ok) =
        fewer ++ [(text.takeWhile ok, text.dropWhile ok)] :=
      takes_greedy List.all_takeWhile (fun _ => stops) (fun _ none => by cases none)
    rw [List.takeWhile_append_dropWhile] at same
    simp only [steps, same, if_true, List.filter_append, List.filter_singleton, enough,
      decide_true, List.reverse_append, List.map_append]
    rfl
  · rw [List.head?_eq_none_iff]
    refine List.eq_nil_iff_forall_not_mem.mpr fun step listed => enough ?_
    obtain ⟨split, each, long⟩ := run_spec listed
    exact long.trans (length_le_takeWhile split each)

/-- What is left of a match is dropped. -/
theorem splitFrom_eq (regex : Regex) (left : Nat) (text : List Char) :
    splitFrom regex left text = split regex (text.drop left) := by
  induction text generalizing left with
  | nil => rw [splitFrom, List.drop_nil, split, splitFrom]
  | cons char text ih =>
      cases left with
      | zero => rfl
      | succ left => rw [splitFrom, ih, List.drop_succ_cons]

theorem split_nil (regex : Regex) : split regex [] = [[]] := by rw [split, splitFrom]

/-- A text begins with a run, which ends a piece, or with a character of its first piece. -/
theorem split_run_cons (positive : 0 < least) (char : Char) (text : List Char) :
    split (.run ok least none true) (char :: text) =
      if least ≤ ((char :: text).takeWhile ok).length then
        [] :: split (.run ok least none true) ((char :: text).dropWhile ok)
      else (split (.run ok least none true) text).modifyHead (char :: ·) := by
  rw [split, splitFrom, head?_steps_run]
  split_ifs with enough
  · cases taken : ((char :: text).takeWhile ok).length with
    | zero => omega
    | succ more =>
        have rest : text.drop more = (char :: text).dropWhile ok := by
          have whole := List.takeWhile_append_dropWhile (p := ok) (l := char :: text)
          have dropped := congrArg (List.drop (more + 1)) whole
          rw [List.drop_left' taken, List.drop_succ_cons] at dropped
          exact dropped.symm
        simp only [Option.map_some, taken]
        rw [splitFrom_eq, rest]
  · rfl

/-- A run that ends a piece. -/
theorem split_run_append (positive : 0 < least) {taken rest : List Char}
    (each : taken.all ok = true) (enough : least ≤ taken.length)
    (stops : ∀ char ∈ rest.head?, ok char = false) :
    split (.run ok least none true) (taken ++ rest) =
      [] :: split (.run ok least none true) rest := by
  have ends : rest.takeWhile ok = [] ∧ rest.dropWhile ok = rest := by
    cases rest with
    | nil => exact ⟨rfl, rfl⟩
    | cons char rest =>
        have dark := stops char rfl
        exact ⟨List.takeWhile_cons_of_neg (by simp [dark]),
          List.dropWhile_cons_of_neg (by simp [dark])⟩
  have all := List.all_eq_true.mp each
  have run : (taken ++ rest).takeWhile ok = taken := by
    rw [List.takeWhile_append_of_pos all, ends.1, List.append_nil]
  have left : (taken ++ rest).dropWhile ok = rest := by
    rw [List.dropWhile_append_of_pos all, ends.2]
  cases taken with
  | nil => exact absurd enough (Nat.not_le.mpr positive)
  | cons char taken =>
      rw [List.cons_append] at run left ⊢
      rw [split_run_cons positive, run, left, if_pos enough]

/-- Induction over a text whose long runs are taken at once. -/
@[elab_as_elim]
theorem run_induction (ok : Char → Bool) {least : Nat} (positive : 0 < least)
    {motive : List Char → Prop} (text : List Char) (nil : motive [])
    (run : ∀ taken rest, taken.all ok = true → least ≤ taken.length →
      (∀ char ∈ rest.head?, ok char = false) → motive rest → motive (taken ++ rest))
    (cons : ∀ char text, ((char :: text).takeWhile ok).length < least →
      motive text → motive (char :: text)) : motive text := by
  induction length : text.length using Nat.strong_induction_on generalizing text with
  | _ length ih =>
      subst length
      cases text with
      | nil => exact nil
      | cons char text =>
          by_cases enough : least ≤ ((char :: text).takeWhile ok).length
          · rw [← List.takeWhile_append_dropWhile (p := ok) (l := char :: text)]
            refine run _ _ List.all_takeWhile enough (fun other isHead => ?_) (ih _ ?_ _ rfl)
            · have dark := List.head?_dropWhile_not ok (char :: text)
              rw [Option.mem_def.mp isHead] at dark
              exact dark
            · have whole := congrArg List.length
                (List.takeWhile_append_dropWhile (p := ok) (l := char :: text))
              rw [List.length_append] at whole
              omega
          · exact cons char text (Nat.not_le.mp enough) (ih _ (Nat.lt_succ_self _) text rfl)

theorem split_run_ne_nil (positive : 0 < least) (text : List Char) :
    split (.run ok least none true) text ≠ [] := by
  induction text with
  | nil =>
      rw [split_nil]
      exact List.cons_ne_nil _ _
  | cons char text ih =>
      rw [split_run_cons positive]
      split_ifs
      · exact List.cons_ne_nil _ _
      · rwa [Ne, List.modifyHead_eq_nil_iff]

end Regex
