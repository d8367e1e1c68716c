import Mathlib.Data.List.Chain
import MindMapVault.Foundations.Regex

/-!
# Runs that become one character

Replacing every match of a class and a plus by one character: a run of the class becomes
that character, and everything else stays. A text in which the class is only ever that
character, and never twice in a row, is left alone.
-/

namespace Regex

section Collapse

variable {ok : Char → Bool} {mark : Char}

/-- Every run of the class becomes the mark; inside of a run the rest of it is left out. -/
def collapse (ok : Char → Bool) (mark : Char) : Bool → List Char → List Char
  | _, [] => []
  | inside, char :: text =>
      if ok char then
        if inside then collapse ok mark true text else mark :: collapse ok mark true text
      else char :: collapse ok mark false text

/-- A run takes all that it can. -/
theorem head?_steps_many1 {char : Char} {text : List Char}
    (matched : ok char = true) (atStart : Bool) :
    ((many1 ok).steps atStart (char :: text) []).head? =
      some ⟨char :: text.takeWhile ok, text.dropWhile ok, []⟩ := by
  have whole : char :: text = (char :: text.takeWhile ok) ++ text.dropWhile ok := by
    rw [List.cons_append, List.takeWhile_append_dropWhile]
  have each : (char :: text.takeWhile ok).all ok = true := by
    rw [List.all_cons, matched, List.all_takeWhile, Bool.and_self]
  have reaches : (many1 ok).Reaches ((char :: text.takeWhile ok) ++ text.dropWhile ok) []
      (text.dropWhile ok) [] := by
    refine reaches_run each (fun _ other isHead => ?_) (by simp) (fun _ none => by cases none)
    have unlike := List.head?_dropWhile_not ok text
    rw [Option.mem_def.mp isHead] at unlike
    simpa using unlike
  obtain ⟨taken, head⟩ := reaches atStart
  have same := steps_append (List.mem_of_mem_head? head)
  rw [List.append_left_inj] at same
  rw [whole, head, ← same]

theorem steps_many1_nil (atStart : Bool) : (many1 ok).steps atStart [] [] = [] := by
  simp [many1, steps, takes]

/-- Replacing a class and a plus, from outside of a run and from inside of one. -/
theorem replaceFrom_many1 : ∀ (text : List Char) (atStart : Bool),
    replaceFrom (many1 ok) (fun _ => [mark]) atStart 0 text = collapse ok mark false text ∧
      replaceFrom (many1 ok) (fun _ => [mark]) atStart (text.takeWhile ok).length text =
        collapse ok mark true text
  | [], atStart => by
      have none : replaceFrom (many1 ok) (fun _ => [mark]) atStart 0 [] = [] := by
        rw [replaceFrom, steps_many1_nil]
        rfl
      exact ⟨none, none⟩
  | char :: text, atStart => by
      cases matched : ok char with
      | true =>
          have inside := (replaceFrom_many1 text false).2
          constructor
          · rw [replaceFrom, head?_steps_many1 matched, collapse, if_pos matched]
            simp only [List.length_cons, inside]
            rfl
          · rw [List.takeWhile_cons_of_pos matched, List.length_cons, replaceFrom, inside,
              collapse, if_pos matched, if_pos rfl]
      | false =>
          have unlike : ¬ ok char = true := by simp [matched]
          have outside : replaceFrom (many1 ok) (fun _ => [mark]) atStart 0
              (char :: text) = char :: collapse ok mark false text := by
            rw [replaceFrom, many1, steps_run_of_head matched (le_refl 1)]
            exact congrArg _ (replaceFrom_many1 text false).1
          constructor
          · rw [outside, collapse, if_neg unlike]
          · rw [List.takeWhile_cons_of_neg unlike, List.length_nil, outside, collapse,
              if_neg unlike]

theorem replaceAll_many1 (text : List Char) :
    replaceAll (many1 ok) (fun _ => [mark]) text = collapse ok mark false text :=
  (replaceFrom_many1 text true).1

/-- What is left is the mark, or was there and is not of the class. -/
theorem mem_collapse {char : Char} : ∀ {text : List Char} {inside : Bool},
    char ∈ collapse ok mark inside text → char = mark ∨ char ∈ text ∧ ok char = false
  | [], _, present => absurd present List.not_mem_nil
  | first :: text, inside, present => by
      have later {state : Bool} (more : char ∈ collapse ok mark state text) :
          char = mark ∨ char ∈ first :: text ∧ ok char = false :=
        (mem_collapse more).imp id fun ⟨there, unlike⟩ =>
          ⟨List.mem_cons_of_mem _ there, unlike⟩
      rw [collapse] at present
      split_ifs at present with matched _
      · exact later present
      · rcases List.mem_cons.mp present with rfl | more
        · exact .inl rfl
        · exact later more
      · rcases List.mem_cons.mp present with rfl | more
        · exact .inr ⟨List.mem_cons_self, by simpa using matched⟩
        · exact later more

/-- A text without the class is left alone. -/
theorem collapse_of_forall : ∀ {text : List Char} (inside : Bool),
    (∀ char ∈ text, ok char = false) → collapse ok mark inside text = text
  | [], _, _ => rfl
  | first :: text, inside, absent => by
      rw [collapse, if_neg (by simp [absent first List.mem_cons_self])]
      exact congrArg (first :: ·) (collapse_of_forall false fun char present =>
        absent char (List.mem_cons_of_mem _ present))

/-- What follows a run does not begin with the class. -/
theorem head?_collapse_true : ∀ {text : List Char},
    ∀ char ∈ (collapse ok mark true text).head?, ok char = false
  | [], _, isHead => by cases isHead
  | first :: text, char, isHead => by
      cases matched : ok first with
      | true =>
          rw [collapse, if_pos matched, if_pos rfl] at isHead
          exact head?_collapse_true char isHead
      | false =>
          rw [collapse, if_neg (by simp [matched])] at isHead
          cases isHead
          exact matched

/-- The class is only ever the mark, and never twice in a row. -/
structure Collapsed (ok : Char → Bool) (mark : Char) (text : List Char) : Prop where
  only : ∀ char ∈ text, ok char = true → char = mark
  apart : text.IsChain fun former latter => ¬ (ok former = true ∧ ok latter = true)

theorem isChain_collapse : ∀ (text : List Char) (inside : Bool),
    (collapse ok mark inside text).IsChain
      fun former latter => ¬ (ok former = true ∧ ok latter = true)
  | [], _ => List.isChain_nil
  | first :: text, inside => by
      cases matched : ok first with
      | true =>
          have rest := isChain_collapse text true
          cases inside with
          | true =>
              rw [collapse, if_pos matched, if_pos rfl]
              exact rest
          | false =>
              rw [collapse, if_pos matched, if_neg Bool.false_ne_true]
              refine List.isChain_cons.mpr ⟨fun next isHead both => ?_, rest⟩
              exact absurd both.2 (by simp [head?_collapse_true next isHead])
      | false =>
          rw [collapse, if_neg (by simp [matched])]
          refine List.isChain_cons.mpr ⟨fun next _ both => ?_, isChain_collapse text false⟩
          exact absurd both.1 (by simp [matched])

theorem collapsed_collapse (text : List Char) (inside : Bool) :
    Collapsed ok mark (collapse ok mark inside text) where
  only char present matched := by
    rcases mem_collapse present with isMark | ⟨_, unlike⟩
    · exact isMark
    · exact absurd matched (by simp [unlike])
  apart := isChain_collapse text inside

theorem collapsed_of_forall {text : List Char}
    (absent : ∀ char ∈ text, ok char = false) : Collapsed ok mark text := by
  rw [← collapse_of_forall false absent]
  exact collapsed_collapse text false

/-- A text in which the runs are collapsed is left alone. -/
theorem collapse_of_collapsed : ∀ {text : List Char} {inside : Bool},
    Collapsed ok mark text →
      (inside = true → ∀ char ∈ text.head?, ok char = false) → collapse ok mark inside text = text
  | [], _, _, _ => rfl
  | first :: text, inside, collapsed, starts => by
      obtain ⟨next, apart⟩ := List.isChain_cons.mp collapsed.apart
      have rest : Collapsed ok mark text :=
        ⟨fun char present => collapsed.only char (List.mem_cons_of_mem _ present), apart⟩
      cases matched : ok first with
      | true =>
          have outside : inside = false := by
            cases inside with
            | true => exact absurd (starts rfl first rfl) (by simp [matched])
            | false => rfl
          subst outside
          have tail : collapse ok mark true text = text := by
            refine collapse_of_collapsed rest fun _ other isHead => ?_
            have unlike := next other isHead
            simpa [matched] using unlike
          rw [collapse, if_pos matched, if_neg Bool.false_ne_true, tail,
            collapsed.only first List.mem_cons_self matched]
      | false =>
          rw [collapse, if_neg (by simp [matched])]
          exact congrArg (first :: ·)
            (collapse_of_collapsed rest fun inside => absurd inside Bool.false_ne_true)

/-- The last character of a text is the last one that is left, or has become the mark. -/
theorem collapse_concat (last : Char) : ∀ (front : List Char) (inside : Bool),
    (inside = true ∧ ok last = true ∧ collapse ok mark inside (front ++ [last]) = []) ∨
      ∃ left, collapse ok mark inside (front ++ [last]) =
        left ++ [if ok last = true then mark else last]
  | [], inside => by
      rw [List.nil_append, collapse]
      cases matched : ok last with
      | true =>
          cases inside with
          | true => exact .inl ⟨rfl, rfl, rfl⟩
          | false => exact .inr ⟨[], rfl⟩
      | false => exact .inr ⟨[], rfl⟩
  | first :: front, inside => by
      rw [List.cons_append, collapse]
      cases matched : ok first with
      | true =>
          rw [if_pos rfl]
          rcases collapse_concat last front true with ⟨_, isRun, none⟩ | ⟨left, same⟩
          · cases inside with
            | true => exact .inl ⟨rfl, isRun, none⟩
            | false => exact .inr ⟨[], by rw [if_neg Bool.false_ne_true, none, if_pos isRun]; rfl⟩
          · cases inside with
            | true => exact .inr ⟨left, same⟩
            | false => exact .inr ⟨mark :: left, congrArg (mark :: ·) same⟩
      | false =>
          rw [if_neg Bool.false_ne_true]
          rcases collapse_concat last front false with ⟨outside, _⟩ | ⟨left, same⟩
          · exact absurd outside Bool.false_ne_true
          · exact .inr ⟨first :: left, congrArg (first :: ·) same⟩

end Collapse

end Regex
