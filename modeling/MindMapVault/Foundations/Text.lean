import Mathlib.Data.List.Basic

/-!
# Trimming strings, and how they start

Removing every leading and trailing character of a class. The two facts used
downstream are that trimming leaves alone a string none of whose characters is
in the class, and that a trimmed string is trimmed again to itself. A string that
is made of segments starts with only one first segment, and no line of a text has a
line break.
-/

namespace Text

/-- Drop the characters satisfying `matching` from both ends of a list. -/
def trimList (matching : Char → Bool) (chars : List Char) : List Char :=
  ((chars.dropWhile matching).reverse.dropWhile matching).reverse

/-- Drop the characters satisfying `matching` from both ends of a string. -/
def trimMatches (matching : Char → Bool) (text : String) : String :=
  String.ofList (trimList matching text.toList)

@[simp] theorem toList_trimMatches (matching : Char → Bool) (text : String) :
    (trimMatches matching text).toList = trimList matching text.toList := by
  simp [trimMatches]

theorem dropWhile_eq_self_of_forall {matching : Char → Bool} {chars : List Char}
    (unmatched : ∀ char ∈ chars, matching char = false) :
    chars.dropWhile matching = chars := by
  cases chars with
  | nil => rfl
  | cons char rest =>
      have first := unmatched char (by simp)
      simp [first]

/-- Trimming a list without matching characters changes nothing. -/
theorem trimList_eq_self_of_forall {matching : Char → Bool} {chars : List Char}
    (unmatched : ∀ char ∈ chars, matching char = false) :
    trimList matching chars = chars := by
  rw [trimList, dropWhile_eq_self_of_forall unmatched,
    dropWhile_eq_self_of_forall (by simpa using unmatched), List.reverse_reverse]

/-- Trimming a string without matching characters changes nothing. -/
theorem trimMatches_eq_self_of_forall {matching : Char → Bool} {text : String}
    (unmatched : ∀ char ∈ text.toList, matching char = false) :
    trimMatches matching text = text := by
  rw [trimMatches, trimList_eq_self_of_forall unmatched, String.ofList_toList]

theorem mem_dropWhile_or {matching : Char → Bool} {chars : List Char} {char : Char}
    (present : char ∈ chars) :
    char ∈ chars.dropWhile matching ∨ matching char = true := by
  rw [← List.takeWhile_append_dropWhile (p := matching) (l := chars), List.mem_append] at present
  rcases present with dropped | kept
  · exact .inr (List.all_eq_true.mp List.all_takeWhile char dropped)
  · exact .inl kept

/-- Trimming drops nothing but what it matches. -/
theorem mem_trimMatches_or (matching : Char → Bool) {text : String} {char : Char}
    (present : char ∈ text.toList) :
    char ∈ (trimMatches matching text).toList ∨ matching char = true := by
  rw [toList_trimMatches, trimList, List.mem_reverse]
  rcases mem_dropWhile_or present with kept | dropped
  · exact mem_dropWhile_or (List.mem_reverse.mpr kept)
  · exact .inr dropped

/-- The string starts with another. -/
def startsWith (start text : String) : Bool := start.toList.isPrefixOf text.toList

theorem startsWith_iff {start text : String} :
    startsWith start text = true ↔ ∃ rest, text.toList = start.toList ++ rest := by
  unfold startsWith
  rw [List.isPrefixOf_iff_prefix]
  exact exists_congr fun _ => eq_comm

/-- What comes before the first separator is determined, and so is the rest. -/
theorem segment_inj {separator : Char} {first second firstRest secondRest : List Char}
    (inFirst : separator ∉ first) (inSecond : separator ∉ second)
    (same : first ++ separator :: firstRest = second ++ separator :: secondRest) :
    first = second ∧ firstRest = secondRest := by
  induction first generalizing second with
  | nil =>
      cases second with
      | nil => exact ⟨rfl, (List.cons.inj same).2⟩
      | cons head tail =>
          have sameHead : separator = head := (List.cons.inj same).1
          exact absurd (sameHead ▸ List.mem_cons_self) inSecond
  | cons head tail ih =>
      cases second with
      | nil =>
          have sameHead : head = separator := (List.cons.inj same).1
          exact absurd (sameHead ▸ List.mem_cons_self) inFirst
      | cons secondHead secondTail =>
          obtain ⟨rfl, sameTail⟩ := List.cons.inj same
          obtain ⟨rfl, sameRest⟩ :=
            ih (fun inTail => inFirst (List.mem_cons_of_mem _ inTail))
              (fun inTail => inSecond (List.mem_cons_of_mem _ inTail)) sameTail
          exact ⟨rfl, sameRest⟩

/-- What a class takes of a text that goes on with something else. -/
theorem takeWhile_append_other (ok : Char → Bool) (front back : List Char)
    (inFront : front.all ok = true) (other : back.head?.any ok = false) :
    (front ++ back).takeWhile ok = front ∧ (front ++ back).dropWhile ok = back := by
  rw [List.takeWhile_append_of_pos (List.all_eq_true.mp inFront),
    List.dropWhile_append_of_pos (List.all_eq_true.mp inFront)]
  cases back with
  | nil => exact ⟨List.append_nil front, rfl⟩
  | cons char back =>
      have differs : ¬ok char = true := by
        rw [Bool.not_eq_true]
        exact other
      rw [List.takeWhile_cons_of_neg differs, List.dropWhile_cons_of_neg differs, List.append_nil]
      exact ⟨rfl, rfl⟩

/-- What a text is split at is in none of the pieces. -/
theorem not_mem_of_mem_splitOn {separator : Char} {text piece : List Char}
    (listed : piece ∈ text.splitOn separator) : separator ∉ piece := by
  induction text generalizing piece with
  | nil =>
      rw [List.splitOn_nil, List.mem_singleton] at listed
      rw [listed]
      exact List.not_mem_nil
  | cons char text ih =>
      rw [List.splitOn_cons_eq_if_modifyHead] at listed
      split_ifs at listed with isBreak
      · rcases List.mem_cons.mp listed with rfl | later
        · exact List.not_mem_nil
        · exact ih later
      · cases pieces : text.splitOn separator with
        | nil => exact absurd pieces (List.splitOn_ne_nil _ _)
        | cons first others =>
            rw [pieces] at listed ih
            rcases List.mem_cons.mp listed with rfl | later
            · have other : separator ≠ char := by
                rintro rfl
                exact isBreak (beq_self_eq_true _)
              exact List.mem_cons.not.mpr (not_or.mpr ⟨other, ih List.mem_cons_self⟩)
            · exact ih (List.mem_cons_of_mem _ later)

end Text
