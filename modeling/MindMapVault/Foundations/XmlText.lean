import MindMapVault.Foundations.Xml

/-!
# Texts that are written into XML

A text is written character by character, some as references, and is read back as the
characters that were written: where one of them is none that a document can hold, it is not
read at all.
-/

namespace Xml

/-! ### References -/

theorem digitValue_digitChar : ∀ digit < 16, digitValue (Nat.digitChar digit) = some digit := by
  decide

theorem numeral_append (base : Nat) (front back : List Char) :
    numeral base (front ++ back) = (numeral base front).bind fun value =>
      back.foldlM (fun value digit => do
        let next ← digitValue digit
        if next < base then some (base * value + next) else none) value := by
  rw [numeral, List.foldlM_append]
  rfl

/-- Digits are read as the number they were written for. -/
theorem numeral_toDigits {base : Nat} (some_ : 1 < base) (most : base ≤ 16) (number : Nat) :
    numeral base (Nat.toDigits base number) = some number := by
  induction number using Nat.strongRecOn with
  | _ number ih =>
      rw [Nat.toDigits_eq_if some_]
      split_ifs with small
      · have digit := digitValue_digitChar number (Nat.lt_of_lt_of_le small most)
        simp only [numeral, List.foldlM_cons, List.foldlM_nil, digit]
        simp [small]
      · have less : number / base < number := Nat.div_lt_self (by omega) some_
        have last : number % base < base := Nat.mod_lt _ (by omega)
        have digit := digitValue_digitChar _ (Nat.lt_of_lt_of_le last most)
        rw [numeral_append, ih _ less]
        simp only [Option.bind_some, List.foldlM_cons, List.foldlM_nil, digit]
        simp [last, Nat.div_add_mod]

/-- The code of a character in hexadecimal digits. -/
theorem referenced_hex (char : Char) :
    referenced ('#' :: 'x' :: Nat.toDigits 16 char.toNat) =
      if isChar char = true then some char else none := by
  have nonempty : Nat.toDigits 16 char.toNat ≠ [] := Nat.toDigits_ne_nil
  simp only [referenced, if_true, if_neg nonempty,
    numeral_toDigits (by decide : 1 < 16) (Nat.le_refl 16), Option.bind_some]
  rw [ofCode, isChar, Char.ofNat_toNat]

/-- What all digits of a base have in common. -/
theorem forall_toDigits {base : Nat} {holds : Char → Prop} (some_ : 1 < base)
    (each : ∀ digit < base, holds (Nat.digitChar digit)) (number : Nat) :
    ∀ char ∈ Nat.toDigits base number, holds char := by
  induction number using Nat.strongRecOn with
  | _ number ih =>
      rw [Nat.toDigits_eq_if some_]
      split_ifs with small
      · rw [List.forall_mem_singleton]
        exact each number small
      · rw [List.forall_mem_append, List.forall_mem_singleton]
        exact ⟨ih _ (Nat.div_lt_self (by omega) some_), each _ (Nat.mod_lt _ (by omega))⟩

section Expand

variable {space : Char → Char}

/-- The name of a reference ends with a semicolon. -/
theorem expandFrom_name (name : List Char) {more : List Char} (open_ : ';' ∉ more)
    (rest : List Char) :
    expandFrom space (some name) (more ++ ';' :: rest) =
      (referenced (name ++ more)).bind fun named =>
        (expandFrom space none rest).map (named :: ·) := by
  induction more generalizing name with
  | nil =>
      rw [List.nil_append, expandFrom, if_pos rfl, List.append_nil]
      rfl
  | cons char more ih =>
      obtain ⟨other, later⟩ := not_or.mp (List.mem_cons.not.mp open_)
      rw [List.cons_append, expandFrom, if_neg (Ne.symm other), ih _ later,
        List.append_assoc, List.singleton_append]

theorem expandFrom_reference {name : List Char} (open_ : ';' ∉ name) (rest : List Char) :
    expandFrom space none ('&' :: (name ++ ';' :: rest)) =
      (referenced name).bind fun named => (expandFrom space none rest).map (named :: ·) := by
  rw [expandFrom, if_pos rfl, expandFrom_name [] open_, List.nil_append]

/-- A reference to a character. -/
theorem expandFrom_named (name : List Char) {named : Char} (open_ : ';' ∉ name)
    (known : referenced name = some named) (valid : isChar named = true) (rest : List Char) :
    expandFrom space none ('&' :: (name ++ ';' :: rest)) =
      if isChar named = true then (expandFrom space none rest).map (named :: ·) else none := by
  rw [expandFrom_reference open_, known, if_pos valid]
  rfl

/-- A reference to a character by its code. -/
theorem expandFrom_hex (char : Char) (rest : List Char) :
    expandFrom space none
        ('&' :: ('#' :: 'x' :: Nat.toDigits 16 char.toNat ++ ';' :: rest)) =
      if isChar char = true then
        (expandFrom space none rest).map (char :: ·)
      else none := by
  have noEnd : ∀ digit < 16, ';' ≠ Nat.digitChar digit := by decide
  have open_ : ';' ∉ '#' :: 'x' :: Nat.toDigits 16 char.toNat := by
    intro listed
    rcases List.mem_cons.mp listed with isMark | later
    · exact absurd isMark (by decide)
    · rcases List.mem_cons.mp later with isMark | inDigits
      · exact absurd isMark (by decide)
      · exact forall_toDigits (by decide) noEnd _ ';' inDigits rfl
  rw [expandFrom_reference open_, referenced_hex]
  split_ifs
  · rfl
  · rfl

/-- A character that is written as it is. -/
theorem expandFrom_cons {char : Char} (noMark : char ≠ '&') (rest : List Char) :
    expandFrom space none (char :: rest) =
      if isChar char = true then
        (expandFrom space none rest).map (space char :: ·)
      else none := by
  rw [expandFrom, if_neg noMark]

/-- What is written for a character is read as a character, or not at all. -/
def Reads (space : Char → Char) (spell : Char → List Char) (value : Char → Char) : Prop :=
  ∀ char rest, expandFrom space none (spell char ++ rest) =
    if isChar char = true then
      (expandFrom space none rest).map (value char :: ·)
    else none

/-- A text is read if all of its characters are. -/
theorem expandFrom_flatMap {spell : Char → List Char} {value : Char → Char}
    (reads : Reads space spell value) (text : List Char) :
    expandFrom space none (text.flatMap spell) =
      if text.all isChar = true then some (text.map value) else none := by
  induction text with
  | nil => rfl
  | cons char text ih =>
      rw [List.flatMap_cons, reads, ih, List.all_cons, List.map_cons]
      cases isChar char with
      | true =>
          rw [if_pos rfl, Bool.true_and]
          split_ifs
          · rfl
          · rfl
      | false => rfl

end Expand

/-! ### Line breaks -/

/-- There is nothing to normalise. -/
theorem normalizeBreaks_of_not_mem {text : List Char} (absent : '\r' ∉ text) :
    normalizeBreaks text = text := by
  unfold normalizeBreaks
  induction text with
  | nil => rfl
  | cons char text ih =>
      obtain ⟨other, later⟩ := not_or.mp (List.mem_cons.not.mp absent)
      have noReturn : (char == '\r') = false := beq_eq_false_iff_ne.mpr (Ne.symm other)
      rw [breaksFrom, if_neg fun both => Bool.noConfusion both.2, if_neg (Ne.symm other),
        noReturn, ih later]

theorem mem_breaksFrom_of_ne {char : Char} {text : List Char} {afterReturn : Bool}
    (listed : char ∈ breaksFrom afterReturn text) : char ≠ '\r' := by
  induction text generalizing afterReturn with
  | nil => exact absurd listed List.not_mem_nil
  | cons first text ih =>
      rw [breaksFrom] at listed
      split_ifs at listed with follows isReturn
      · exact ih listed
      · rcases List.mem_cons.mp listed with rfl | later
        · decide
        · exact ih later
      · rcases List.mem_cons.mp listed with rfl | later
        · exact isReturn
        · exact ih later

/-- Nothing is normalised in a text that begins with no line break and has none. -/
theorem breaksFrom_append {raw : List Char} (some : raw ≠ [])
    (plain : ∀ char ∈ raw, char ≠ '\n' ∧ char ≠ '\r') (afterReturn : Bool)
    (rest : List Char) : breaksFrom afterReturn (raw ++ rest) = raw ++ breaksFrom false rest := by
  induction raw generalizing afterReturn with
  | nil => exact absurd rfl some
  | cons char raw ih =>
      obtain ⟨⟨noBreak, noReturn⟩, later⟩ := List.forall_mem_cons.mp plain
      have isReturn : (char == '\r') = false := beq_eq_false_iff_ne.mpr noReturn
      rw [List.cons_append, breaksFrom, if_neg fun both => noBreak both.1, if_neg noReturn,
        isReturn]
      cases raw with
      | nil => rfl
      | cons next raw =>
          rw [ih (List.cons_ne_nil _ _) later]
          rfl

/-- What is written for line breaks is line breaks, and for no other character. -/
structure KeepsBreaks (spell : Char → List Char) : Prop where
  breaks : spell '\n' = ['\n']
  returns : spell '\r' = ['\r']
  others : ∀ char, char ≠ '\n' → char ≠ '\r' →
    spell char ≠ [] ∧ ∀ written ∈ spell char, written ≠ '\n' ∧ written ≠ '\r'

theorem KeepsBreaks.breaksFrom_flatMap {spell : Char → List Char} (keeps : KeepsBreaks spell)
    (text : List Char) (afterReturn : Bool) :
    breaksFrom afterReturn (text.flatMap spell) = (breaksFrom afterReturn text).flatMap spell := by
  induction text generalizing afterReturn with
  | nil => rfl
  | cons char text ih =>
      rw [List.flatMap_cons]
      by_cases isBreak : char = '\n'
      · have noReturn : ¬ ('\n' = '\r') := by decide
        rw [isBreak, keeps.breaks, List.singleton_append, breaksFrom, breaksFrom,
          ih, if_neg noReturn]
        split_ifs
        · rfl
        · rw [List.flatMap_cons, keeps.breaks, ih]
          rfl
      by_cases isReturn : char = '\r'
      · have noBreak : ¬('\r' = '\n' ∧ afterReturn = true) := fun both => absurd both.1 (by decide)
        rw [isReturn, keeps.returns, List.singleton_append, breaksFrom, breaksFrom, if_neg noBreak,
          if_neg noBreak, if_pos rfl, List.flatMap_cons, keeps.breaks, ih]
        rfl
      · obtain ⟨some, plain⟩ := keeps.others char isBreak isReturn
        have noReturn : (char == '\r') = false := beq_eq_false_iff_ne.mpr isReturn
        rw [breaksFrom_append some plain, breaksFrom, if_neg fun both => isBreak both.1,
          if_neg isReturn, noReturn, List.flatMap_cons, ih]

theorem KeepsBreaks.normalizeBreaks_flatMap {spell : Char → List Char} (keeps : KeepsBreaks spell)
    (text : List Char) :
    normalizeBreaks (text.flatMap spell) = (normalizeBreaks text).flatMap spell :=
  keeps.breaksFrom_flatMap text false

/-- A document can hold line breaks as well as returns. -/
theorem all_isChar_breaksFrom (text : List Char) (afterReturn : Bool) :
    (breaksFrom afterReturn text).all isChar = text.all isChar := by
  induction text generalizing afterReturn with
  | nil => rfl
  | cons char text ih =>
      rw [breaksFrom]
      split_ifs with follows isReturn
      · rw [ih, List.all_cons, follows.1]
        rfl
      · rw [List.all_cons, List.all_cons, ih, isReturn]
        rfl
      · rw [List.all_cons, List.all_cons, ih]

/-- Only breaks and returns are left out or changed. -/
theorem countP_breaksFrom (text : List Char) (afterReturn : Bool) :
    (breaksFrom afterReturn text).countP (· ≠ '\n') =
      text.countP fun char => char ≠ '\n' ∧ char ≠ '\r' := by
  induction text generalizing afterReturn with
  | nil => rfl
  | cons char text ih =>
      rw [breaksFrom]
      split_ifs with follows isReturn
      · rw [ih, List.countP_cons_of_neg (by simp [follows.1])]
      · rw [List.countP_cons_of_neg (by simp), ih, List.countP_cons_of_neg (by simp [isReturn])]
      · rw [List.countP_cons, ih, List.countP_cons]
        simp [isReturn]

theorem normalizeBreaks_eq_nil {text : List Char} : normalizeBreaks text = [] ↔ text = [] := by
  cases text with
  | nil => exact Iff.rfl
  | cons char text =>
      rw [normalizeBreaks, breaksFrom, if_neg fun both => Bool.noConfusion both.2]
      exact iff_of_false (List.cons_ne_nil _ _) (List.cons_ne_nil _ _)

/-! ### Texts in attributes -/

/-- A text as it is read from an attribute in which its white space stands as it is. -/
def inlined (text : List Char) : List Char := (normalizeBreaks text).map blank

/-- Nothing in the text is read as a blank. -/
def OneLine (text : List Char) : Prop := ∀ char ∈ text, char ≠ '\t' ∧ char ≠ '\n' ∧ char ≠ '\r'

instance (text : List Char) : Decidable (OneLine text) :=
  decidable_of_iff (text.all (fun char =>
      char != '\t' && char != '\n' && char != '\r') = true)
    (by simp [OneLine, and_assoc])

theorem blank_of_ne {char : Char} (other : char ≠ '\t' ∧ char ≠ '\n' ∧ char ≠ '\r') :
    blank char = char := by
  rw [blank, if_neg]
  rintro (isTab | isBreak | isReturn)
  · exact other.1 isTab
  · exact other.2.1 isBreak
  · exact other.2.2 isReturn

theorem inlined_of_oneLine {text : List Char} (oneLine : OneLine text) : inlined text = text := by
  have noReturn : '\r' ∉ text := fun listed => (oneLine _ listed).2.2 rfl
  rw [inlined, normalizeBreaks_of_not_mem noReturn]
  exact (List.map_congr_left fun char listed => blank_of_ne (oneLine char listed)).trans
    (List.map_id _)

theorem oneLine_inlined (text : List Char) : OneLine (inlined text) := by
  rw [OneLine, inlined, List.forall_mem_map]
  intro char _
  by_cases white : char = '\t' ∨ char = '\n' ∨ char = '\r'
  · rw [blank, if_pos white]
    decide
  · obtain ⟨noTab, noBreak, noReturn⟩ := not_or.mp white |>.imp_right not_or.mp
    rw [blank, if_neg white]
    exact ⟨noTab, noBreak, noReturn⟩

theorem inlined_eq_self {text : List Char} : inlined text = text ↔ OneLine text :=
  ⟨fun same => same ▸ oneLine_inlined text, inlined_of_oneLine⟩

theorem inlined_eq_nil {text : List Char} : inlined text = [] ↔ text = [] := by
  rw [inlined, List.map_eq_nil_iff, normalizeBreaks_eq_nil]

/-- The first character is read as it is, or as a blank. -/
theorem inlined_cons (char : Char) (text : List Char) :
    (char = '\r' ∧ inlined (char :: text) = ' ' :: (breaksFrom true text).map blank) ∨
      inlined (char :: text) = blank char :: inlined text := by
  by_cases isReturn : char = '\r'
  · exact .inl ⟨isReturn, by subst isReturn; rfl⟩
  · have noReturn : (char == '\r') = false := beq_eq_false_iff_ne.mpr isReturn
    refine .inr ?_
    rw [inlined, normalizeBreaks, breaksFrom, if_neg fun both => Bool.noConfusion both.2,
      if_neg isReturn, noReturn]
    rfl

/-- A value is read as something if it is something. -/
theorem filter_map_inlined (value : Option (List Char)) :
    (value.map inlined).filter (· ≠ []) = (value.filter (· ≠ [])).map inlined := by
  cases value with
  | none => rfl
  | some text =>
      by_cases empty : text = []
      · rw [empty]
        rfl
      · have some : inlined text ≠ [] := fun none => empty (inlined_eq_nil.mp none)
        rw [Option.map_some, Option.filter_some_pos (by simpa using some),
          Option.filter_some_pos (by simpa using empty), Option.map_some]

theorem filter_inlined_eq_self_iff {value : Option (List Char)} :
    (value.filter (· ≠ [])).map inlined = value ↔ ∀ text ∈ value, text ≠ [] ∧ OneLine text := by
  cases value with
  | none => simp
  | some text =>
      cases text with
      | nil => simp
      | cons char text =>
          rw [Option.filter_some_pos (by simp), Option.map_some, Option.some.injEq, inlined_eq_self]
          simp

/-! ### Attributes -/

/-- Where the names are different, their order does not matter. -/
theorem lookup_of_perm {α : Type} {fields others : List (String × α)}
    (distinct : (fields.map Prod.fst).Nodup) (perm : fields.Perm others) (name : String) :
    fields.lookup name = others.lookup name := by
  induction perm with
  | nil => rfl
  | cons field _ ih =>
      rw [List.map_cons, List.nodup_cons] at distinct
      obtain ⟨key, value⟩ := field
      rw [List.lookup_cons, List.lookup_cons, ih distinct.2]
  | swap first second rest =>
      obtain ⟨key, value⟩ := first
      obtain ⟨other, otherValue⟩ := second
      have different : other ≠ key := by
        rintro rfl
        simp at distinct
      simp only [List.lookup_cons]
      by_cases isKey : name = key
      · rw [isKey, beq_self_eq_true, beq_eq_false_iff_ne.mpr (Ne.symm different)]
      · rw [beq_eq_false_iff_ne.mpr isKey]
  | trans former _ firstHypothesis secondHypothesis =>
      rw [firstHypothesis distinct, secondHypothesis ((former.map _).nodup_iff.mp distinct)]

/-- An attribute that is there or not. -/
theorem lookup_optional {α : Type} (key name : String) (value : Option α) :
    (value.map fun value => (key, value)).toList.lookup name =
      if name == key then value else none := by
  cases value with
  | none => exact (ite_self none).symm
  | some value =>
      rw [Option.map_some, Option.toList_some, List.lookup_cons, List.lookup_nil]
      cases name == key with
      | true => rfl
      | false => rfl

/-- The attributes that have something in them. -/
def present {α : Type} (fields : List (String × Option α)) : List (String × α) :=
  fields.filterMap fun field => field.2.map fun value => (field.1, value)

section Present

variable {α : Type} {fields : List (String × Option α)}

theorem present_cons (key : String) (value : Option α) (fields : List (String × Option α)) :
    present ((key, value) :: fields) =
      (value.map fun value => (key, value)).toList ++ present fields := by
  cases value with
  | none => rfl
  | some value => rfl

theorem map_present_cons {β : Type} (change : String × α → β) (key : String) (value : Option α)
    (fields : List (String × Option α)) :
    (present ((key, value) :: fields)).map change =
      (value.map fun value => change (key, value)).toList ++ (present fields).map change := by
  cases value with
  | none => rfl
  | some value => rfl

theorem names_present (fields : List (String × Option α)) :
    ((present fields).map Prod.fst).Sublist (fields.map Prod.fst) := by
  induction fields with
  | nil => exact List.Sublist.refl _
  | cons field fields ih =>
      obtain ⟨key, value⟩ := field
      rw [present_cons]
      cases value with
      | none => exact ih.cons key
      | some value => exact ih.cons_cons key

/-- An attribute is there if it has something in it. -/
theorem lookup_present (distinct : (fields.map Prod.fst).Nodup) (name : String) :
    (present fields).lookup name = (fields.lookup name).join := by
  induction fields with
  | nil => rfl
  | cons field fields ih =>
      obtain ⟨key, value⟩ := field
      rw [List.map_cons, List.nodup_cons] at distinct
      have later := ih distinct.2
      rw [present_cons, List.lookup_append, lookup_optional, List.lookup_cons, later]
      cases isKey : name == key with
      | false => rfl
      | true =>
          have absent : fields.lookup name = none := by
            refine List.lookup_eq_none_iff.mpr fun other listed => bne_iff_ne.mpr fun same => ?_
            refine distinct.1 (List.mem_map.mpr ⟨other, listed, ?_⟩)
            rw [← same, beq_iff_eq.mp isKey]
          rw [absent, if_pos rfl]
          exact Option.or_none

theorem all_present (holds : α → Bool) (fields : List (String × Option α)) :
    ((present fields).all fun field => holds field.2) =
      fields.all fun field => field.2.all holds := by
  induction fields with
  | nil => rfl
  | cons field fields ih =>
      obtain ⟨key, value⟩ := field
      rw [present_cons, List.all_append, ih, List.all_cons]
      cases value with
      | none => rfl
      | some value => exact congrArg (· && _) (Bool.and_true _)

end Present

/-- Attributes have values if each of them has one. -/
theorem attributeValues_map {write read : List Char → List Char}
    (reads : ∀ text, attributeValue (write text) =
      if text.all isChar = true then some (read text) else none)
    (fields : List (String × List Char)) :
    Markup.attributeValues (fields.map fun field => (field.1, write field.2)) =
      if (fields.all fun field => field.2.all isChar) = true then
        some (fields.map fun field => (field.1, read field.2))
      else none := by
  induction fields with
  | nil => rfl
  | cons field fields ih =>
      rw [List.map_cons, Markup.attributeValues, reads, ih, List.all_cons]
      cases field.2.all isChar with
      | false => rfl
      | true =>
          rw [if_pos rfl, Bool.true_and]
          split_ifs
          · rfl
          · rfl

theorem lookup_map {α β : Type} (change : α → β) (fields : List (String × α)) (name : String) :
    (fields.map fun field => (field.1, change field.2)).lookup name =
      (fields.lookup name).map change := by
  induction fields with
  | nil => rfl
  | cons field fields ih =>
      obtain ⟨key, value⟩ := field
      rw [List.map_cons, List.lookup_cons, List.lookup_cons, ih]
      cases name == key with
      | true => rfl
      | false => rfl

/-- Attributes in a tag, with a blank between each two. -/
theorem flatMap_renderAttribute {fields : List (String × List Char)} (some : fields ≠ []) :
    fields.flatMap renderAttribute =
      ' ' :: [' '].intercalate (fields.map fun field =>
        field.1.toList ++ ['=', '"'] ++ field.2 ++ ['"']) := by
  induction fields with
  | nil => exact absurd rfl some
  | cons field fields ih =>
      cases fields with
      | nil => simp [renderAttribute]
      | cons next fields =>
          rw [List.flatMap_cons, ih (List.cons_ne_nil _ _), List.map_cons,
            List.map_cons, List.map_cons, List.intercalate_cons_cons]
          simp [renderAttribute]

/-! ### Names of elements -/

namespace Markup

mutual

/-- The names of the elements, in the order of the document. -/
def tagNames : Markup → List String
  | .element tagName _ content => tagName :: tagNamesAll content
  | _ => []

def tagNamesAll : List Markup → List String
  | [] => []
  | item :: items => item.tagNames ++ tagNamesAll items

end

theorem tagNamesAll_append (first second : List Markup) :
    tagNamesAll (first ++ second) = tagNamesAll first ++ tagNamesAll second := by
  induction first with
  | nil => rfl
  | cons item items ih =>
      rw [List.cons_append, tagNamesAll, tagNamesAll, ih, List.append_assoc]

mutual

/-- A node has the names of its markup. -/
theorem filterMap_inclusive : ∀ {item : Markup} {node : Node}, item.node = some node →
    node.inclusive.filterMap Node.tagName? = item.tagNames
  | .text raw, node, isNode => by
      obtain ⟨data, -, rfl⟩ := Option.map_eq_some_iff.mp isNode
      rfl
  | .cdata raw, node, isNode => by
      obtain ⟨data, -, rfl⟩ := Option.map_eq_some_iff.mp isNode
      rfl
  | .comment raw, node, isNode => by
      obtain ⟨data, -, rfl⟩ := Option.map_eq_some_iff.mp isNode
      rfl
  | .element tagName attributes content, node, isNode => by
      obtain ⟨values, -, inContent⟩ := Option.bind_eq_some_iff.mp isNode
      obtain ⟨childNodes, areNodes, rfl⟩ := Option.map_eq_some_iff.mp inContent
      rw [Node.inclusive, List.filterMap_cons, tagNames, filterMap_descendants areNodes]
      rfl

theorem filterMap_descendants : ∀ {items : List Markup} {childNodes : List Node},
    nodes items = some childNodes →
    (Node.descendants childNodes).filterMap Node.tagName? = tagNamesAll items
  | [], childNodes, areNodes => by
      cases areNodes
      rfl
  | item :: items, childNodes, areNodes => by
      obtain ⟨first, isNode, more⟩ := Option.bind_eq_some_iff.mp areNodes
      obtain ⟨others, areOthers, rfl⟩ := Option.map_eq_some_iff.mp more
      rw [Node.descendants, List.filterMap_append, tagNamesAll, filterMap_inclusive isNode,
        filterMap_descendants areOthers]

end

end Markup

/-- A document without elements of a name. -/
theorem querySelector_eq_none {item : Markup} {root : Node} (isNode : item.node = some root)
    {name : String} (absent : name ∉ item.tagNames) : querySelector root name = none := by
  refine List.find?_eq_none.mpr fun node inside isNamed => absent ?_
  rw [← Markup.filterMap_inclusive isNode]
  exact List.mem_filterMap.mpr ⟨node, inside, beq_iff_eq.mp isNamed⟩

end Xml
