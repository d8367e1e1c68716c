import MindMapVault.Foundations.Xml

/-!
# A parser of XML documents

A parser for documents whose names are letters, and the proof that it conforms: the markup of
a document is taken item by item, and what is taken is the node of the item.
-/

namespace Xml

open Markup (isLetter render renderAll IsName)

/-- What comes after a mark. -/
def after? (mark text : List Char) : Option (List Char) :=
  if mark.isPrefixOf text then some (text.drop mark.length) else none

/-- What comes before a mark, and what comes after it. -/
def upTo (mark : List Char) : List Char → Option (List Char × List Char)
  | [] => none
  | char :: text =>
      match after? mark (char :: text) with
      | some rest => some ([], rest)
      | none => (upTo mark text).map fun taken => (char :: taken.1, taken.2)

/-- The attributes of a tag, and what comes after them. -/
def takeAttributes : Nat → List Char → Option (List (String × List Char) × List Char)
  | 0, text => some ([], text)
  | fuel + 1, text =>
      match after? [' '] text with
      | none => some ([], text)
      | some rest =>
          (after? ['=', '"'] (rest.dropWhile isLetter)).bind fun quoted =>
            (upTo ['"'] quoted).bind fun taken =>
              (attributeValue taken.1).bind fun value =>
                (takeAttributes fuel taken.2).map fun others =>
                  ((String.ofList (rest.takeWhile isLetter), value) :: others.1, others.2)

mutual

/-- One item of what stands in an element, and what comes after it. -/
def takeItem : Nat → List Char → Option (Node × List Char)
  | 0, _ => none
  | fuel + 1, text =>
      match after? commentStart text with
      | some rest =>
          (upTo commentEnd rest).bind fun taken =>
            (sectionData taken.1).map fun data => (.comment data, taken.2)
      | none =>
      match after? sectionStart text with
      | some rest =>
          (upTo sectionEnd rest).bind fun taken =>
            (sectionData taken.1).map fun data => (.cdata data, taken.2)
      | none =>
      match after? ['<'] text with
      | some rest =>
          let tagName := rest.takeWhile isLetter
          (takeAttributes rest.length (rest.dropWhile isLetter)).bind fun tag =>
            match after? ['/', '>'] tag.2 with
            | some rest => some (.element (String.ofList tagName) tag.1 [], rest)
            | none =>
                (after? ['>'] tag.2).bind fun rest =>
                  (takeItems fuel rest).bind fun content =>
                    (after? ('<' :: '/' :: (tagName ++ ['>'])) content.2).map fun rest =>
                      (.element (String.ofList tagName) tag.1 content.1, rest)
      | none =>
          (characterData (text.takeWhile (· ≠ '<'))).map fun data =>
            (.text data, text.dropWhile (· ≠ '<'))

/-- The items up to the closing tag, and what comes after them. -/
def takeItems : Nat → List Char → Option (List Node × List Char)
  | 0, _ => none
  | fuel + 1, text =>
      match after? ['<', '/'] text with
      | some _ => some ([], text)
      | none =>
          (takeItem fuel text).bind fun first =>
            (takeItems fuel first.2).map fun others => (first.1 :: others.1, others.2)

end

/-- The root of a document. -/
def takeDocument (text : List Char) : Option Node :=
  let text := ((after? declaration text).getD text).dropWhile isBlank
  (takeItem text.length text).bind fun taken =>
    if (taken.2.dropWhile isBlank).isEmpty then some taken.1 else none

/-- `parseFromString`. -/
def parse (text : List Char) : Node := (takeDocument text).getD (.element "parsererror" [] [])

section Marks

variable {mark text raw rest : List Char}

theorem after?_append (mark rest : List Char) : after? mark (mark ++ rest) = some rest := by
  rw [after?, if_pos (List.isPrefixOf_iff_prefix.mpr (List.prefix_append _ _)), List.drop_left]

theorem after?_eq_none : after? mark text = none ↔ ¬mark <+: text := by
  rw [after?, ← List.isPrefixOf_iff_prefix]
  split_ifs with isPrefix
  · simp [isPrefix]
  · simp only [isPrefix, not_false_eq_true, Bool.false_eq_true]

/-- A text that begins with another character than the mark. -/
theorem after?_of_ne {first other : Char} (different : first ≠ other) :
    after? (first :: mark) (other :: text) = none := by
  rw [after?_eq_none, List.cons_prefix_cons]
  exact fun both => different both.1

theorem after?_cons (first : Char) (mark text : List Char) :
    after? (first :: mark) (first :: text) = after? mark text := by
  rw [after?, after?, List.isPrefixOf, beq_self_eq_true, Bool.true_and, List.length_cons,
    List.drop_succ_cons]

/-- Where the mark begins nowhere in a text and the mark, but at its end. -/
theorem upTo_of_forall (nonempty : mark ≠ [])
    (first : ∀ front back, raw = front ++ back → back ≠ [] → ¬mark <+: back ++ (mark ++ rest)) :
    upTo mark (raw ++ (mark ++ rest)) = some (raw, rest) := by
  induction raw with
  | nil =>
      obtain ⟨head, tail, rfl⟩ := List.exists_cons_of_ne_nil nonempty
      have found := after?_append (head :: tail) rest
      rw [List.cons_append] at found
      rw [List.nil_append, List.cons_append, upTo, found]
  | cons char raw ih =>
      have absent : after? mark (char :: (raw ++ (mark ++ rest))) = none :=
        after?_eq_none.mpr (first [] (char :: raw) rfl (List.cons_ne_nil _ _))
      have later := ih fun front back split =>
        first (char :: front) back (by rw [split, List.cons_append])
      rw [List.cons_append, upTo, absent, later]
      rfl

/-- The first character of a mark is not in the text. -/
theorem upTo_of_not_mem {first : Char} (absent : first ∉ raw) :
    upTo (first :: mark) (raw ++ (first :: mark ++ rest)) = some (raw, rest) := by
  apply upTo_of_forall (List.cons_ne_nil _ _)
  intro front back split nonempty isPrefix
  obtain ⟨char, others, rfl⟩ := List.exists_cons_of_ne_nil nonempty
  rw [List.cons_append, List.cons_prefix_cons] at isPrefix
  apply absent
  rw [split, isPrefix.1]
  exact List.mem_append_right _ List.mem_cons_self

/-- A section ends where it is closed first. -/
theorem upTo_section (absent : ¬sectionEnd <:+: raw) :
    upTo sectionEnd (raw ++ (sectionEnd ++ rest)) = some (raw, rest) := by
  apply upTo_of_forall (by decide)
  intro front back split nonempty isPrefix
  rw [sectionEnd] at isPrefix absent
  match back, nonempty with
  | [first], _ =>
      simp only [List.cons_append, List.nil_append, List.cons_prefix_cons] at isPrefix
      exact absurd isPrefix.2.2.1 (by decide)
  | [first, second], _ =>
      simp only [List.cons_append, List.nil_append, List.cons_prefix_cons] at isPrefix
      exact absurd isPrefix.2.2.1 (by decide)
  | first :: second :: third :: others, _ =>
      simp only [List.cons_append, List.cons_prefix_cons] at isPrefix
      obtain ⟨rfl, rfl, rfl, -⟩ := isPrefix
      exact absent ⟨front, others, by
        rw [split]; simp only [List.append_assoc, List.cons_append, List.nil_append]⟩

end Marks

section Attributes

theorem IsName.letters {name : String} (isName : IsName name) (rest : List Char)
    (other : rest.head?.any isLetter = false) :
    (name.toList ++ rest).takeWhile isLetter = name.toList ∧
      (name.toList ++ rest).dropWhile isLetter = rest :=
  Text.takeWhile_append_other isLetter name.toList rest isName.2 other

theorem IsName.first {name : String} (isName : IsName name) :
    ∃ first others, name.toList = first :: others ∧ isLetter first = true := by
  obtain ⟨first, others, shape⟩ := List.exists_cons_of_ne_nil
    (fun empty => isName.1 (String.toList_eq_nil_iff.mp empty))
  refine ⟨first, others, shape, List.all_eq_true.mp isName.2 first ?_⟩
  rw [shape]
  exact List.mem_cons_self

/-- The attributes of a tag are read with their values. -/
theorem takeAttributes_render : ∀ (attributes : List (String × List Char)) (fuel : Nat)
    (rest : List Char), (∀ field ∈ attributes, Markup.AttributeGrammar field) →
    attributes.length ≤ fuel → after? [' '] rest = none →
    takeAttributes fuel (attributes.flatMap renderAttribute ++ rest) =
      (Markup.attributeValues attributes).map fun values => (values, rest)
  | [], fuel, rest, _, _, ends => by
      cases fuel with
      | zero => rfl
      | succ fuel =>
          rw [List.flatMap_nil, List.nil_append, takeAttributes, ends]
          rfl
  | (name, raw) :: attributes, fuel + 1, rest, each, enough, ends => by
      obtain ⟨grammar, others⟩ := List.forall_mem_cons.mp each
      have later := takeAttributes_render attributes fuel rest others
        (Nat.le_of_succ_le_succ enough) ends
      obtain ⟨taken, dropped⟩ := IsName.letters grammar.name
        ('=' :: '"' :: (raw ++ ('"' :: (attributes.flatMap renderAttribute ++ rest)))) rfl
      have quoted : after? ['=', '"'] ('=' :: '"' ::
          (raw ++ ('"' :: (attributes.flatMap renderAttribute ++ rest)))) =
          some (raw ++ ('"' :: (attributes.flatMap renderAttribute ++ rest))) :=
        after?_append ['=', '"'] _
      have whole : ((name, raw) :: attributes).flatMap renderAttribute ++ rest =
          [' '] ++ (name.toList ++ ('=' :: '"' ::
            (raw ++ ('"' :: (attributes.flatMap renderAttribute ++ rest))))) := by
        simp only [List.flatMap_cons, renderAttribute, List.append_assoc, List.cons_append,
          List.nil_append]
      have value : upTo ['"'] (raw ++ ('"' :: (attributes.flatMap renderAttribute ++ rest))) =
          some (raw, attributes.flatMap renderAttribute ++ rest) :=
        upTo_of_not_mem grammar.noQuote
      rw [whole, takeAttributes, after?_append]
      simp only [taken, dropped, quoted, value, later, Option.bind_some, String.ofList_toList]
      rw [Markup.attributeValues]
      cases attributeValue raw with
      | none => rfl
      | some decoded => simp only [Option.bind_eq_bind, Option.bind_some, Option.map_map]; rfl
  | _ :: _, 0, _, _, enough, _ => absurd enough (Nat.not_succ_le_zero _)

theorem length_le_flatMap_renderAttribute (attributes : List (String × List Char)) :
    attributes.length ≤ (attributes.flatMap renderAttribute).length := by
  induction attributes with
  | nil => exact Nat.le_refl 0
  | cons field attributes ih =>
      rw [List.flatMap_cons, renderAttribute, List.cons_append, List.length_cons,
        List.length_cons, List.length_append]
      omega

end Attributes

section Items

mutual

/-- The steps that a parser takes over markup. -/
def weight : Markup → Nat
  | .element _ _ content => weightAll content + 1
  | .text _ | .cdata _ | .comment _ => 1

def weightAll : List Markup → Nat
  | [] => 1
  | item :: items => weight item + weightAll items

end

theorem one_le_weight (item : Markup) : 1 ≤ weight item := by
  cases item <;> simp [weight]

theorem one_le_weightAll (items : List Markup) : 1 ≤ weightAll items := by
  cases items with
  | nil => simp [weightAll]
  | cons item items =>
      have first := one_le_weight item
      simp only [weightAll]
      omega

/-- What an item is written as is no closing tag. -/
theorem after?_render {item : Markup} (grammar : item.Grammar) (rest : List Char) :
    after? ['<', '/'] (item.render ++ rest) = none := by
  cases item with
  | text raw =>
      obtain ⟨nonempty, noTag, -⟩ := grammar
      obtain ⟨first, others, rfl⟩ := List.exists_cons_of_ne_nil nonempty
      rw [render]
      exact after?_of_ne (List.ne_of_not_mem_cons noTag)
  | cdata raw =>
      rw [render]
      exact (after?_cons '<' _ _).trans (after?_of_ne (by decide))
  | comment raw =>
      rw [render]
      exact (after?_cons '<' _ _).trans (after?_of_ne (by decide))
  | element tagName attributes content =>
      obtain ⟨first, others, shape, letter⟩ := IsName.first grammar.1
      rw [render, elementText, shape]
      refine (after?_cons '<' _ _).trans (after?_of_ne ?_)
      rintro rfl
      exact absurd letter (by decide)

theorem render_ne_nil {item : Markup} (grammar : item.Grammar) : item.render ≠ [] := by
  cases item with
  | text raw =>
      rw [render]
      exact grammar.1
  | cdata raw =>
      rw [render]
      exact List.cons_ne_nil _ _
  | comment raw =>
      rw [render]
      exact List.cons_ne_nil _ _
  | element tagName attributes content =>
      rw [render]
      exact List.cons_ne_nil _ _

theorem isEmpty_renderAll {items : List Markup} (grammar : Markup.GrammarAll items) :
    (renderAll items).isEmpty = items.isEmpty := by
  cases items with
  | nil =>
      rw [renderAll]
      rfl
  | cons item items =>
      rw [renderAll]
      exact List.isEmpty_eq_false_iff.mpr
        (List.append_ne_nil_of_left_ne_nil (render_ne_nil grammar.1) _)

/-- What an element is written as begins with no other mark. -/
theorem after?_element {tagName : String} (isName : IsName tagName)
    (mark : Char) (noLetter : isLetter mark = false) (marks text : List Char) :
    after? ('<' :: mark :: marks) ('<' :: (tagName.toList ++ text)) = none := by
  obtain ⟨first, others, shape, letter⟩ := IsName.first isName
  rw [after?_cons, shape, List.cons_append]
  apply after?_of_ne
  rintro rfl
  rw [letter] at noLetter
  exact Bool.noConfusion noLetter

/-- The tag of an element is read with the values of its attributes. -/
theorem takeItem_tag {tagName : String} {attributes : List (String × List Char)} (fuel : Nat)
    (isName : IsName tagName) (each : ∀ field ∈ attributes, Markup.AttributeGrammar field)
    {mark : Char} (noBlank : ' ' ≠ mark) (noLetter : isLetter mark = false) (tail : List Char) :
    takeItem (fuel + 1)
        ('<' :: (tagName.toList ++ (attributes.flatMap renderAttribute ++ mark :: tail))) =
      (Markup.attributeValues attributes).bind fun values =>
        match after? ['/', '>'] (mark :: tail) with
        | some rest => some (.element tagName values [], rest)
        | none =>
            (after? ['>'] (mark :: tail)).bind fun rest =>
              (takeItems fuel rest).bind fun content =>
                (after? ('<' :: '/' :: (tagName.toList ++ ['>'])) content.2).map fun rest =>
                  (.element tagName values content.1, rest) := by
  have stops : (attributes.flatMap renderAttribute ++ mark :: tail).head?.any isLetter = false := by
    cases attributes with
    | nil => exact noLetter
    | cons field attributes => rfl
  have short : attributes.length ≤
      (tagName.toList ++ (attributes.flatMap renderAttribute ++ mark :: tail)).length := by
    have each := length_le_flatMap_renderAttribute attributes
    rw [List.length_append, List.length_append]
    omega
  obtain ⟨taken, dropped⟩ := IsName.letters isName _ stops
  have tag := takeAttributes_render attributes _ (mark :: tail) each short (after?_of_ne noBlank)
  have opens := after?_append ['<']
      (tagName.toList ++ (attributes.flatMap renderAttribute ++ mark :: tail))
  rw [List.singleton_append] at opens
  have noComment := after?_element isName '!' rfl ['-', '-']
    (attributes.flatMap renderAttribute ++ mark :: tail)
  have noSection := after?_element isName '!' rfl ['[', 'C', 'D', 'A', 'T', 'A', '[']
    (attributes.flatMap renderAttribute ++ mark :: tail)
  rw [takeItem, commentStart, sectionStart, noComment, noSection, opens]
  simp only [taken, dropped, tag, String.ofList_toList]
  cases Markup.attributeValues attributes with
  | none => rfl
  | some values => rfl

/-- A text is not cut off by what comes after it. -/
def Ends (item : Markup) (rest : List Char) : Prop :=
  item.isText = true → rest.head?.any (· ≠ '<') = false

theorem ends_renderAll {item : Markup} {items : List Markup}
    (grammar : Markup.GrammarAll (item :: items)) (rest : List Char) :
    Ends item (renderAll items ++ '<' :: rest) := by
  intro isText
  obtain ⟨-, alone, later⟩ := grammar
  cases items with
  | nil =>
      rw [renderAll]
      rfl
  | cons next items =>
      have other := alone isText
      rw [renderAll]
      cases next with
      | text raw => exact absurd other (by simp only [List.head?_cons, Option.any_some,
          Markup.isText, Bool.true_eq_false, not_false_eq_true])
      | cdata raw =>
          rw [render]
          rfl
      | comment raw =>
          rw [render]
          rfl
      | element tagName attributes content =>
          rw [render]
          rfl

mutual

/-- An item is read as its node. -/
theorem takeItem_render : ∀ (item : Markup) (fuel : Nat) (rest : List Char), item.Grammar →
    weight item ≤ fuel → Ends item rest →
    takeItem fuel (item.render ++ rest) = item.node.map fun node => (node, rest)
  | .text raw, fuel + 1, rest, grammar, _, ends => by
      obtain ⟨nonempty, noTag, -⟩ := grammar
      obtain ⟨first, others, rfl⟩ := List.exists_cons_of_ne_nil nonempty
      have other : '<' ≠ first := List.ne_of_not_mem_cons noTag
      have whole : ∀ char ∈ first :: others, decide (char ≠ '<') = true := by
        intro char listed
        refine decide_eq_true fun same => noTag ?_
        rwa [same] at listed
      obtain ⟨taken, dropped⟩ := Text.takeWhile_append_other (· ≠ '<') (first :: others) rest
        (List.all_eq_true.mpr whole) (ends rfl)
      have noComment : after? commentStart (first :: others ++ rest) = none := after?_of_ne other
      have noSection : after? sectionStart (first :: others ++ rest) = none := after?_of_ne other
      have noElement : after? ['<'] (first :: others ++ rest) = none := after?_of_ne other
      rw [render, takeItem, noComment, noSection, noElement]
      simp only [taken, dropped, Markup.node, Option.map_map]
      rfl
  | .cdata raw, fuel + 1, rest, grammar, _, _ => by
      have whole : (Markup.cdata raw).render ++ rest =
          sectionStart ++ (raw ++ (sectionEnd ++ rest)) := by
        rw [render, cdataText, List.append_assoc, List.append_assoc]
      have noComment : after? commentStart (sectionStart ++ (raw ++ (sectionEnd ++ rest))) = none :=
        (after?_cons '<' _ _).trans ((after?_cons '!' _ _).trans (after?_of_ne (by decide)))
      rw [whole, takeItem, noComment, after?_append]
      simp only [upTo_section grammar, Option.bind_some, Markup.node, Option.map_map]
      rfl
  | .comment raw, fuel + 1, rest, grammar, _, _ => by
      have whole : (Markup.comment raw).render ++ rest =
          commentStart ++ (raw ++ (commentEnd ++ rest)) := by
        rw [render, commentText, List.append_assoc, List.append_assoc]
      have closed : upTo commentEnd (raw ++ (commentEnd ++ rest)) = some (raw, rest) :=
        upTo_of_not_mem grammar
      rw [whole, takeItem, after?_append]
      simp only [closed, Option.bind_some, Markup.node, Option.map_map]
      rfl
  | .element tagName attributes [], fuel + 1, rest, grammar, _, _ => by
      obtain ⟨isName, -, each, -⟩ := grammar
      have closing : after? ['/', '>'] ('/' :: '>' :: rest) = some rest :=
          after?_append ['/', '>'] rest
      have read := takeItem_tag fuel isName each (by decide : ' ' ≠ '/') rfl ('>' :: rest)
      rw [closing] at read
      rw [render, elementText, renderAll]
      simp only [List.isEmpty_nil, if_true, List.cons_append, List.append_assoc,
        List.nil_append, read, Markup.node,
        Markup.nodes]
      cases Markup.attributeValues attributes with
      | none => rfl
      | some values => rfl
  | .element tagName attributes (item :: items), fuel + 1, rest, grammar, enough, _ => by
      obtain ⟨isName, -, each, inner⟩ := grammar
      rw [weight] at enough
      have content := takeItems_renderAll (item :: items) fuel (tagName.toList ++ '>' :: rest) inner
        (Nat.le_of_succ_le_succ enough)
      have opening : after? ['>'] ('>' :: (renderAll (item :: items) ++
          '<' :: '/' :: (tagName.toList ++ '>' :: rest))) =
          some (renderAll (item :: items) ++ '<' :: '/' :: (tagName.toList ++ '>' :: rest)) :=
        after?_append ['>'] _
      have closing : after? ('<' :: '/' :: (tagName.toList ++ ['>']))
          ('<' :: '/' :: (tagName.toList ++ '>' :: rest)) = some rest := by
        have split : tagName.toList ++ '>' :: rest = (tagName.toList ++ ['>']) ++ rest := by
          rw [List.append_assoc, List.singleton_append]
        rw [after?_cons, after?_cons, split, after?_append]
      have read := takeItem_tag fuel isName each (by decide : ' ' ≠ '>') rfl
        (renderAll (item :: items) ++ '<' :: '/' :: (tagName.toList ++ '>' :: rest))
      have goesOn : after? ['/', '>'] ('>' :: (renderAll (item :: items) ++
          '<' :: '/' :: (tagName.toList ++ '>' :: rest))) = none := after?_of_ne (by decide)
      rw [goesOn, opening] at read
      have some : (renderAll (item :: items)).isEmpty = false := isEmpty_renderAll inner
      rw [render, elementText, some]
      simp only [Bool.false_eq_true, if_false, List.cons_append, List.append_assoc,
        List.nil_append, read, Markup.node, content, Option.bind_some]
      cases Markup.attributeValues attributes with
      | none => rfl
      | some values =>
          cases Markup.nodes (item :: items) with
          | none => rfl
          | some nodes =>
              simp only [Option.map_some, Option.bind_some, closing, Option.bind_eq_bind]
  | item, 0, _, _, enough, _ =>
      absurd (one_le_weight item) (Nat.not_le.mpr (Nat.lt_succ_of_le enough))

/-- The items of an element are read up to its closing tag. -/
theorem takeItems_renderAll : ∀ (items : List Markup) (fuel : Nat) (rest : List Char),
    Markup.GrammarAll items → weightAll items ≤ fuel →
    takeItems fuel (renderAll items ++ '<' :: '/' :: rest) =
      (Markup.nodes items).map fun nodes => (nodes, '<' :: '/' :: rest)
  | [], fuel + 1, rest, _, _ => by
      have closes : after? ['<', '/'] ('<' :: '/' :: rest) = some rest :=
        after?_append ['<', '/'] rest
      rw [renderAll, List.nil_append, takeItems, closes, Markup.nodes]
      rfl
  | item :: items, fuel + 1, rest, grammar, enough => by
      have first := one_le_weight item
      have others := one_le_weightAll items
      rw [weightAll] at enough
      have here := takeItem_render item fuel (renderAll items ++ '<' :: '/' :: rest) grammar.1
        (by omega) (ends_renderAll grammar _)
      have later := takeItems_renderAll items fuel rest grammar.2.2 (by omega)
      rw [renderAll, List.append_assoc, takeItems, after?_render grammar.1]
      simp only [here, Markup.nodes]
      cases item.node with
      | none => rfl
      | some node =>
          simp only [Option.map_some, Option.bind_some, later, Option.bind_eq_bind, Option.map_map]
          rfl
  | items, 0, _, _, enough =>
      absurd (one_le_weightAll items) (Nat.not_le.mpr (Nat.lt_succ_of_le enough))

end

mutual

/-- A parser takes no more steps than there are characters. -/
theorem weight_le_length : ∀ item : Markup, item.Grammar → weight item ≤ item.render.length
  | .text raw, grammar => by
      rw [weight]
      exact List.length_pos_iff.mpr (render_ne_nil grammar)
  | .cdata raw, grammar => by
      rw [weight]
      exact List.length_pos_iff.mpr (render_ne_nil grammar)
  | .comment raw, grammar => by
      rw [weight]
      exact List.length_pos_iff.mpr (render_ne_nil grammar)
  | .element tagName attributes content, grammar => by
      have inner := weightAll_le_length content grammar.2.2.2
      rw [weight, render, elementText]
      split_ifs with empty
      · rw [List.isEmpty_iff.mp empty, List.length_nil] at inner
        simp only [List.length_cons, List.length_append, List.length_nil]
        omega
      · simp only [List.length_cons, List.length_append, List.length_nil]
        omega

theorem weightAll_le_length : ∀ items : List Markup, Markup.GrammarAll items →
    weightAll items ≤ (renderAll items).length + 1
  | [], _ => by
      rw [weightAll]
      exact Nat.le_add_left 1 _
  | item :: items, grammar => by
      have here := weight_le_length item grammar.1
      have later := weightAll_le_length items grammar.2.2
      rw [weightAll, renderAll, List.length_append]
      omega

end

end Items

section Document

theorem dropWhile_isBlank {blanks : List Char} (blank : blanks.all isBlank = true)
    (rest : List Char) : (blanks ++ rest).dropWhile isBlank = rest.dropWhile isBlank :=
  List.dropWhile_append_of_pos (List.all_eq_true.mp blank)

/-- The root of a document is read as its node. -/
theorem takeDocument_render {document : Document} (grammar : document.Grammar) :
    takeDocument document.render = document.root.node := by
  obtain ⟨⟨tagName, attributes, content, isElement⟩, markup, before, after⟩ := grammar
  have shape : document.root.render ++ document.after = '<' :: (tagName.toList ++
      (attributes.flatMap renderAttribute ++ ((if (renderAll content).isEmpty then ['/', '>']
        else '>' :: (renderAll content ++ '<' :: '/' :: (tagName.toList ++ ['>']))) ++
          document.after))) := by
    rw [isElement, render, elementText]
    simp only [List.cons_append, List.append_assoc]
  have isName : IsName tagName := by
    rw [isElement] at markup
    exact markup.1
  have undeclared : after? declaration
      (document.before ++ (document.root.render ++ document.after)) = none := by
    cases blanks : document.before with
    | nil =>
        rw [List.nil_append, shape]
        exact after?_element isName '?' rfl _ _
    | cons first others =>
        rw [blanks] at before
        apply after?_of_ne
        rintro rfl
        exact absurd (List.all_eq_true.mp before '<' List.mem_cons_self) (by decide)
  have root : ((after? declaration document.render).getD document.render).dropWhile isBlank =
      document.root.render ++ document.after := by
    have body : (document.before ++ (document.root.render ++ document.after)).dropWhile isBlank =
        document.root.render ++ document.after := by
      rw [dropWhile_isBlank before, shape]
      exact List.dropWhile_cons_of_neg (by decide)
    rw [Document.render]
    split_ifs
    · rw [after?_append, Option.getD_some, body]
    · rw [List.nil_append, undeclared, Option.getD_none, body]
  have ends : Ends document.root document.after := by
    rw [isElement]
    exact fun isText => absurd isText Bool.false_ne_true
  have enough : weight document.root ≤ (document.root.render ++ document.after).length := by
    rw [List.length_append]
    exact Nat.le_add_right_of_le (weight_le_length _ markup)
  have read := takeItem_render document.root _ document.after markup enough ends
  have finished := dropWhile_isBlank after []
  rw [List.append_nil] at finished
  simp only [takeDocument, root, read]
  cases document.root.node with
  | none => rfl
  | some node =>
      simp only [Option.map_some, Option.bind_some, finished]
      rfl

/-- The parser conforms. -/
theorem conforms_parse : Conforms parse where
  accepts := by
    intro document node grammar isNode
    rw [parse, takeDocument_render grammar, isNode]
    rfl
  rejects := by
    intro document grammar isNode
    rw [parse, takeDocument_render grammar, isNode]
    rfl

end Document

end Xml
