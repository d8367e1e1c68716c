import MindMapVault.Formats.FreemindRoundTrip
import MindMapVault.Formats.FreeplaneMarkup

/-!
# Reading FreePlane files

What an import makes of an exported file, node by node. White space in a text, a colour or a
link is read as blanks, and returns in notes as line breaks.
-/

namespace MindMapVault
namespace Formats
namespace Freeplane

open Regex Xml
open Freemind (IsXmlText isWritable Admissible elementNames names_htmlMarkup)

/-! ### Elements -/

section Names

theorem names_fieldMarkup (depth : Nat) (draft : Draft) {children : List Markup}
    (inside : Markup.tagNamesAll children ⊆ elementNames) :
    (fieldMarkup depth draft children).tagNames ⊆ elementNames := by
  have notes : Markup.tagNamesAll (noteItems depth draft.node.notes) ⊆ elementNames := by
    unfold noteItems
    split_ifs
    · exact List.nil_subset _
    · simp only [Markup.tagNamesAll, Markup.tagNames, tagNamesAll_spaced, List.append_nil]
      exact List.cons_subset.mpr ⟨by decide, names_htmlMarkup _⟩
  rw [fieldMarkup, Markup.tagNames, tagNamesAll_spaced, Markup.tagNamesAll_append]
  exact List.cons_subset.mpr ⟨by decide, List.append_subset.mpr ⟨notes, inside⟩⟩

mutual

theorem names_draftMarkup (depth : Nat) : ∀ tree : RoseTree Draft,
    (draftMarkup depth tree).tagNames ⊆ elementNames
  | .node draft children => names_fieldMarkup depth draft (names_draftsMarkup _ children)

theorem names_draftsMarkup (depth : Nat) : ∀ trees : List (RoseTree Draft),
    Markup.tagNamesAll (draftsMarkup depth trees) ⊆ elementNames
  | [] => List.nil_subset _
  | tree :: trees =>
      List.append_subset.mpr ⟨names_draftMarkup depth tree, names_draftsMarkup depth trees⟩

end

/-- A file has elements of the few known names only. -/
theorem names_freeplaneDocument (root : RoseTree Draft) :
    (freeplaneDocument root).root.tagNames ⊆ elementNames := by
  rw [freeplaneDocument, Markup.tagNames, tagNamesAll_spaced, Markup.tagNamesAll,
    Markup.tagNamesAll, List.append_nil]
  exact List.cons_subset.mpr ⟨by decide, names_draftMarkup 1 root⟩

end Names

/-! ### Files -/

section Files

variable (ids : Nat → String) {parseFromString : Chars → Node} {root : MindMapTreeNode}
variable (now : Nat → Nat)

/-- What is known of the nodes is known of those with ids. -/
theorem forall_draft {holds : NodeFields → Prop} (each : ∀ node ∈ root.labels, holds node) :
    ∀ drafted ∈ (draft now root).labels, holds drafted.node := by
  rwa [← labels_draft now, List.forall_mem_map] at each

theorem all_draft (holds : NodeFields → Bool) (root : MindMapTreeNode) :
    ((draft now root).labels.all fun drafted => holds drafted.node) = root.labels.all holds := by
  rw [← labels_draft now, List.all_map]
  rfl

/-- An exported file that XML can carry is imported from its root element. -/
theorem freemindToTree_of_writable (conforms : Conforms parseFromString)
    (valid : ∀ node ∈ root.labels, IsXmlText node)
    (writable : root.labels.all isWritable = true) (title : Chars) :
    freemindToTree ids parseFromString (treeToFreeplane now root) title =
      (parseNode ids 0 (draftNode 1 (draft now root))).map fun parsed =>
        retitled title parsed.1 := by
  have isNode := node_freeplaneDocument (forall_draft now valid)
  rw [all_draft, if_pos writable] at isNode
  have read : parseFromString (treeToFreeplane now root) = mapNode (draft now root) := by
    rw [← render_freeplaneDocument]
    exact conforms.accepts _ _ (grammar_freeplaneDocument _) isNode
  have noError : Xml.querySelector (mapNode (draft now root)) "parsererror" = none :=
    querySelector_eq_none isNode fun inside =>
      absurd (names_freeplaneDocument _ inside) (by decide)
  have found : Xml.querySelector (mapNode (draft now root)) "map" =
      some (mapNode (draft now root)) := by
    rw [Xml.querySelector, mapNode, Node.inclusive]
    exact List.find?_cons_of_pos rfl
  have child : childNamed (mapNode (draft now root)) "node" =
      some (draftNode 1 (draft now root)) := by
    cases draft now root with
    | node draft children => rfl
  simp only [freemindToTree, read, noError, found, child]

/-- A file that XML cannot carry is not imported. -/
theorem freemindToTree_of_not_writable (conforms : Conforms parseFromString)
    (valid : ∀ node ∈ root.labels, IsXmlText node)
    (invalid : ¬root.labels.all isWritable = true) (title : Chars) :
    ∃ error, freemindToTree ids parseFromString (treeToFreeplane now root) title =
      .error error := by
  have isNode := node_freeplaneDocument (forall_draft now valid)
  rw [all_draft, if_neg invalid] at isNode
  have rejected := conforms.rejects _ (grammar_freeplaneDocument _) isNode
  rw [render_freeplaneDocument] at rejected
  obtain ⟨parseError, found⟩ := Option.isSome_iff_exists.mp rejected
  exact ⟨_, by simp only [freemindToTree, found]; rfl⟩

end Files

/-! ### Texts -/

/-- A text that begins with characters of classes, one after the other. -/
def startsWith : List (Char → Bool) → Chars → Bool
  | [], _ => true
  | _ :: _, [] => false
  | ok :: oks, ch :: text => ok ch && startsWith oks text

/-- The classes of the characters of a tag that begins an HTML document. -/
def htmlClasses : List (Char → Bool) :=
  [(· == '<'), fun ch => ch == 'h' || ch == 'h'.toUpper, fun ch => ch == 't' || ch == 't'.toUpper,
    fun ch => ch == 'm' || ch == 'm'.toUpper, fun ch => ch == 'l' || ch == 'l'.toUpper,
    fun ch => Ecma.isWhitespace ch || ch == '>']

section Texts

variable {text : Chars}

/-- A pattern of single characters matches exactly where a text starts with such. -/
theorem isEmpty_steps_ones (oks : List (Char → Bool)) (atStart : Bool) (text : Chars)
    (groups : Regex.Groups) :
    ((Regex.all (oks.map Regex.one)).steps atStart text groups).isEmpty = !startsWith oks text := by
  induction oks generalizing atStart text groups with
  | nil =>
      rw [List.map_nil, Regex.all, steps_nothing]
      rfl
  | cons ok oks ih =>
      cases oks with
      | nil =>
          cases text with
          | nil => simp [Regex.all, startsWith]
          | cons ch text =>
              cases matched : ok ch with
              | true => simp [Regex.all, startsWith, matched]
              | false => simp [Regex.all, startsWith, matched]
      | cons next oks =>
          have sequence : Regex.all ((ok :: next :: oks).map Regex.one) =
              .seq (Regex.one ok) (Regex.all ((next :: oks).map Regex.one)) := rfl
          rw [sequence]
          cases text with
          | nil =>
              rw [steps_seq_of_nil (steps_one_nil ok)]
              rfl
          | cons ch text =>
              rw [Regex.steps, steps_one_cons, startsWith]
              cases ok ch with
              | true =>
                  rw [if_pos rfl, List.flatMap_singleton, List.isEmpty_map, ih, Bool.true_and]
              | false => rfl

/-- Whether a trimmed text begins with the tag of an HTML document. -/
theorem test_htmlStart (begins : Ecma.Begins text) :
    htmlStart.test text = startsWith htmlClasses text := by
  obtain ⟨ch, rest, rfl, dark⟩ := begins
  have shape : htmlStart = .seq .start (.seq (Regex.many Ecma.isWhitespace)
      (Regex.all (htmlClasses.map Regex.one))) := rfl
  have white : (Regex.many Ecma.isWhitespace).steps true (ch :: rest) [] =
      [⟨[], ch :: rest, []⟩] := by
    rw [Regex.many, Regex.steps, takes_of_head _ (by rintro _ ⟨⟩; exact dark)]
    rfl
  have inside := isEmpty_steps_ones htmlClasses true (ch :: rest) []
  have first (steps : List Regex.Step) : steps.head?.isSome = !steps.isEmpty := by
    cases steps with
    | nil => rfl
    | cons step steps => rfl
  rw [shape, test_eq_isSome, match?_start, Regex.steps, white, List.flatMap_singleton,
    first, List.isEmpty_map]
  exact (congrArg (!·) inside).trans (Bool.not_not _)

/-- A character of a class that has no blank is read as itself. -/
theorem startsWith_cons_of_inlined {ok : Char → Bool} {oks : List (Char → Bool)}
    (dark : ok ' ' = false)
    (later : ∀ text, startsWith oks (inlined text) = true → startsWith oks text = true)
    (found : startsWith (ok :: oks) (inlined text) = true) :
    startsWith (ok :: oks) text = true := by
  cases text with
  | nil => exact found
  | cons ch text =>
      rcases inlined_cons ch text with ⟨-, shape⟩ | shape
      · rw [shape, startsWith, dark] at found
        exact Bool.noConfusion found
      · rw [shape, startsWith, Bool.and_eq_true] at found
        have same : Xml.blank ch = ch := by
          unfold Xml.blank at found ⊢
          split_ifs at found ⊢
          · rw [dark] at found
            exact Bool.noConfusion found.1
          · rfl
        rw [same] at found
        rw [startsWith, found.1, later text found.2]
        rfl

/-- What begins as an HTML document when it is read began as one. -/
theorem startsWith_of_inlined (found : startsWith htmlClasses (inlined text) = true) :
    startsWith htmlClasses text = true := by
  have last : ∀ text,
      startsWith [fun ch => Ecma.isWhitespace ch || ch == '>'] (inlined text) = true →
        startsWith [fun ch => Ecma.isWhitespace ch || ch == '>'] text = true := by
    intro text found
    cases text with
    | nil => exact found
    | cons ch text =>
        by_cases white : ch = '\t' ∨ ch = '\n' ∨ ch = '\r'
        · rcases white with rfl | rfl | rfl
          all_goals rfl
        · rcases inlined_cons ch text with ⟨isReturn, -⟩ | shape
          · exact absurd (.inr (.inr isReturn)) white
          · rw [shape, Xml.blank, if_neg white] at found
            exact found
  refine startsWith_cons_of_inlined (by decide) (fun text => ?_) found
  refine startsWith_cons_of_inlined (by decide) fun text => ?_
  refine startsWith_cons_of_inlined (by decide) fun text => ?_
  refine startsWith_cons_of_inlined (by decide) fun text => ?_
  exact startsWith_cons_of_inlined (by decide) last

/-- A text that is no HTML is none when it is read. -/
theorem htmlStart_inlined (begins : Ecma.Begins text) (plain : htmlStart.test text = false) :
    htmlStart.test (inlined text) = false := by
  have read : Ecma.Begins (inlined text) := by
    obtain ⟨ch, rest, rfl, dark⟩ := begins
    have other : ch ≠ '\t' ∧ ch ≠ '\n' ∧ ch ≠ '\r' := by
      refine ⟨?_, ?_, ?_⟩
      all_goals
        rintro rfl
        exact absurd dark (by decide)
    rcases inlined_cons ch rest with ⟨isReturn, -⟩ | shape
    · exact absurd isReturn other.2.2
    · exact ⟨ch, inlined rest, by rw [shape, blank_of_ne other], dark⟩
  rw [test_htmlStart begins] at plain
  rw [test_htmlStart read]
  exact Bool.eq_false_iff.mpr fun found =>
    absurd (startsWith_of_inlined found) (Bool.eq_false_iff.mp plain)

end Texts

/-! ### Fields -/

section Fields

variable {draft : Draft} {depth : Nat} {children : List Node}

/-- An attribute is read with its breaks as blanks. -/
theorem getAttribute_fieldNode (depth : Nat) (draft : Draft) (children : List Node)
    (name : String) :
    (fieldNode depth draft children).getAttribute name =
      ((fields draft).lookup name).join.map inlined := by
  rw [← lookup_present (nodup_fields draft), ← lookup_map]
  rfl

/-- The elements on the lines of an element. -/
theorem children_fieldNode (depth : Nat) (draft : Draft) (children : List Node) :
    (fieldNode depth draft children).children =
      (noteNodes depth draft.node.notes ++ children).filter (·.tagName?.isSome) :=
  elements_spacedNodes depth _

/-- A text that is no HTML is read from its attribute. -/
theorem nodeText_fieldNode (admissible : Admissible draft.node) :
    nodeText (fieldNode depth draft children) = .ok (inlined draft.node.text) := by
  have text : (fieldNode depth draft children).getAttribute "TEXT" =
      some (inlined draft.node.text) := getAttribute_fieldNode depth draft children "TEXT"
  have begins := Ecma.begins_of_trimChars admissible.textTrimmed admissible.nonempty
  have raw : ¬(inlined draft.node.text = [] ∨
      htmlStart.test (inlined draft.node.text) = true) := by
    rw [htmlStart_inlined begins admissible.plainText, inlined_eq_nil]
    simp [admissible.nonempty]
  rw [nodeText, text, Option.getD_some]
  exact if_neg raw

/-- Notes are read from the body of the rich text. -/
theorem nodeNotes_fieldNode (trimmed : Ecma.trimChars draft.node.notes = draft.node.notes)
    (noRichtext : ∀ child ∈ children, isRichcontent "NOTE" child = false) :
    nodeNotes (fieldNode depth draft children) =
      if draft.node.notes = [] then .ok []
      else stripHtml (paragraphsHtml (readLines draft.node.notes)) := by
  rw [nodeNotes, children_fieldNode, noteNodes, trimmed]
  by_cases none : draft.node.notes = []
  · have absent : (children.filter (·.tagName?.isSome)).find? (isRichcontent "NOTE") =
        Option.none := by
      refine List.find?_eq_none.mpr fun child listed => ?_
      rw [noRichtext child (List.mem_of_mem_filter listed)]
      exact Bool.false_ne_true
    rw [if_pos none, if_pos none, List.nil_append, absent]
  · have filled : ∀ lines ∈ readLines draft.node.notes, Filled lines := by
      rw [readLines, trimmed]
      exact filled_escaped (filled_paragraphLines trimmed none)
        fun line => normalizeBreaks_eq_nil.mp
    have body : (Node.element "richcontent" [("TYPE", "NOTE".toList)]
        (spacedNodes (depth + 1) [htmlNode (readLines draft.node.notes)])).querySelector "body" =
          some (bodyNode (readLines draft.node.notes)) := rfl
    rw [if_neg none, if_neg none]
    change richText _ = _
    rw [richText, body, Option.getD_some, innerHTML_bodyNode filled]

/-- What is read of a node with some notes. -/
def readFields (id : String) (node : NodeFields) (notes : Chars) : NodeFields :=
  { makeNode id (inlined node.text) with
    color := (node.color.filter (· ≠ [])).map inlined
    collapsed := node.collapsed
    side := node.side
    urls := ((((node.urls.head?.map UrlEntry.url).filter (· ≠ [])).map inlined).map
      fun link => ⟨link, []⟩).toList
    notes := notes }

/-- The fields of a node are read from its element, and its notes from their HTML. -/
theorem parseFields_fieldNode (admissible : Admissible draft.node)
    (noRichtext : ∀ child ∈ children, isRichcontent "NOTE" child = false) (id : String) :
    parseFields id (fieldNode depth draft children) =
      (if draft.node.notes = [] then .ok []
        else stripHtml (paragraphsHtml (readLines draft.node.notes))).map
          (readFields id draft.node) := by
  have value (name : String) : (fieldNode depth draft children).getAttribute name = _ :=
    getAttribute_fieldNode depth draft children name
  have colorValue : (fieldNode depth draft children).getAttribute "COLOR" =
      (draft.node.color.filter (· ≠ [])).map inlined := value "COLOR"
  have foldedValue : (fieldNode depth draft children).getAttribute "FOLDED" =
      (if draft.node.collapsed then some "true".toList else none).map inlined := value "FOLDED"
  have sideValue : (fieldNode depth draft children).getAttribute "POSITION" =
      (draft.node.side.map positionText).map inlined := value "POSITION"
  have linkValue : (fieldNode depth draft children).getAttribute "LINK" =
      (draft.node.urls.head?.map UrlEntry.url).map inlined := value "LINK"
  have backgroundValue : (fieldNode depth draft children).getAttribute "BACKGROUND_COLOR" =
      none := value "BACKGROUND_COLOR"
  have encryptedValue : (fieldNode depth draft children).getAttribute "ENCRYPTED_CONTENT" =
      none := value "ENCRYPTED_CONTENT"
  have color : (((draft.node.color.filter (· ≠ [])).map inlined).filter (· ≠ [])).or none =
      (draft.node.color.filter (· ≠ [])).map inlined := by
    rw [Option.or_none, filter_map_inlined, Option.filter_filter]
    simp
  have link := filter_map_inlined (draft.node.urls.head?.map UrlEntry.url)
  have folded : ((if draft.node.collapsed then some "true".toList else none).map inlined ==
      some "true".toList) = draft.node.collapsed := by
    cases draft.node.collapsed with
    | false => rfl
    | true => rfl
  have side : sideOf ((draft.node.side.map positionText).map inlined) = draft.node.side := by
    cases draft.node.side with
    | none => rfl
    | some side =>
        cases side with
        | left => rfl
        | right => rfl
  rw [parseFields, nodeText_fieldNode admissible,
    nodeNotes_fieldNode admissible.notesTrimmed noRichtext]
  generalize (if draft.node.notes = [] then Except.ok []
    else stripHtml (paragraphsHtml (readLines draft.node.notes))) = stripped
  cases stripped with
  | error error => rfl
  | ok notes =>
      change Except.ok _ = Except.ok _
      simp only [colorValue, foldedValue, sideValue, linkValue, backgroundValue, encryptedValue,
        folded, side, Option.filter_none, color, link]
      rfl

end Fields

end Freeplane
end Formats
end MindMapVault
