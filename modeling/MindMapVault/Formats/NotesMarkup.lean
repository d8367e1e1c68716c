import MindMapVault.Foundations.XmlText
import MindMapVault.Formats.NotesHtml

/-!
# Notes as markup

The rich text of notes as the elements it is written with, and the nodes that are read of it:
the HTML of the body is that of the lines as they were read.
-/

namespace MindMapVault
namespace Formats

open Xml (Markup Node)
open Xml.Markup (renderAll GrammarAll nodes)
open Xml.Node (serializedChar serializeAll)

/-- A text between tags, if there is one. -/
def textItem (raw : Chars) : List Markup := if raw = [] then [] else [.text raw]

/-- A text that was read, if there is one. -/
def dataNodes (data : Chars) : List Node := if data = [] then [] else [.text data]

/-- Lines with a break between each two. -/
def lineItems : List Chars → List Markup
  | [] => []
  | [line] => textItem line
  | line :: next :: lines => textItem line ++ .element "br" [] [] :: lineItems (next :: lines)

/-- Lines that were read, with a break between each two. -/
def lineNodes : List Chars → List Node
  | [] => []
  | [line] => dataNodes line
  | line :: next :: lines => dataNodes line ++ .element "br" [] [] :: lineNodes (next :: lines)

/-- The HTML of paragraphs. -/
def htmlMarkup (paragraphs : List (List Chars)) : Markup :=
  .element "html" [] [.element "head" [] [],
    .element "body" [] (paragraphs.map fun lines => .element "p" [] (lineItems lines))]

def bodyNode (paragraphs : List (List Chars)) : Node :=
  .element "body" [] (paragraphs.map fun lines => .element "p" [] (lineNodes lines))

/-- The HTML of paragraphs that were read. -/
def htmlNode (paragraphs : List (List Chars)) : Node :=
  .element "html" [] [.element "head" [] [], bodyNode paragraphs]

/-! ### Texts -/

section Texts

variable {paragraphs : List (List Chars)}

theorem renderAll_append (first second : List Markup) :
    renderAll (first ++ second) = renderAll first ++ renderAll second := by
  induction first with
  | nil => rfl
  | cons item items ih =>
      rw [List.cons_append, renderAll, renderAll, ih, List.append_assoc]

theorem serializeAll_append (first second : List Node) :
    serializeAll (first ++ second) = serializeAll first ++ serializeAll second := by
  induction first with
  | nil => rfl
  | cons item items ih =>
      rw [List.cons_append, serializeAll, serializeAll, ih, List.append_assoc]

theorem renderAll_textItem (raw : Chars) : renderAll (textItem raw) = raw := by
  unfold textItem
  split_ifs with empty
  · exact empty.symm
  · exact List.append_nil raw

theorem serializeAll_dataNodes (data : Chars) :
    serializeAll (dataNodes data) = data.flatMap serializedChar := by
  unfold dataNodes
  split_ifs with empty
  · rw [empty]
    rfl
  · exact List.append_nil _

theorem renderAll_lineItems (lines : List Chars) :
    renderAll (lineItems lines) = "<br/>".toList.intercalate lines := by
  induction lines using lineItems.induct with
  | case1 => rfl
  | case2 line => rw [lineItems, renderAll_textItem, List.intercalate_singleton]
  | case3 line next lines ih =>
      rw [lineItems, renderAll_append, renderAll_textItem, renderAll, ih,
        List.intercalate_cons_cons, List.append_assoc]
      rfl

/-- Lines are serialized with breaks between. -/
theorem serializeAll_lineNodes (lines : List Chars) :
    serializeAll (lineNodes lines) =
      "<br/>".toList.intercalate (lines.map (·.flatMap serializedChar)) := by
  induction lines using lineNodes.induct with
  | case1 => rfl
  | case2 line =>
      rw [lineNodes, serializeAll_dataNodes, List.map_singleton, List.intercalate_singleton]
  | case3 line next lines ih =>
      rw [lineNodes, serializeAll_append, serializeAll_dataNodes, serializeAll,
        ih, List.map_cons, List.map_cons, List.map_cons,
        List.intercalate_cons_cons, List.append_assoc]
      rfl

/-- There is something in the lines of a paragraph. -/
def Filled (lines : List Chars) : Prop := lines ≠ [] ∧ lines ≠ [[]]

theorem Filled.intercalate_ne_nil {between : Chars} {lines : List Chars} (filled : Filled lines)
    (some : between ≠ []) : between.intercalate lines ≠ [] := by
  cases lines with
  | nil => exact absurd rfl filled.1
  | cons line lines =>
      cases lines with
      | nil =>
          rw [List.intercalate_singleton]
          rintro rfl
          exact filled.2 rfl
      | cons next lines =>
          rw [List.intercalate_cons_cons]
          exact List.append_ne_nil_of_left_ne_nil (List.append_ne_nil_of_right_ne_nil _ some) _

theorem Filled.map {change : Chars → Chars} {lines : List Chars} (filled : Filled lines)
    (same : ∀ line, change line = [] → line = []) : Filled (lines.map change) := by
  refine ⟨fun none => filled.1 (List.map_eq_nil_iff.mp none), fun empty => filled.2 ?_⟩
  obtain ⟨line, rfl, isEmpty⟩ := List.map_eq_singleton_iff.mp empty
  rw [same line isEmpty]

theorem filled_splitOn {block : Chars} (nonempty : block ≠ []) :
    Filled (block.splitOn '\n') := by
  refine ⟨List.splitOn_ne_nil _ _, fun empty => nonempty ?_⟩
  have whole : ['\n'].intercalate (block.splitOn '\n') = block := List.intercalate_splitOn '\n'
  rw [← whole, empty, List.intercalate_singleton]

/-- The paragraphs as they are written. -/
theorem renderAll_paragraphs (filled : ∀ lines ∈ paragraphs, Filled lines) :
    renderAll (paragraphs.map fun lines => .element "p" [] (lineItems lines)) =
      paragraphs.flatMap fun lines =>
        "<p>".toList ++ "<br/>".toList.intercalate lines ++ "</p>".toList := by
  induction paragraphs with
  | nil => rfl
  | cons lines paragraphs ih =>
      obtain ⟨here, later⟩ := List.forall_mem_cons.mp filled
      have content : "<br/>".toList.intercalate lines ≠ [] := here.intercalate_ne_nil (by decide)
      rw [List.map_cons, renderAll, ih later, List.flatMap_cons, Markup.render,
        renderAll_lineItems, Xml.elementText, if_neg (by simpa using content)]
      simp

/-- The body of the HTML as it is serialized. -/
theorem innerHTML_bodyNode (filled : ∀ lines ∈ paragraphs, Filled lines) :
    (bodyNode paragraphs).innerHTML = paragraphsHtml paragraphs := by
  rw [Node.innerHTML, bodyNode, Node.childNodes, paragraphsHtml]
  induction paragraphs with
  | nil => rfl
  | cons lines paragraphs ih =>
      obtain ⟨here, later⟩ := List.forall_mem_cons.mp filled
      have serialized : Filled (lines.map (·.flatMap serializedChar)) := by
        refine here.map fun line empty => ?_
        rw [List.flatMap_eq_nil_iff] at empty
        exact List.eq_nil_iff_forall_not_mem.mpr fun char listed =>
          NoteToken.serializedChar_ne_nil char (empty char listed)
      have content := serialized.intercalate_ne_nil (by decide : "<br/>".toList ≠ [])
      rw [List.map_cons, serializeAll, ih later, List.flatMap_cons,
        Node.serialize, serializeAll_lineNodes, Xml.elementText,
        if_neg (by simpa using content)]
      simp

/-- HTML as it is written. -/
theorem render_htmlMarkup (filled : ∀ lines ∈ paragraphs, Filled lines) (some : paragraphs ≠ []) :
    (htmlMarkup paragraphs).render =
      "<html><head/><body>".toList ++
        (paragraphs.flatMap fun lines =>
          "<p>".toList ++ "<br/>".toList.intercalate lines ++ "</p>".toList) ++
        "</body></html>".toList := by
  have content : (paragraphs.flatMap fun lines =>
      "<p>".toList ++ "<br/>".toList.intercalate lines ++ "</p>".toList) ≠ [] := by
    obtain ⟨lines, others, rfl⟩ := List.exists_cons_of_ne_nil some
    rw [List.flatMap_cons]
    exact List.append_ne_nil_of_left_ne_nil (List.append_ne_nil_of_right_ne_nil _ (by decide)) _
  simp only [htmlMarkup, Markup.render, renderAll, renderAll_paragraphs filled, Xml.elementText,
    List.flatMap_nil, List.nil_append, List.isEmpty_nil, if_true, List.append_nil]
  generalize (paragraphs.flatMap fun lines =>
    "<p>".toList ++ "<br/>".toList.intercalate lines ++ "</p>".toList) = written at content ⊢
  obtain ⟨char, others, rfl⟩ := List.exists_cons_of_ne_nil content
  simp

/-- Notes have at least one paragraph. -/
theorem paragraphLines_ne_nil (notes : Chars) : paragraphLines notes ≠ [] := by
  rw [paragraphLines, Ne, List.map_eq_nil_iff]
  exact Regex.split_run_ne_nil (Nat.succ_pos 1) notes

/-- Every paragraph of trimmed notes has something in it. -/
theorem filled_paragraphLines {notes : Chars} (trimmed : Ecma.trimChars notes = notes)
    (nonempty : notes ≠ []) : ∀ lines ∈ paragraphLines notes, Filled lines := by
  have last := getLast?_ne_of_trimmed trimmed nonempty
  have first : notes.head? ≠ some '\n' := by
    obtain ⟨char, rest, rfl, dark⟩ := Ecma.begins_of_trimChars trimmed nonempty
    intro same
    rw [Option.some.inj same] at dark
    exact absurd dark (by decide)
  rw [paragraphLines, List.forall_mem_map]
  intro block listed
  refine filled_splitOn fun empty => ?_
  exact (blocks_ne_nil last).2 first nonempty (empty ▸ listed)

theorem subset_intercalate {between piece : Chars} : ∀ {pieces : List Chars}, piece ∈ pieces →
    piece ⊆ between.intercalate pieces
  | [only], listed => by
      rw [List.mem_singleton.mp listed, List.intercalate_singleton]
      exact List.Subset.refl _
  | first :: next :: pieces, listed => by
      rw [List.intercalate_cons_cons]
      rcases List.mem_cons.mp listed with rfl | later
      · exact fun char inside => List.mem_append_left _ (List.mem_append_left _ inside)
      · exact fun char inside => List.mem_append_right _ (subset_intercalate later inside)

/-- What all characters of notes and line breaks have in common, those of their lines have. -/
theorem forall_mem_paragraphLines {notes : Chars} {holds : Char → Prop} (lineBreak : holds '\n')
    (each : ∀ char ∈ notes, holds char) :
    ∀ lines ∈ paragraphLines notes, ∀ line ∈ lines, ∀ char ∈ line, holds char := by
  rw [paragraphLines, List.forall_mem_map]
  intro block inBlocks line inBlock char inLine
  apply forall_mem_rejoined lineBreak each
  rw [rejoined]
  refine List.mem_flatMap.mpr ⟨block, inBlocks, List.mem_append_left _ ?_⟩
  have whole : ['\n'].intercalate (block.splitOn '\n') = block := List.intercalate_splitOn '\n'
  rw [← whole]
  exact subset_intercalate inBlock inLine

theorem filled_escaped {paragraphs : List (List Chars)} {escape : Chars → Chars}
    (filled : ∀ lines ∈ paragraphs, Filled lines) (same : ∀ line, escape line = [] → line = []) :
    ∀ lines ∈ paragraphs.map (·.map escape), Filled lines := by
  rw [List.forall_mem_map]
  exact fun lines listed => (filled lines listed).map same

/-- The markup of notes is what `notesToHtml` writes. -/
theorem render_htmlMarkup_paragraphLines {notes : Chars} {escape : Chars → Chars}
    (nonempty : Ecma.trimChars notes ≠ []) (same : ∀ line, escape line = [] → line = []) :
    (htmlMarkup ((paragraphLines (Ecma.trimChars notes)).map (·.map escape))).render =
      notesToHtml escape notes := by
  have filled := filled_paragraphLines (Ecma.trimChars_trimChars notes) nonempty
  have some : (paragraphLines (Ecma.trimChars notes)).map (·.map escape) ≠ [] := by
    rw [Ne, List.map_eq_nil_iff]
    exact paragraphLines_ne_nil _
  have paragraphs (blocks : List Chars) :
      (((blocks.map (List.splitOn '\n')).map (·.map escape)).flatMap fun lines =>
        "<p>".toList ++ "<br/>".toList.intercalate lines ++ "</p>".toList) =
        blocks.flatMap (paragraph escape) := by
    rw [List.map_map, List.flatMap_map]
    rfl
  rw [render_htmlMarkup (filled_escaped filled same) some]
  exact congrArg (fun middle => _ ++ middle ++ _) (paragraphs _)

end Texts

/-! ### Grammar and nodes -/

section Nodes

variable {paragraphs : List (List Chars)}

/-- A text without marks may stand between tags. -/
theorem grammarAll_textItem_append {raw : Chars} {items : List Markup}
    (clean : ∀ char ∈ raw, char ≠ '<' ∧ char ≠ '>')
    (noText : items.head?.any Markup.isText = false) (grammar : GrammarAll items) :
    GrammarAll (textItem raw ++ items) := by
  unfold textItem
  split_ifs with empty
  · exact grammar
  · refine ⟨⟨empty, fun inside => (clean _ inside).1 rfl, fun ends => ?_⟩, fun _ => noText, grammar⟩
    exact (clean '>' (ends.subset (by decide))).2 rfl

theorem grammarAll_lineItems {lines : List Chars}
    (clean : ∀ line ∈ lines, ∀ char ∈ line, char ≠ '<' ∧ char ≠ '>') :
    GrammarAll (lineItems lines) := by
  induction lines using lineItems.induct with
  | case1 => exact trivial
  | case2 line =>
      have alone : GrammarAll (textItem line ++ []) :=
        grammarAll_textItem_append (clean line List.mem_cons_self) rfl trivial
      rwa [List.append_nil] at alone
  | case3 line next lines ih =>
      obtain ⟨here, later⟩ := List.forall_mem_cons.mp clean
      refine grammarAll_textItem_append here rfl ⟨?_, fun isText => ?_, ih later⟩
      · exact ⟨⟨by decide, by decide⟩, List.nodup_nil, List.forall_mem_nil _,
          trivial⟩
      · exact Bool.noConfusion isText

theorem grammarAll_paragraphs
    (clean : ∀ lines ∈ paragraphs, ∀ line ∈ lines, ∀ char ∈ line, char ≠ '<' ∧ char ≠ '>') :
    GrammarAll (paragraphs.map fun lines => .element "p" [] (lineItems lines)) := by
  induction paragraphs with
  | nil => exact trivial
  | cons lines paragraphs ih =>
      obtain ⟨here, later⟩ := List.forall_mem_cons.mp clean
      refine ⟨?_, fun isText => Bool.noConfusion isText, ih later⟩
      exact ⟨⟨by decide, by decide⟩, List.nodup_nil, List.forall_mem_nil _,
        grammarAll_lineItems here⟩

/-- The notes are as XML has them if their lines have no brackets. -/
theorem grammar_htmlMarkup
    (clean : ∀ lines ∈ paragraphs, ∀ line ∈ lines, ∀ char ∈ line,
      char ≠ '<' ∧ char ≠ '>') : (htmlMarkup paragraphs).Grammar := by
  have noAttributes : ∀ field ∈ ([] : List (String × Chars)), Markup.AttributeGrammar field :=
    List.forall_mem_nil _
  refine ⟨⟨by decide, by decide⟩, List.nodup_nil, noAttributes, ?_⟩
  refine ⟨⟨⟨by decide, by decide⟩, List.nodup_nil, noAttributes, trivial⟩,
    fun isText => Bool.noConfusion isText, ?_⟩
  exact ⟨⟨⟨by decide, by decide⟩, List.nodup_nil, noAttributes, grammarAll_paragraphs clean⟩,
    fun isText => Bool.noConfusion isText, trivial⟩

/-- Lines that are read one by one. -/
structure ReadsLine (escape read : Chars → Chars) (line : Chars) : Prop where
  data : Xml.characterData (escape line) = some (read line)
  empty : escape line = [] ↔ read line = []

variable {escape read : Chars → Chars}

theorem nodes_append (first second : List Markup) :
    nodes (first ++ second) =
      (nodes first).bind fun former => (nodes second).map (former ++ ·) := by
  induction first with
  | nil => exact Option.map_id'.symm
  | cons item items ih =>
      rw [List.cons_append, nodes, nodes, ih]
      cases item.node with
      | none => rfl
      | some node =>
          cases nodes items with
          | none => rfl
          | some others =>
              cases nodes second with
              | none => rfl
              | some later => rfl

/-- A line is read as its text. -/
theorem nodes_textItem {line : Chars} (reads : ReadsLine escape read line) :
    nodes (textItem (escape line)) = some (dataNodes (read line)) := by
  unfold textItem dataNodes
  by_cases empty : escape line = []
  · rw [if_pos empty, if_pos (reads.empty.mp empty)]
    rfl
  · rw [if_neg empty, if_neg (mt reads.empty.mpr empty), nodes, Markup.node, reads.data]
    rfl

/-- Lines are read as they read one by one. -/
theorem nodes_lineItems {lines : List Chars} (each : ∀ line ∈ lines, ReadsLine escape read line) :
    nodes (lineItems (lines.map escape)) = some (lineNodes (lines.map read)) := by
  induction lines using lineItems.induct with
  | case1 => rfl
  | case2 line => exact nodes_textItem (each line List.mem_cons_self)
  | case3 line next lines ih =>
      obtain ⟨here, later⟩ := List.forall_mem_cons.mp each
      have rest := ih later
      rw [List.map_cons] at rest
      rw [List.map_cons, List.map_cons, lineItems, nodes_append, nodes_textItem here, nodes, rest]
      rfl

/-- HTML is read with its lines as they read. -/
theorem node_htmlMarkup (each : ∀ lines ∈ paragraphs, ∀ line ∈ lines, ReadsLine escape read line) :
    (htmlMarkup (paragraphs.map (·.map escape))).node =
      some (htmlNode (paragraphs.map (·.map read))) := by
  have body : nodes ((paragraphs.map (·.map escape)).map fun lines =>
      .element "p" [] (lineItems lines)) =
        some ((paragraphs.map (·.map read)).map fun lines =>
          .element "p" [] (lineNodes lines)) := by
    induction paragraphs with
    | nil => rfl
    | cons lines paragraphs ih =>
        obtain ⟨here, later⟩ := List.forall_mem_cons.mp each
        rw [List.map_cons, List.map_cons, nodes, Markup.node, nodes_lineItems here, ih later]
        rfl
  simp only [htmlMarkup, Markup.node, Markup.attributeValues, nodes, body]
  rfl

end Nodes

/-! ### Returns -/

section Returns

variable {notes : Chars}

/-- What all lines weigh, the paragraphs weigh. -/
theorem countP_paragraphsText_map {weigh weighed : Char → Bool} {read : Chars → Chars}
    (weightless : weigh '\n' = false) (weighedless : weighed '\n' = false)
    (same : ∀ line, (read line).countP weigh = line.countP weighed)
    (paragraphs : List (List Chars)) :
    (paragraphsText (paragraphs.map (·.map read))).countP weigh =
      (paragraphsText paragraphs).countP weighed := by
  have lines : ∀ lines : List Chars, (['\n'].intercalate (lines.map read)).countP weigh =
      (['\n'].intercalate lines).countP weighed := by
    intro lines
    induction lines using lineItems.induct with
    | case1 => rfl
    | case2 line => simpa using same line
    | case3 line next lines ih =>
        rw [List.map_cons] at ih
        simp only [List.map_cons, List.intercalate_cons_cons, List.countP_append, same,
          List.countP_singleton, weightless, weighedless]
        rw [ih]
  rw [paragraphsText, paragraphsText, List.flatMap_map, List.countP_flatMap, List.countP_flatMap]
  refine congrArg List.sum (List.map_congr_left fun paragraph _ => ?_)
  simp [lines, weightless, weighedless]

/-- A character of one class that is none of a smaller one. -/
theorem countP_lt_of_mem {larger smaller : Char → Bool} {char : Char} {text : Chars}
    (listed : char ∈ text) (inside : larger char = true) (outside : smaller char = false)
    (wider : ∀ other, smaller other = true → larger other = true) :
    text.countP smaller < text.countP larger := by
  obtain ⟨front, back, rfl⟩ := List.append_of_mem listed
  have inFront : front.countP smaller ≤ front.countP larger :=
    List.countP_mono_left fun other _ => wider other
  have inBack : back.countP smaller ≤ back.countP larger :=
    List.countP_mono_left fun other _ => wider other
  rw [List.countP_append, List.countP_append, List.countP_cons_of_pos inside,
    List.countP_cons_of_neg (by rw [outside]; exact Bool.false_ne_true)]
  omega

/-- Notes that are read with their line breaks normalised come back exactly if they are plain
and have no returns. -/
theorem stripHtml_normalized_iff (trimmed : Ecma.trimChars notes = notes) (nonempty : notes ≠ []) :
    stripHtml (paragraphsHtml ((paragraphLines notes).map (·.map Xml.normalizeBreaks))) =
        .ok notes ↔ PlainNotes notes ∧ '\r' ∉ notes := by
  have same (noReturn : '\r' ∉ notes) :
      (paragraphLines notes).map (·.map Xml.normalizeBreaks) = paragraphLines notes := by
    have others : ∀ char ∈ notes, char ≠ '\r' := fun char listed isReturn =>
      noReturn (isReturn ▸ listed)
    have each := forall_mem_paragraphLines (by decide : '\n' ≠ '\r') others
    refine (List.map_congr_left fun lines inNotes => ?_).trans (List.map_id _)
    refine (List.map_congr_left fun line inLines => ?_).trans (List.map_id _)
    exact Xml.normalizeBreaks_of_not_mem fun listed =>
      each lines inNotes line inLines '\r' listed rfl
  constructor
  · intro back
    have noReturn : '\r' ∉ notes := by
      intro listed
      have read : ∀ line, (Xml.normalizeBreaks line).countP (· ≠ '\n') =
          line.countP fun char => char ≠ '\n' ∧ char ≠ '\r' :=
        fun line => Xml.countP_breaksFrom line false
      have fewer := countP_stripHtml_le (untagged_paragraphsHtml _) back
      rw [countP_paragraphsText_map rfl rfl read, paragraphsText_paragraphLines,
        countP_rejoined rfl] at fewer
      have wider : ∀ other : Char, decide (other ≠ '\n' ∧ other ≠ '\r') = true →
          decide (other ≠ '\n') = true :=
        fun other both => decide_eq_true (of_decide_eq_true both).1
      exact absurd fewer (Nat.not_le.mpr (countP_lt_of_mem listed rfl rfl wider))
    rw [same noReturn] at back
    exact ⟨(stripHtml_paragraphLines_iff trimmed nonempty).mp back, noReturn⟩
  · rintro ⟨plain, noReturn⟩
    rw [same noReturn]
    exact (stripHtml_paragraphLines_iff trimmed nonempty).mpr plain

end Returns

end Formats
end MindMapVault
