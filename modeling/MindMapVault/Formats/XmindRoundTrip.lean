import MindMapVault.Formats.Xmind

/-!
# Maps that come back from XMind

An export and its import with the text of the root as the title. Every node has its text,
its notes, its colour and its first link again; an empty colour or link counts as none. Any
other import ends, with an error or with no more nodes than the file has values.
-/

namespace MindMapVault
namespace Formats

open RoseTree hiding node

/-- What the format carries of a node. An empty colour or link counts as none. -/
def NodeFields.carried (node : NodeFields) : Chars × Chars × Option Json × Option Json :=
  (node.text, node.notes, (node.color.filter (· ≠ [])).map textValue,
    ((node.urls.head?.map UrlEntry.url).filter (· ≠ [])).map textValue)

/-- The same of a node that was read. -/
def XmindNode.carried (node : XmindNode) : Chars × Chars × Option Json × Option Json :=
  (node.text, node.notes, node.color, node.url)

/-- A text that is not empty, and notes, without white space around them. -/
structure Tidy (node : NodeFields) : Prop where
  text : Ecma.trimChars node.text = node.text
  some : node.text ≠ []
  notes : Ecma.trimChars node.notes = node.notes

section Topic

variable {suffixes : Nat → String} {ids : Nat → String}

theorem lookup_optionalProperty (name key : String) (value : Option Json) :
    (optionalProperty name value).lookup key = if key = name then value else none := by
  cases value with
  | none => rw [optionalProperty, List.lookup_nil, ite_self]
  | some value =>
      rw [optionalProperty, List.lookup_cons, List.lookup_nil]
      split_ifs with same
      · rw [beq_iff_eq.mpr same]
      · rw [beq_eq_false_iff_ne.mpr same]

/-- The properties of a topic by their names. -/
theorem get?_topic (node : NodeFields) (id : String) (children : Option Json) :
    let topic := Json.object ([("id", .string id)] ++ topicProperties node ++
      optionalProperty "children" children)
    topic.get? "title" = some (textValue node.text) ∧
    topic.get? "notes" = (if Ecma.trimChars node.notes = [] then none
      else some (.object [("plain",
        .object [("content", textValue (Ecma.trimChars node.notes))])])) ∧
    topic.get? "href" = (node.urls.head?.map fun first => textValue first.url) ∧
    topic.get? "style" = ((node.color.filter (· ≠ [])).map fun color =>
        .object [("properties", .object [("background-color", textValue color)])]) ∧
    topic.get? "children" = children := by
  simp [Json.get?, topicProperties, List.lookup_cons, List.lookup_append, lookup_optionalProperty]

theorem truthy_textValue (text : Chars) : (textValue text).truthy = decide (text ≠ []) := by
  have empty : String.ofList text = "" ↔ text = [] := by
    rw [← String.toList_inj, String.toList_ofList]
    rfl
  rw [textValue, Json.truthy, Bool.eq_iff_iff, bne_iff_ne, decide_eq_true_iff, ne_eq, empty]

/-- A text that is there is one that is not empty. -/
theorem filter_truthy_textValue (text : Option Chars) :
    (text.map textValue).filter Json.truthy = (text.filter (· ≠ [])).map textValue := by
  cases text with
  | none => rfl
  | some text =>
      simp only [Option.map_some, Option.filter_some, truthy_textValue]
      split_ifs
      · rfl
      · rfl

/-- An exported topic is read as the node it was written of. -/
theorem topicFields_topic {node : NodeFields} (trimmed : Tidy node) (drawn id : String)
    (children : Option Json) :
    topicFields drawn (.object ([("id", .string id)] ++ topicProperties node ++
        optionalProperty "children" children)) =
      .ok ⟨drawn, node.text, node.notes, (node.color.filter (· ≠ [])).map textValue,
        ((node.urls.head?.map UrlEntry.url).filter (· ≠ [])).map textValue⟩ := by
  obtain ⟨title, notes, href, style, -⟩ := get?_topic node id children
  generalize whole : Json.object ([("id", .string id)] ++ topicProperties node ++
    optionalProperty "children" children) = topic at *
  have readTitle : property topic "title" = .ok (some (textValue node.text)) := by
    rw [← title, ← whole]
    rfl
  have readNotes : trimValue (chain (chain (topic.get? "notes") "plain") "content") =
      .ok (if node.notes = [] then none else some node.notes) := by
    rw [notes, trimmed.notes]
    split_ifs
    · rfl
    · have trims : Ecma.trimChars (String.ofList node.notes).toList = node.notes := by
        rw [String.toList_ofList, trimmed.notes]
      exact congrArg (fun text => Except.ok (some text)) trims
  have keptNotes : (if node.notes = [] then none else some node.notes).getD [] = node.notes := by
    split_ifs with none
    · exact none.symm
    · rfl
  have readText : trimmable ((coalesce (some (textValue node.text)) none).getD (.string "")) =
      .ok node.text := congrArg Except.ok String.toList_ofList
  have keptText : trimOr "Untitled" node.text = node.text := by
    rw [trimOr, trimmed.text, if_neg trimmed.some]
  have readColor : bgColor (topic.get? "style") =
      (node.color.filter (· ≠ [])).map textValue := by
    rw [style]
    cases node.color.filter (· ≠ []) with
    | none => rfl
    | some color => rfl
  have filled : ((node.color.filter (· ≠ [])).map textValue).filter Json.truthy =
      (node.color.filter (· ≠ [])).map textValue := by
    rw [filter_truthy_textValue, Option.filter_filter]
    simp only [Bool.and_self]
  have readUrl : (topic.get? "href").filter Json.truthy =
      ((node.urls.head?.map UrlEntry.url).filter (· ≠ [])).map textValue := by
    rw [href, ← filter_truthy_textValue, Option.map_map]
    rfl
  simp only [topicFields, readTitle, readNotes, readText, readColor, readUrl, filled, keptText,
    keptNotes, bind, Except.bind, pure, Except.pure]

/-- What hangs below an exported topic. -/
theorem attachedTopics_topic (node : NodeFields) (id : String) (topics : List Json) :
    attachedTopics (.object ([("id", .string id)] ++ topicProperties node ++
        optionalProperty "children" (some (.object [("attached", .array topics)])))) =
      .ok topics := by
  obtain ⟨-, -, -, -, children⟩ := get?_topic node id (some (.object [("attached", .array topics)]))
  rw [attachedTopics, children]
  rfl

theorem attachedTopics_leaf (node : NodeFields) (id : String) :
    attachedTopics (.object ([("id", .string id)] ++ topicProperties node ++
        optionalProperty "children" none)) = .ok [] := by
  obtain ⟨-, -, -, -, children⟩ := get?_topic node id none
  rw [attachedTopics, children]
  rfl

variable (suffixes ids)

mutual

/-- A tree is read as it was written. -/
theorem parseJsonTopic_nodeToXMind : ∀ (tree : MindMapTreeNode) (counter drawn : Nat),
    (∀ node ∈ tree.labels, Tidy node) →
    ∃ parsed after, parseJsonTopic ids drawn (nodeToXMind suffixes counter tree).1 =
        .ok (parsed, after) ∧
      parsed.map XmindNode.carried = tree.map NodeFields.carried
  | .node node children, counter, drawn, trimmed => by
      obtain ⟨here, below⟩ := List.forall_mem_cons.mp trimmed
      obtain ⟨parsed, after, read, same⟩ :=
        parseJsonTopics_nodesToXMind children (counter + 1) (drawn + 1) below
      refine ⟨.node ⟨ids drawn, node.text, node.notes, (node.color.filter (· ≠ [])).map textValue,
        ((node.urls.head?.map UrlEntry.url).filter (· ≠ [])).map textValue⟩ parsed, after, ?_, ?_⟩
      · rw [nodeToXMind]
        have fields := topicFields_topic here (ids drawn)
        cases children with
        | nil =>
            rw [nodesToXMind] at read
            refine (parseJsonTopic_of (fields _ _) (attachedTopics_leaf node _)).trans ?_
            rw [read]
            rfl
        | cons child children =>
            refine (parseJsonTopic_of (fields _ _) (attachedTopics_topic node _ _)).trans ?_
            rw [read]
            rfl
      · rw [RoseTree.map, RoseTree.map, same]
        rfl

/-- The same for several trees. -/
theorem parseJsonTopics_nodesToXMind : ∀ (trees : List MindMapTreeNode) (counter drawn : Nat),
    (∀ node ∈ labelsAll trees, Tidy node) →
    ∃ parsed after, parseJsonTopics ids drawn (nodesToXMind suffixes counter trees).1 =
        .ok (parsed, after) ∧
      mapAll XmindNode.carried parsed = mapAll NodeFields.carried trees
  | [], _, drawn, _ => ⟨[], drawn, by rw [nodesToXMind, parseJsonTopics], rfl⟩
  | tree :: trees, counter, drawn, trimmed => by
      obtain ⟨here, later⟩ := List.forall_mem_append.mp trimmed
      obtain ⟨first, middle, readFirst, sameFirst⟩ :=
        parseJsonTopic_nodeToXMind tree counter drawn here
      obtain ⟨rest, after, readRest, sameRest⟩ :=
        parseJsonTopics_nodesToXMind trees (nodeToXMind suffixes counter tree).2 middle later
      refine ⟨first :: rest, after, ?_, ?_⟩
      · rw [nodesToXMind, parseJsonTopics]
        simp only [readFirst, readRest, bind, Except.bind, pure, Except.pure]
      · rw [mapAll, mapAll, sameFirst, sameRest]

end

end Topic

section Content

variable {printNumber : List Char → String} {suffixes : Nat → String}

theorem printableFields_append (front back : List (String × Json)) :
    Json.PrintableFields printNumber (front ++ back) ↔
      Json.PrintableFields printNumber front ∧ Json.PrintableFields printNumber back := by
  induction front with
  | nil => rw [List.nil_append, Json.PrintableFields, true_and]
  | cons field front ih =>
      rw [List.cons_append, Json.PrintableFields, Json.PrintableFields, ih, and_assoc]

theorem printableFields_optionalProperty {name : String} {value : Option Json}
    (printable : ∀ inner, value = some inner → Json.Printable printNumber inner) :
    Json.PrintableFields printNumber (optionalProperty name value) := by
  cases value with
  | none => trivial
  | some inner => exact ⟨printable inner rfl, trivial⟩

theorem map_fst_optionalProperty_sublist (name : String) (value : Option Json) :
    ((optionalProperty name value).map Prod.fst).Sublist [name] := by
  cases value with
  | none => exact List.nil_sublist _
  | some inner => exact List.Sublist.refl _

theorem printable_nested {name : String} {value : Json}
    (printable : Json.Printable printNumber value) :
    Json.Printable printNumber (.object [(name, value)]) :=
  ⟨List.nodup_singleton name, printable, trivial⟩

/-- What is exported of a node can be printed. -/
theorem printableFields_topicProperties (node : NodeFields) :
    Json.PrintableFields printNumber (topicProperties node) := by
  rw [topicProperties, printableFields_append, printableFields_append, printableFields_append]
  refine ⟨⟨⟨⟨trivial, trivial⟩, ?_⟩, ?_⟩, ?_⟩
  · apply printableFields_optionalProperty
    intro notes written
    split_ifs at written
    rw [← Option.some.inj written]
    exact printable_nested (printable_nested trivial)
  · apply printableFields_optionalProperty
    intro href written
    obtain ⟨first, -, rfl⟩ := Option.map_eq_some_iff.mp written
    trivial
  · apply printableFields_optionalProperty
    intro style written
    obtain ⟨color, -, rfl⟩ := Option.map_eq_some_iff.mp written
    exact printable_nested (printable_nested trivial)

/-- The properties of a topic have different names. -/
theorem nodup_topic (node : NodeFields) (id : String) (children : Option Json) :
    (([("id", Json.string id)] ++ topicProperties node ++
      optionalProperty "children" children).map Prod.fst).Nodup := by
  have names : (([("id", Json.string id)] ++ topicProperties node ++
      optionalProperty "children" children).map Prod.fst).Sublist
      (["id"] ++ ((([("title")] ++ ["notes"]) ++ ["href"]) ++ ["style"]) ++ ["children"]) := by
    simp only [List.map_append, topicProperties]
    exact ((List.Sublist.refl _).append
      ((((List.Sublist.refl _).append (map_fst_optionalProperty_sublist _ _)).append
        (map_fst_optionalProperty_sublist _ _)).append
        (map_fst_optionalProperty_sublist _ _))).append (map_fst_optionalProperty_sublist _ _)
  exact names.nodup (by decide)

mutual

/-- An exported topic has no numbers in it, and no name twice. -/
theorem printable_nodeToXMind : ∀ (tree : MindMapTreeNode) (counter : Nat),
    Json.Printable printNumber (nodeToXMind suffixes counter tree).1
  | .node node children, counter => by
      have below := printableItems_nodesToXMind children (counter + 1)
      rw [nodeToXMind]
      refine ⟨nodup_topic node _ _, ?_⟩
      rw [printableFields_append, printableFields_append]
      refine ⟨⟨⟨trivial, trivial⟩, printableFields_topicProperties node⟩, ?_⟩
      apply printableFields_optionalProperty
      intro attached written
      split_ifs at written
      rw [← Option.some.inj written]
      exact printable_nested below

theorem printableItems_nodesToXMind : ∀ (trees : List MindMapTreeNode) (counter : Nat),
    Json.PrintableItems printNumber (nodesToXMind suffixes counter trees).1
  | [], counter => by
      rw [nodesToXMind]
      trivial
  | tree :: trees, counter => by
      rw [nodesToXMind]
      exact ⟨printable_nodeToXMind tree counter, printableItems_nodesToXMind trees _⟩

end

/-- The content is what JSON can print. -/
theorem printable_xmindContent (root : MindMapTreeNode) (title : Chars) :
    Json.Printable printNumber (xmindContent suffixes root title) := by
  have names : ["id", "title", "rootTopic"].Nodup := by decide
  exact ⟨⟨names, trivial, trivial, printable_nodeToXMind root 0, trivial⟩, trivial⟩

end Content

section Bound

variable {ids : Nat → String}

theorem weight_of_lookup {key : String} {value : Json} : ∀ {fields : List (String × Json)},
    fields.lookup key = some value → value.weight < Json.weightFields fields
  | (name, other) :: fields, found => by
      rw [List.lookup_cons] at found
      rw [Json.weightFields]
      cases same : key == name with
      | true =>
          rw [same] at found
          obtain rfl := Option.some.inj found
          omega
      | false =>
          rw [same] at found
          have := weight_of_lookup found
          omega

/-- A property weighs less than its object. -/
theorem weight_of_get? {value found : Json} {key : String}
    (read : value.get? key = some found) : found.weight < value.weight := by
  cases value with
  | object fields =>
      have := weight_of_lookup read
      rw [Json.weight]
      omega
  | _ => exact absurd read.symm (Option.some_ne_none found)

theorem weight_of_chain {value : Option Json} {found : Json} {key : String}
    (read : chain value key = some found) :
    ∃ whole, value = some whole ∧ found.weight < whole.weight := by
  unfold chain at read
  split at read
  · exact absurd read.symm (Option.some_ne_none found)
  · exact absurd read.symm (Option.some_ne_none found)
  · exact ⟨_, rfl, weight_of_get? read⟩

theorem one_le_weight (value : Json) : 1 ≤ value.weight := by
  cases value with
  | _ => simp only [Json.weight, Nat.le_add_left, Nat.le_refl]

/-- Attached topics are smaller than their topic. -/
theorem weight_attachedTopics {topic : Json} {topics : List Json}
    (attached : attachedTopics topic = .ok topics) :
    Json.weightItems topics < topic.weight := by
  have positive := one_le_weight topic
  unfold attachedTopics at attached
  split at attached
  · obtain rfl := Except.ok.inj attached
    exact positive
  · obtain rfl := Except.ok.inj attached
    exact positive
  · next found =>
      obtain rfl := Except.ok.inj attached
      obtain ⟨children, read, inside⟩ := weight_of_chain found
      have outside := weight_of_get? read
      rw [Json.weight] at inside
      omega
  · exact absurd attached (by simp only [reduceCtorEq, not_false_eq_true])

mutual

/-- An import has at most as many nodes as there are values in the topic. -/
theorem length_parseJsonTopic {drawn after : Nat} (topic : Json) {parsed : RoseTree XmindNode}
    (read : parseJsonTopic ids drawn topic = .ok (parsed, after)) :
    parsed.labels.length ≤ topic.weight := by
  obtain ⟨node, topics, children, -, attached, below, rfl⟩ := parseJsonTopic_ok read
  have smaller := weight_attachedTopics attached
  have inner := length_parseJsonTopics topics below
  rw [RoseTree.labels, List.length_cons]
  omega
termination_by topic.weight

/-- Topics have no more nodes than their JSON has parts. -/
theorem length_parseJsonTopics {drawn after : Nat} : ∀ (topics : List Json)
    {parsed : List (RoseTree XmindNode)},
    parseJsonTopics ids drawn topics = .ok (parsed, after) →
    (labelsAll parsed).length ≤ Json.weightItems topics
  | [], parsed, read => by
      rw [parseJsonTopics] at read
      obtain ⟨rfl, -⟩ := Prod.mk.inj (Except.ok.inj read)
      exact Nat.zero_le _
  | topic :: topics, parsed, read => by
      obtain ⟨first, middle, rest, readFirst, readRest, rfl⟩ := parseJsonTopics_cons_ok read
      have here := length_parseJsonTopic topic readFirst
      have later := length_parseJsonTopics topics readRest
      rw [labelsAll, List.length_append, Json.weightItems]
      omega
termination_by topics => Json.weightItems topics
decreasing_by
  · rw [Json.weightItems]
    omega
  · rw [Json.weightItems]
    omega

end

/-- The root topic is no larger than the file. -/
theorem weight_rootTopic {sheets topic : Json} (found : rootTopic sheets = some topic) :
    topic.weight ≤ sheets.weight := by
  unfold rootTopic at found
  split at found
  · next items =>
      obtain ⟨read, -⟩ := Option.filter_eq_some_iff.mp found
      obtain ⟨sheet, first, inside⟩ := weight_of_chain read
      obtain ⟨others, rfl⟩ := List.head?_eq_some_iff.mp first
      rw [Json.weight, Json.weightItems]
      omega
  · exact absurd found.symm (Option.some_ne_none topic)

end Bound

section Archive

variable {Archive Bytes : Type} {host : XmindHost Archive Bytes} {suffixes ids : Nat → String}

theorem map_titled {title : Chars} {parsed : RoseTree XmindNode}
    (same : parsed.label.text = title) :
    (titled title parsed).map XmindNode.carried = parsed.map XmindNode.carried := by
  obtain ⟨node, children⟩ := parsed
  obtain rfl : node.text = title := same
  rw [titled, ite_self]
  rfl

theorem labels_titled_length (title : Chars) (parsed : RoseTree XmindNode) :
    (titled title parsed).labels.length = parsed.labels.length := by
  obtain ⟨node, children⟩ := parsed
  rfl

/-- The exported value is imported as the tree. -/
theorem importSheets_xmindContent (suffixes ids : Nat → String) {root : MindMapTreeNode}
    (trimmed : ∀ node ∈ root.labels, Tidy node) :
    ∃ imported, importSheets ids (xmindContent suffixes root root.label.text) root.label.text =
        .ok imported ∧
      imported.map XmindNode.carried = root.map NodeFields.carried := by
  obtain ⟨parsed, after, read, same⟩ := parseJsonTopic_nodeToXMind suffixes ids root 0 0 trimmed
  have found : rootTopic (xmindContent suffixes root root.label.text) =
      some (nodeToXMind suffixes 0 root).1 := by
    obtain ⟨node, children⟩ := root
    rfl
  have text : parsed.label.text = root.label.text := by
    have labels := congrArg RoseTree.label same
    rw [label_map, label_map] at labels
    exact congrArg Prod.fst labels
  refine ⟨titled root.label.text parsed, ?_, ?_⟩
  · rw [importSheets, found]
    simp only [read, Except.map]
  · rw [map_titled text, same]

/-- A value is imported with no more nodes than it has parts, or the import throws. -/
theorem importSheets_bounded (sheets : Json) (title : Chars) :
    (∃ error, importSheets ids sheets title = .error error) ∨
      ∃ imported, importSheets ids sheets title = .ok imported ∧
        imported.labels.length ≤ sheets.weight := by
  unfold importSheets
  cases found : rootTopic sheets with
  | none => exact .inl ⟨_, rfl⟩
  | some topic =>
      have inside : topic.weight ≤ sheets.weight := weight_rootTopic found
      cases read : parseJsonTopic ids 0 topic with
      | error error => exact .inl ⟨error, by simp only [read, Except.map]⟩
      | ok parsed =>
          have bounded := length_parseJsonTopic topic read
          refine .inr ⟨titled title parsed.1, by simp only [read, Except.map], ?_⟩
          rw [labels_titled_length]
          exact bounded.trans inside

/-- An exported map is read as what was written of it. -/
theorem xmindToTree_treeToXmind (zipped : ∀ files, host.unzipSync (host.zipSync files) = some files)
    (coded : ∀ text, host.strFromU8 (host.strToU8 text) = text)
    (root : MindMapTreeNode) (title : Chars) :
    xmindToTree ids host (treeToXmind host suffixes root title) title =
      importSheets ids (xmindContent suffixes root title) title := by
  rw [xmindToTree, treeToXmind, zipped]
  simp only [List.lookup_cons, beq_self_eq_true, coded,
    Json.parse_stringify 2 (printable_xmindContent root title)]

/-- With a zip library and a coding that lose nothing, an exported map is read with its
shape, texts, notes, colours and first links. Whatever else `content.json` holds, an import
of it throws or ends with a tree that is not larger than it. -/
theorem xmindToTree_spec (zipped : ∀ files, host.unzipSync (host.zipSync files) = some files)
    (coded : ∀ text, host.strFromU8 (host.strToU8 text) = text) :
    (∀ (suffixes ids : Nat → String) (root : MindMapTreeNode),
      (∀ node ∈ root.labels, Tidy node) →
      ∃ imported, xmindToTree ids host (treeToXmind host suffixes root root.label.text)
          root.label.text = .ok imported ∧
        imported.map XmindNode.carried = root.map NodeFields.carried) ∧
    ∀ (ids : Nat → String) (fileData : Archive) (title : Chars) files jsonEntry sheets,
      host.unzipSync fileData = some files → files.lookup "content.json" = some jsonEntry →
      Json.parse host.printNumber (host.strFromU8 jsonEntry) = some sheets →
      (∃ error, xmindToTree ids host fileData title = .error error) ∨
        ∃ imported, xmindToTree ids host fileData title = .ok imported ∧
          imported.labels.length ≤ sheets.weight := by
  refine ⟨fun suffixes ids root trimmed => ?_, ?_⟩
  · obtain ⟨imported, read, same⟩ := importSheets_xmindContent suffixes ids trimmed
    exact ⟨imported, (xmindToTree_treeToXmind zipped coded root _).trans read, same⟩
  · intro ids fileData title files jsonEntry sheets unzipped listed parsed
    have same : xmindToTree ids host fileData title = importSheets ids sheets title := by
      rw [xmindToTree, unzipped]
      simp only [listed, parsed]
    rw [same]
    exact importSheets_bounded sheets title

end Archive

/-- Files as they are, and texts as they are. -/
def plainHost : XmindHost (List (String × String)) String where
  zipSync := id
  unzipSync := some
  strToU8 := id
  strFromU8 := id
  printNumber := String.ofList
  parseXml := fun _ => none

/-- A root with a link above a node with notes and a colour. -/
def smallTree : MindMapTreeNode :=
  .node { makeNode "root" "Plan".toList with urls := [⟨"https://a.b".toList, []⟩] }
    [.node { makeNode "n" "\"\\".toList with
      notes := "one\ntwo".toList, color := some "red".toList } []]

theorem trimmed_smallTree : ∀ node ∈ smallTree.labels, Tidy node := by
  have first : Tidy { makeNode "root" "Plan".toList with
      urls := [⟨"https://a.b".toList, []⟩] } := ⟨by decide, by decide, by decide⟩
  have second : Tidy { makeNode "n" "\"\\".toList with
      notes := "one\ntwo".toList, color := some "red".toList } :=
    ⟨by decide, by decide, by decide⟩
  exact List.forall_mem_cons.mpr ⟨first, List.forall_mem_singleton.mpr second⟩

theorem xmindToTree_spec_smallTree :
    ∃ imported, xmindToTree toString plainHost (treeToXmind plainHost toString smallTree
        smallTree.label.text) smallTree.label.text = .ok imported ∧
      imported.map XmindNode.carried = smallTree.map NodeFields.carried :=
  (xmindToTree_spec (fun _ => rfl) (fun _ => rfl)).1 toString toString smallTree trimmed_smallTree

/-- What a node has of what the format carries. -/
def NodeFields.given (node : NodeFields) : Chars × Chars × Option Json × Option Json :=
  (node.text, node.notes, node.color.map textValue,
    (node.urls.head?.map UrlEntry.url).map textValue)

/-- An empty colour is not read back. -/
theorem emptyColor_lost :
    ¬ ∀ root : MindMapTreeNode, (∀ node ∈ root.labels, Tidy node) →
      ∃ imported, xmindToTree toString plainHost (treeToXmind plainHost toString root
          root.label.text) root.label.text = .ok imported ∧
        imported.map XmindNode.carried = root.map NodeFields.given := by
  intro exact
  have trimmed : Tidy { makeNode "root" "Plan".toList with color := some [] } :=
    ⟨by decide, by decide, by decide⟩
  have all : ∀ node ∈ (RoseTree.node { makeNode "root" "Plan".toList with
      color := some [] } []).labels, Tidy node := List.forall_mem_singleton.mpr trimmed
  obtain ⟨imported, read, same⟩ := exact _ all
  obtain ⟨other, readOther, sameOther⟩ := importSheets_xmindContent toString toString all
  rw [xmindToTree_treeToXmind (fun _ => rfl) (fun _ => rfl), readOther] at read
  obtain rfl := Except.ok.inj read
  have labels := congrArg RoseTree.label (same.symm.trans sameOther)
  have colors := congrArg (fun carried => carried.2.2.1) labels
  exact Option.some_ne_none _ colors

end Formats
end MindMapVault
