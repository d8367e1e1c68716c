import MindMapVault.Formats.WisemappingRead
import MindMapVault.Foundations.RoseEdits

/-!
# Maps exported to WiseMapping and imported again

A map comes back from its file exactly if its texts and notes are trimmed and have characters
that XML can carry, no text on one line has a tab, only topics with children are collapsed, and
every branch of the root has a side. What stands in sections keeps its line breaks and needs no
escapes, so nothing else is lost.
-/

namespace MindMapVault
namespace Formats
namespace Wisemapping

open Ecma Xml
open RoseTree hiding node
open Freemind (isWritable carried carriedTree carriedMap)

/-! ### Elements -/

/-- The names of the elements in a file. -/
def elementNames : List String := ["map", "topic", "text", "note", "link"]

section Names

theorem names_partMarkup {name : String} (text : Chars) (listed : name ∈ elementNames) :
    (partMarkup name text).tagNames ⊆ elementNames := by
  have none (pieces : List Chars) : Markup.tagNamesAll (pieces.map .cdata) = [] := by
    induction pieces with
    | nil => rfl
    | cons piece pieces ih =>
        rw [List.map_cons, Markup.tagNamesAll, ih]
        rfl
  rw [partMarkup, Markup.tagNames, none]
  exact List.cons_subset.mpr ⟨listed, List.nil_subset _⟩

theorem names_bodyItems (node : NodeFields) :
    Markup.tagNamesAll (bodyItems node) ⊆ elementNames := by
  have part {name : String} (text : Chars) {condition : Prop} [Decidable condition]
      (listed : name ∈ elementNames) :
      Markup.tagNamesAll (if condition then [partMarkup name text] else []) ⊆ elementNames := by
    split_ifs
    · rw [Markup.tagNamesAll, Markup.tagNamesAll, List.append_nil]
      exact names_partMarkup text listed
    · exact List.nil_subset _
  rw [bodyItems, Markup.tagNamesAll_append, Markup.tagNamesAll_append]
  refine List.append_subset.mpr
    ⟨List.append_subset.mpr ⟨part _ (by decide), part _ (by decide)⟩, ?_⟩
  cases node.urls.head? with
  | none => exact List.nil_subset _
  | some first => exact List.cons_subset.mpr ⟨by decide, List.nil_subset _⟩

mutual

theorem names_topicMarkup : ∀ tree : RoseTree Topic, (topicMarkup tree).tagNames ⊆ elementNames
  | .node topic children => by
      rw [topicMarkup, fieldMarkup, Markup.tagNames, tagNamesAll_spaced, Markup.tagNamesAll_append]
      exact List.cons_subset.mpr ⟨by decide,
        List.append_subset.mpr ⟨names_bodyItems topic.node, names_topicsMarkup children⟩⟩

theorem names_topicsMarkup : ∀ trees : List (RoseTree Topic),
    Markup.tagNamesAll (topicsMarkup trees) ⊆ elementNames
  | [] => List.nil_subset _
  | tree :: trees => List.append_subset.mpr ⟨names_topicMarkup tree, names_topicsMarkup trees⟩

end

/-- A file has elements of the few known names only. -/
theorem names_wisemappingDocument (title : Option Chars) (root : RoseTree Topic) :
    (wisemappingDocument title root).root.tagNames ⊆ elementNames := by
  rw [wisemappingDocument, Markup.tagNames, tagNamesAll_spaced, Markup.tagNamesAll,
    Markup.tagNamesAll, List.append_nil]
  exact List.cons_subset.mpr ⟨by decide, names_topicMarkup root⟩

end Names

/-! ### Files -/

mutual

/-- Placing the topics keeps the nodes. -/
theorem labels_place (depth order : Nat) (isRoot : Bool) (side : Option Side)
    (topicCounter : Nat) : ∀ tree : MindMapTreeNode,
    (place depth order isRoot side topicCounter tree).1.labels.map Topic.node = tree.labels
  | .node node children => by
      rw [place, RoseTree.labels, RoseTree.labels, List.map_cons,
        labels_placeAll (depth + 1) 0 side (topicCounter + 1) children]

theorem labels_placeAll (depth order : Nat) (side : Option Side) (topicCounter : Nat) :
    ∀ trees : List MindMapTreeNode,
    (labelsAll (placeAll depth order side topicCounter trees).1).map Topic.node = labelsAll trees
  | [] => rfl
  | child :: children => by
      rw [placeAll, labelsAll, labelsAll, List.map_append,
        labels_place depth order false (child.label.side.or side) topicCounter child,
        labels_placeAll depth (order + 1) side _ children]

end

theorem all_topics (root : MindMapTreeNode) :
    ((topics root).labels.all fun topic => isWritable topic.node) = root.labels.all isWritable := by
  rw [topics, ← labels_place 1 0 true none 0 root, List.all_map]
  rfl

/-- What is read of the root and the branches below it. -/
def readMap (ids : Nat → String) (title : Chars) : MindMapTreeNode → MindMapTreeNode
  | .node root children =>
      let branches := (placeAll 2 0 none 1 children).1
      retitled title (.node (readFields (ids 0) ⟨root, 1, 0, true, none, 1, !children.isEmpty⟩)
        (List.zipWith withSide
          (branches.map fun branch =>
            some (synthesizePosition branch.label.side branch.label.order branch.label.depth))
          (walkAll (readTopic ids) 1 branches).2))

section Files

variable (ids : Nat → String) {parseFromString : Chars → Node} (root : MindMapTreeNode)

theorem position_topicNode {tree : RoseTree Topic} (below : tree.label.isRoot = false) :
    (topicNode tree).getAttribute "position" =
      some (synthesizePosition tree.label.side tree.label.order tree.label.depth) := by
  cases tree with
  | node topic children => exact position_fieldNode _ below

/-- An import makes a map of the topic of the root. -/
theorem mapOfTopics_topics (title : Chars) :
    mapOfTopics ids title (topicTree (topicNode (topics root))) [] = readMap ids title root := by
  obtain ⟨node, children⟩ := root
  have positions : ((placeAll 2 0 none 1 children).1.map fun tree =>
      topicTree (topicNode tree)).map (fun topic => topic.label.getAttribute "position") =
        (placeAll 2 0 none 1 children).1.map fun branch =>
          some (synthesizePosition branch.label.side branch.label.order branch.label.depth) := by
    rw [List.map_map]
    refine List.map_congr_left fun tree listed => ?_
    rw [Function.comp_apply, label_topicTree]
    exact position_topicNode (placeAll_ordered 2 0 none 1 children tree listed).1
  have walked := walk_place ids 1 0 true none 0 0 (.node node children)
  rw [mapOfTopics, parseTopicEl, topics, walked, topicTree_place]
  simp only [children_node, positions]
  rw [place, RoseTree.walk]
  simp [readTopic, readMap, parseTopLevel, label_node]

/-- The topic of the root is the only one beside no other. -/
theorem rootTopic_mapNode (title : Option Chars) :
    (mapNode title (topics root)).children.find? (isRootTopic (mapNode title (topics root))) =
        some (topicNode (topics root)) ∧
      topLevelTopics (mapNode title (topics root)) = [] := by
  obtain ⟨node, children⟩ := root
  have isTopic : (topicNode (topics (.node node children))).tagName? = some "topic" := rfl
  have central : isCentral (topicNode (topics (.node node children))) = true := by
    have value : (topicNode (topics (.node node children))).getAttribute "central" =
        (some "true".toList).map inlined := getAttribute_fieldNode _ _ "central"
    rw [isCentral, isTopic, value]
    rfl
  have alone : (mapNode title (topics (.node node children))).children =
      [topicNode (topics (.node node children))] := by
    rw [mapNode, Node.children, Node.childNodes, elements_spacedNodes]
    exact List.filter_cons_of_pos rfl
  have search : isRootTopic (mapNode title (topics (.node node children))) = isCentral := by
    rw [isRootTopic, alone, if_pos]
    simpa using central
  rw [topLevelTopics, search, alone, List.find?_cons_of_pos central,
    List.eraseP_cons_of_pos central]
  exact ⟨rfl, rfl⟩

/-- An exported file that XML can carry is imported. -/
theorem wisemappingToTree_of_writable (conforms : Conforms parseFromString)
    (writable : root.labels.all isWritable = true) (name : Option Chars) (title : Chars) :
    wisemappingToTree ids parseFromString (treeToWisemapping root name) title =
      .ok (readMap ids title root) := by
  have isNode := node_wisemappingDocument name (topics root)
  rw [all_topics, if_pos writable] at isNode
  have read : parseFromString (treeToWisemapping root name) = mapNode name (topics root) := by
    rw [← render_wisemappingDocument]
    exact conforms.accepts _ _ (grammar_wisemappingDocument name _) isNode
  have noError : Xml.querySelector (mapNode name (topics root)) "parsererror" = none :=
    querySelector_eq_none isNode fun inside =>
      absurd (names_wisemappingDocument name _ inside) (by decide)
  have found : Xml.querySelector (mapNode name (topics root)) "map" =
      some (mapNode name (topics root)) := by
    rw [Xml.querySelector, mapNode, Node.inclusive]
    exact List.find?_cons_of_pos rfl
  obtain ⟨isRoot, alone⟩ := rootTopic_mapNode root name
  simp only [wisemappingToTree, read, noError, found, isRoot, alone, mapOfTopics_topics]

/-- A file that XML cannot carry is not imported. -/
theorem wisemappingToTree_of_not_writable (conforms : Conforms parseFromString)
    (invalid : ¬root.labels.all isWritable = true) (name : Option Chars) (title : Chars) :
    ∃ error, wisemappingToTree ids parseFromString (treeToWisemapping root name) title =
      .error error := by
  have isNode := node_wisemappingDocument name (topics root)
  rw [all_topics, if_neg invalid] at isNode
  have rejected := conforms.rejects _ (grammar_wisemappingDocument name _) isNode
  rw [render_wisemappingDocument] at rejected
  obtain ⟨parseError, found⟩ := Option.isSome_iff_exists.mp rejected
  exact ⟨_, by simp only [wisemappingToTree, found]; rfl⟩

end Files

/-! ### Fields -/

/-- A text that is read as it was written: on several lines in sections, or on one in an
attribute. -/
structure PlainText (text : Chars) : Prop where
  trimmed : trimChars text = text
  nonempty : text ≠ []
  valid : text.all isChar = true
  noReturn : '\r' ∉ text
  noTab : '\n' ∈ text ∨ '\t' ∉ text

/-- What is in a node survives the file, but for its text. -/
structure Survives (node : NodeFields) : Prop where
  trimmed : trimChars node.notes = node.notes
  valid : node.notes.all isChar = true
  noReturn : '\r' ∉ node.notes
  color : ∀ color ∈ node.color, color ≠ [] ∧ OneLine color ∧ color.all isChar = true
  link : ∀ first ∈ node.urls.head?, first.url ≠ [] ∧ OneLine first.url ∧ first.url.all isChar = true

section Fields

variable {node : NodeFields} {text : Chars}

theorem rmXmlInv_of_valid (valid : text.all isChar = true) : rmXmlInv text = text := by
  rw [rmXmlInv, isKept_eq]
  exact List.filter_eq_self.mpr (List.all_eq_true.mp valid)

theorem all_of_inside {holds : Char → Bool} {part : Chars} (inside : part <:+: text)
    (all : text.all holds = true) : part.all holds = true :=
  List.all_eq_true.mpr fun ch listed => List.all_eq_true.mp all ch (inside.subset listed)

/-- What is trimmed of a section has no returns, and XML can carry it. -/
theorem trimChars_normalizeBreaks (text : Chars) :
    (trimChars (normalizeBreaks (rmXmlInv text))).all isChar = true ∧
      '\r' ∉ trimChars (normalizeBreaks (rmXmlInv text)) := by
  refine ⟨all_of_inside (infix_trimChars _) ?_, fun inside => ?_⟩
  · rw [normalizeBreaks, all_isChar_breaksFrom]
    exact all_isChar_rmXmlInv text
  · exact mem_breaksFrom_of_ne ((infix_trimChars _).subset inside) rfl

/-- Notes come back if they are trimmed XML text without returns. -/
theorem readNotes_eq_self :
    readNotes node = node.notes ↔
      trimChars node.notes = node.notes ∧ node.notes.all isChar = true ∧ '\r' ∉ node.notes := by
  constructor
  · intro same
    have clean := trimChars_normalizeBreaks (trimChars node.notes)
    rw [← readNotes, same] at clean
    refine ⟨?_, clean⟩
    rw [← same, readNotes, trimChars_trimChars]
  · rintro ⟨trimmed, valid, noReturn⟩
    rw [readNotes, trimmed, rmXmlInv_of_valid valid, normalizeBreaks_of_not_mem noReturn, trimmed]

theorem all_isChar_inlined (text : Chars) :
    (inlined text).all isChar = (text.all isChar) := by
  have blank (ch : Char) : isChar (Xml.blank ch) = isChar ch := by
    unfold Xml.blank
    split_ifs with white
    · rcases white with rfl | rfl | rfl
      all_goals rfl
    · rfl
  rw [inlined, List.all_map, ← all_isChar_breaksFrom text false]
  exact congrArg (List.all _) (funext blank)

/-- A text comes back exactly if it is plain. -/
theorem readText_eq_self : readText node = node.text ↔ PlainText node.text := by
  constructor
  · intro same
    rw [← same, readText]
    by_cases multiline : '\n' ∈ rmXmlInv node.text
    · rw [readText] at same
      simp only [multiline, if_true] at same ⊢
      by_cases blank : trimChars (normalizeBreaks (rmXmlInv node.text)) = []
      · rw [trimOr, if_pos blank]
        exact ⟨by decide, by decide, rfl, by decide, .inr (by decide)⟩
      · obtain ⟨valid, noReturn⟩ := trimChars_normalizeBreaks node.text
        rw [trimOr, if_neg blank] at same ⊢
        refine ⟨trimChars_trimChars _, blank, valid, noReturn, .inl ?_⟩
        rw [same] at valid ⊢
        rwa [rmXmlInv_of_valid valid] at multiline
    · simp only [multiline, if_false]
      by_cases blank : trimChars (inlined (rmXmlInv node.text)) = []
      · rw [trimOr, if_pos blank]
        exact ⟨by decide, by decide, rfl, by decide, .inr (by decide)⟩
      · have oneLine : OneLine (trimChars (inlined (rmXmlInv node.text))) :=
          fun ch listed => oneLine_inlined _ ch ((infix_trimChars _).subset listed)
        have valid := all_isChar_rmXmlInv node.text
        rw [← all_isChar_inlined] at valid
        rw [trimOr, if_neg blank]
        exact ⟨trimChars_trimChars _, blank, all_of_inside (infix_trimChars _) valid,
          fun inside => (oneLine _ inside).2.2 rfl, .inr fun inside => (oneLine _ inside).1 rfl⟩
  · intro plain
    have nonblank : ¬trimChars node.text = [] := by
      rw [plain.trimmed]
      exact plain.nonempty
    rw [readText]
    simp only [rmXmlInv_of_valid plain.valid]
    by_cases multiline : '\n' ∈ node.text
    · rw [if_pos multiline, normalizeBreaks_of_not_mem plain.noReturn, trimOr, if_neg nonblank,
        plain.trimmed]
    · have oneLine : OneLine node.text := by
        refine fun ch listed => ⟨?_, ?_, ?_⟩
        · rintro rfl
          exact plain.noTab.elim multiline fun noTab => noTab listed
        · rintro rfl
          exact multiline listed
        · rintro rfl
          exact plain.noReturn listed
      rw [if_neg multiline, inlined_of_oneLine oneLine, trimOr, if_neg nonblank, plain.trimmed]

/-- What is read of a topic, its text apart, is what the file carries exactly if the node
survives and is not folded without need. -/
theorem carried_readFields_iff (topic : Topic) (id : String)
    (writable : isWritable topic.node = true) :
    carried false { readFields id topic with text := topic.node.text } = carried false topic.node ↔
      Survives topic.node ∧
        (topic.node.collapsed = true → topic.isRoot = false ∧ topic.hasChildren = true) := by
  have link : ((((topic.node.urls.head?.map UrlEntry.url).filter (· ≠ [])).map inlined).map
      fun url => (⟨url, []⟩ : UrlEntry)).toList.head?.map UrlEntry.url =
        ((topic.node.urls.head?.map UrlEntry.url).filter (· ≠ [])).map inlined := by
    cases ((topic.node.urls.head?.map UrlEntry.url).filter (· ≠ [])).map inlined with
    | none => rfl
    | some link => rfl
  have folded : (topic.node.collapsed && !topic.isRoot && topic.hasChildren) =
      topic.node.collapsed ↔
      (topic.node.collapsed = true → topic.isRoot = false ∧ topic.hasChildren = true) := by
    cases topic.node.collapsed <;> cases topic.isRoot <;> cases topic.hasChildren <;> decide
  rw [isWritable, Bool.and_eq_true, Option.all_eq_true, Option.all_eq_true] at writable
  simp only [carried, readFields, link, folded, Prod.mk.injEq, true_and, and_true,
    filter_inlined_eq_self_iff, readNotes_eq_self, Bool.false_eq_true, if_false]
  constructor
  · rintro ⟨⟨trimmed, valid, noReturn⟩, color, collapsed, link⟩
    refine ⟨⟨trimmed, valid, noReturn, fun text listed => ?_, fun first listed => ?_⟩, collapsed⟩
    · exact ⟨(color text listed).1, (color text listed).2, writable.1 text listed⟩
    · obtain ⟨some, oneLine⟩ := link first.url (Option.mem_map_of_mem _ listed)
      exact ⟨some, oneLine, writable.2 first listed⟩
  · rintro ⟨survives, collapsed⟩
    refine ⟨⟨survives.trimmed, survives.valid, survives.noReturn⟩, ?_, collapsed, ?_⟩
    · exact fun text listed => (survives.color text listed).imp_right And.left
    · intro url listed
      obtain ⟨first, isFirst, rfl⟩ := Option.mem_map.mp listed
      exact (survives.link first isFirst).imp_right And.left

end Fields

/-! ### Branches -/

/-- A branch comes back, but for what is below it. -/
structure Returns (branch : MindMapTreeNode) : Prop where
  survives : Survives branch.label
  plain : PlainText branch.label.text
  folded : branch.label.collapsed = true → branch.children ≠ []

section Branches

variable (ids : Nat → String)

/-- A topic carries what was written of it exactly if it returns. -/
theorem returns_iff {topic : Topic} (children : List MindMapTreeNode) (id : String)
    (below : topic.isRoot = false) (family : topic.hasChildren = !children.isEmpty)
    (writable : isWritable topic.node = true) :
    carried false (readFields id topic) = carried false topic.node ↔
      Returns (.node topic.node children) := by
  have split : carried false (readFields id topic) = carried false topic.node ↔
      (readFields id topic).text = topic.node.text ∧
        carried false { readFields id topic with text := topic.node.text } =
          carried false topic.node := by
    simp only [carried, Prod.mk.injEq, true_and]
  have parents : topic.hasChildren = true ↔ children ≠ [] := by
    rw [family]
    simp
  rw [split, text_readFields, readText_eq_self,
      carried_readFields_iff topic id writable, below, parents]
  constructor
  · rintro ⟨plain, survives, folded⟩
    exact ⟨survives, plain, fun collapsed => (folded collapsed).2⟩
  · intro returns
    exact ⟨returns.plain, returns.survives, fun collapsed => ⟨rfl, returns.folded collapsed⟩⟩

mutual

/-- A branch comes back with what is below it exactly if each node does. -/
theorem walk_returns_iff (depth order : Nat) (side : Option Side) (topicCounter drawn : Nat) :
    ∀ tree : MindMapTreeNode, tree.labels.all isWritable = true →
    ((RoseTree.walk (readTopic ids) drawn
          (place depth order false side topicCounter tree).1).2.map (carried false) =
        tree.map (carried false) ↔ ∀ branch ∈ tree.subtrees, Returns branch)
  | .node node children, writable => by
      rw [RoseTree.labels, List.all_cons, Bool.and_eq_true] at writable
      let topic : Topic := ⟨node, depth, order, false, side, topicCounter + 1, !children.isEmpty⟩
      have here : carried false (readFields (ids drawn) topic) = carried false node ↔
          Returns (.node node children) := returns_iff children (ids drawn) rfl rfl writable.1
      have under := walkAll_returns_iff (depth + 1) 0 side (topicCounter + 1) (drawn + 1) children
        writable.2
      rw [place, subtrees, List.forall_mem_cons, ← here, ← under]
      simp only [RoseTree.walk, RoseTree.map, RoseTree.node.injEq, readTopic]
      exact Iff.rfl

/-- Topics come back exactly if each of them does. -/
theorem walkAll_returns_iff (depth order : Nat) (side : Option Side) (topicCounter drawn : Nat) :
    ∀ trees : List MindMapTreeNode, (labelsAll trees).all isWritable = true →
    (mapAll (carried false) (walkAll (readTopic ids) drawn
          (placeAll depth order side topicCounter trees).1).2 =
        mapAll (carried false) trees ↔
      ∀ branch ∈ subtreesAll trees, Returns branch)
  | [], _ => iff_of_true rfl (List.forall_mem_nil _)
  | tree :: trees, writable => by
      rw [labelsAll, List.all_append, Bool.and_eq_true] at writable
      have first := walk_returns_iff depth order (tree.label.side.or side) topicCounter drawn tree
        writable.1
      rw [subtreesAll, List.forall_mem_append, ← first, placeAll]
      simp only [walkAll, mapAll, List.cons.injEq]
      rw [walkAll_returns_iff depth (order + 1) side _ _ trees writable.2]

end

/-- A branch with a side that was read is one without a side that has it. -/
theorem carriedTree_withSide (position : Option Chars) (read tree : MindMapTreeNode)
    (unsided : read.label.side = none) :
    carriedTree true (withSide position read) = carriedTree true tree ↔
      sideOfPosition position = tree.label.side ∧
        read.map (carried false) = tree.map (carried false) := by
  obtain ⟨fields, children⟩ := read
  obtain ⟨node, others⟩ := tree
  rw [label_node] at unsided
  rw [withSide, carriedTree, carriedTree, RoseTree.map, RoseTree.map, label_node, unsided,
    Option.or_none, RoseTree.node.injEq, RoseTree.node.injEq]
  simp only [carried, if_true, Prod.mk.injEq, Bool.false_eq_true, if_false]
  tauto

/-- The branches of the root come back exactly if all have sides and each node does. -/
theorem branches_return_iff (order topicCounter drawn : Nat) : ∀ trees : List MindMapTreeNode,
    (labelsAll trees).all isWritable = true →
    ((List.zipWith withSide
        ((placeAll 2 order none topicCounter trees).1.map fun branch =>
          some (synthesizePosition branch.label.side branch.label.order branch.label.depth))
        (walkAll (readTopic ids) drawn
          (placeAll 2 order none topicCounter trees).1).2).map (carriedTree true) =
        trees.map (carriedTree true) ↔
      (∀ tree ∈ trees, tree.label.side.isSome = true) ∧
        ∀ branch ∈ subtreesAll trees, Returns branch)
  | [], _ =>
      iff_of_true rfl ⟨List.forall_mem_nil _,
        List.forall_mem_nil _⟩
  | .node node children :: trees, writable => by
      rw [labelsAll, List.all_append, Bool.and_eq_true] at writable
      have first := walk_returns_iff ids 2 order node.side topicCounter drawn (.node node children)
        writable.1
      have sided : some (if node.side = some .left then Side.left else Side.right) = node.side ↔
          node.side.isSome = true := by
        cases node.side with
        | none => simp
        | some side => cases side <;> simp
      rw [placeAll, subtreesAll, List.forall_mem_append, List.forall_mem_cons, ← first]
      simp only [label_node, Option.or_none, walkAll, List.map_cons,
        List.zipWith_cons_cons, List.cons.injEq]
      rw [branches_return_iff (order + 1) _ _ trees writable.2, carriedTree_withSide, place]
      · rw [label_node, label_node, sideOfPosition_synthesizePosition, sided]
        tauto
      · rfl

end Branches

/-! ### The round trip -/

/-- The file of a map is imported as a map that has what the file carries. -/
def Returned (ids : Nat → String) (parseFromString : Chars → Node) (name : Option Chars)
    (root : MindMapTreeNode) : Prop :=
  ∃ imported, wisemappingToTree ids parseFromString (treeToWisemapping root name)
      root.label.text = .ok imported ∧ carriedMap imported = carriedMap root

/-- What a map must have to come back. -/
structure Portable (root : MindMapTreeNode) : Prop where
  titled : root.label.text ≠ []
  unfolded : root.label.collapsed = false
  survives : Survives root.label
  sided : ∀ branch ∈ root.children, branch.label.side.isSome = true
  returns : ∀ branch ∈ subtreesAll root.children, Returns branch

section RoundTrip

variable {ids : Nat → String} {parseFromString : Chars → Node} {root : MindMapTreeNode}

/-- A root with the title of the map comes back with its text if it has one. -/
theorem carried_retitled_iff (fields node : NodeFields) (nonempty : fields.text ≠ []) :
    carried false { fields with
        id := "root", text := if node.text = [] then fields.text else node.text } =
        carried false node ↔
      node.text ≠ [] ∧ carried false { fields with text := node.text } = carried false node := by
  by_cases untitled : node.text = []
  · refine iff_of_false (fun same => ?_) fun titled => titled.1 untitled
    rw [if_pos untitled] at same
    exact nonempty ((congrArg Prod.fst same).trans untitled)
  · rw [if_neg untitled]
    exact (and_iff_right untitled).symm

/-- What is read carries what was written exactly if the map is portable. -/
theorem carriedMap_readMap_iff (ids : Nat → String) (writable : root.labels.all isWritable = true) :
    carriedMap (readMap ids root.label.text root) = carriedMap root ↔ Portable root := by
  obtain ⟨node, children⟩ := root
  rw [RoseTree.labels, List.all_cons, Bool.and_eq_true] at writable
  have under := branches_return_iff ids 0 1 1 children writable.2
  have here := carried_readFields_iff ⟨node, 1, 0, true, none, 1, !children.isEmpty⟩ (ids 0)
    writable.1
  have titled := carried_retitled_iff (readFields (ids 0)
    ⟨node, 1, 0, true, none, 1, !children.isEmpty⟩) node (by
      rw [text_readFields]
      exact readText_ne_nil node)
  rw [readMap, label_node]
  simp only [retitled, carriedMap, RoseTree.node.injEq, titled, here, under]
  constructor
  · rintro ⟨⟨titled, survives, folded⟩, sided, returns⟩
    refine ⟨titled, Bool.eq_false_iff.mpr fun collapsed => ?_, survives, sided, returns⟩
    exact Bool.noConfusion (folded collapsed).1
  · intro portable
    refine ⟨⟨portable.titled, portable.survives, fun collapsed => ?_⟩, portable.sided,
      portable.returns⟩
    exact absurd collapsed (Bool.eq_false_iff.mp portable.unfolded)

theorem isWritable_of_survives {node : NodeFields} (survives : Survives node) :
    isWritable node = true := by
  rw [isWritable, Bool.and_eq_true, Option.all_eq_true, Option.all_eq_true]
  exact ⟨fun text listed => (survives.color text listed).2.2,
    fun first listed => (survives.link first listed).2.2⟩

/-- A portable map is one that XML can carry. -/
theorem writable_of_portable (portable : Portable root) : root.labels.all isWritable = true := by
  rw [labels_eq, List.all_cons, isWritable_of_survives portable.survives, Bool.true_and,
    ← map_label_subtreesAll, List.all_map]
  exact List.all_eq_true.mpr fun branch listed =>
    isWritable_of_survives (portable.returns branch listed).survives

/-- Every conforming parser brings back the portable maps and no others. -/
theorem returned_iff_portable (conforms : Conforms parseFromString) {name : Option Chars} :
    Returned ids parseFromString name root ↔ Portable root := by
  constructor
  · rintro ⟨imported, read, same⟩
    by_cases writable : root.labels.all isWritable = true
    · rw [wisemappingToTree_of_writable ids root conforms writable] at read
      rw [← Except.ok.inj read] at same
      exact (carriedMap_readMap_iff ids writable).mp same
    · obtain ⟨error, refused⟩ :=
        wisemappingToTree_of_not_writable ids root conforms writable name root.label.text
      rw [refused] at read
      exact absurd read (by simp)
  · intro portable
    have writable := writable_of_portable portable
    exact ⟨_, wisemappingToTree_of_writable ids root conforms writable name _,
      (carriedMap_readMap_iff ids writable).mpr portable⟩

end RoundTrip

/-- With a parser that conforms, a map comes back from its WiseMapping file exactly if it is
portable, and under no title is a map imported that has a colour or a first link which XML
cannot carry. -/
theorem wisemapping_returned_iff {ids : Nat → String} {parseFromString : Chars → Node}
    (conforms : Conforms parseFromString) {name : Option Chars} {root : MindMapTreeNode} :
    (Returned ids parseFromString name root ↔ Portable root) ∧
      (root.labels.all isWritable = false → ∀ title, ∃ error,
        wisemappingToTree ids parseFromString (treeToWisemapping root name) title =
          .error error) := by
  refine ⟨returned_iff_portable conforms, fun invalid title => ?_⟩
  apply wisemappingToTree_of_not_writable ids root conforms
  rw [invalid]
  exact Bool.false_ne_true

instance (text : Chars) : Decidable (PlainText text) :=
  decidable_of_iff
    (trimChars text = text ∧ text ≠ [] ∧ text.all isChar = true ∧ '\r' ∉ text ∧
      ('\n' ∈ text ∨ '\t' ∉ text))
    ⟨fun ⟨trimmed, nonempty, valid, noReturn, noTab⟩ => ⟨trimmed, nonempty, valid, noReturn, noTab⟩,
      fun plain => ⟨plain.trimmed, plain.nonempty, plain.valid, plain.noReturn, plain.noTab⟩⟩

instance (node : NodeFields) : Decidable (Survives node) :=
  decidable_of_iff
    (trimChars node.notes = node.notes ∧ node.notes.all isChar = true ∧
      '\r' ∉ node.notes ∧
      (∀ color ∈ node.color, color ≠ [] ∧ OneLine color ∧ color.all isChar = true) ∧
      ∀ first ∈ node.urls.head?, first.url ≠ [] ∧ OneLine first.url ∧ first.url.all isChar = true)
    ⟨fun ⟨trimmed, valid, noReturn, color, link⟩ => ⟨trimmed, valid, noReturn, color, link⟩,
      fun survives => ⟨survives.trimmed, survives.valid, survives.noReturn, survives.color,
        survives.link⟩⟩

instance (branch : MindMapTreeNode) : Decidable (Returns branch) :=
  decidable_of_iff
    (Survives branch.label ∧ PlainText branch.label.text ∧
      (branch.label.collapsed = true → branch.children ≠ []))
    ⟨fun ⟨survives, plain, folded⟩ => ⟨survives, plain, folded⟩,
      fun returns => ⟨returns.survives, returns.plain, returns.folded⟩⟩

instance (root : MindMapTreeNode) : Decidable (Portable root) :=
  decidable_of_iff
    (root.label.text ≠ [] ∧ root.label.collapsed = false ∧ Survives root.label ∧
      (∀ branch ∈ root.children, branch.label.side.isSome = true) ∧
      ∀ branch ∈ subtreesAll root.children, Returns branch)
    ⟨fun ⟨titled, unfolded, survives, sided, returns⟩ =>
        ⟨titled, unfolded, survives, sided, returns⟩,
      fun portable => ⟨portable.titled, portable.unfolded, portable.survives, portable.sided,
        portable.returns⟩⟩

/-- A map with a text on two lines, notes that end a section, and a folded branch. -/
def sectionsMap : MindMapTreeNode :=
  .node (makeNode "root" "Plan".toList)
    [.node { makeNode "1" "first\nsecond".toList with
          notes := "a ]]> b".toList, side := some .left, collapsed := true }
        [.node { makeNode "2" "<below>".toList with color := some "#ff0000".toList } []],
      .node { makeNode "3" "right".toList with
          side := some .right, urls := [⟨"http://x/?a&b".toList, []⟩] } []]

theorem wisemapping_returned_iff_sectionsMap :
    Returned toString Xml.parse none sectionsMap :=
  (wisemapping_returned_iff conforms_parse).1.mpr (by decide +kernel)

end Wisemapping
end Formats
end MindMapVault
