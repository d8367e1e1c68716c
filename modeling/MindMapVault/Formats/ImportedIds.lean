import MindMapVault.Formats.FreemindImport
import MindMapVault.Formats.MarkdownGrowth
import MindMapVault.Formats.Wisemapping
import MindMapVault.Formats.XmindRoundTrip
import MindMapVault.Foundations.Numbered
import MindMapVault.Foundations.Result
import MindMapVault.Maps.Interchange
import MindMapVault.Maps.TreeIds

/-!
# The ids of an imported map

The editor finds a node by its id. The importers of other formats draw an id for every node
they make, in whatever order their files come, and some of the nodes are dropped or sorted
again; the own format brings the ids of the file. An import then names the root.
-/

namespace MindMapVault
namespace Formats

open Result
open RoseTree hiding node

variable {ids : Nat → String}

/-- The ids of a map that is read from a file of another format. -/
def fieldIds (tree : MindMapTreeNode) : List String := tree.labels.map NodeFields.id

def fieldIdsAll (trees : List MindMapTreeNode) : List String := (labelsAll trees).map NodeFields.id

@[simp] theorem fieldIds_node (node : NodeFields) (children : List MindMapTreeNode) :
    fieldIds (.node node children) = node.id :: fieldIdsAll children := rfl

@[simp] theorem fieldIdsAll_nil : fieldIdsAll [] = [] := rfl

@[simp] theorem fieldIdsAll_cons (tree : MindMapTreeNode) (trees : List MindMapTreeNode) :
    fieldIdsAll (tree :: trees) = fieldIds tree ++ fieldIdsAll trees := List.map_append

theorem fieldIdsAll_append (first second : List MindMapTreeNode) :
    fieldIdsAll (first ++ second) = fieldIdsAll first ++ fieldIdsAll second := by
  rw [fieldIdsAll, labelsAll_append, List.map_append]
  rfl

/-! ### FreeMind and FreePlane -/

section Freemind

/-- A node has the id that was drawn for it. -/
theorem id_parseFields {id : String} {element : Xml.Node} {node : NodeFields}
    (read : parseFields id element = .ok node) : node.id = id := by
  obtain ⟨text, -, read⟩ := bind_eq_ok.mp read
  obtain ⟨notes, -, read⟩ := bind_eq_ok.mp read
  obtain rfl := Except.ok.inj read
  rfl

/-- What is no element is read as a node without children. -/
theorem drawn_plain {drawn after : Nat} {tree : MindMapTreeNode}
    (read : (.ok (.node (makeNode (ids drawn) []) [], drawn + 1) :
      Except ImportError (MindMapTreeNode × Nat)) = .ok (tree, after)) :
    Drawn ids drawn after (fieldIds tree) := by
  obtain ⟨rfl, rfl⟩ := Prod.mk.inj (Except.ok.inj read)
  exact Drawn.one drawn

mutual

/-- A node that is read has drawn its ids. -/
theorem drawn_parseNode : ∀ (element : Xml.Node) {drawn after : Nat} {tree : MindMapTreeNode},
    parseNode ids drawn element = .ok (tree, after) → Drawn ids drawn after (fieldIds tree)
  | .element tagName attributes childNodes, drawn, after, tree, read => by
      rw [parseNode] at read
      obtain ⟨node, fields, read⟩ := bind_eq_ok.mp read
      obtain ⟨⟨children, middle⟩, below, read⟩ := bind_eq_ok.mp read
      obtain ⟨rfl, rfl⟩ := Prod.mk.inj (Except.ok.inj read)
      rw [fieldIds_node, id_parseFields fields]
      exact (drawn_parseNodes childNodes below).cons
  | .text _, _, _, _, read => drawn_plain read
  | .cdata _, _, _, _, read => drawn_plain read
  | .comment _, _, _, _, read => drawn_plain read

/-- Nodes that are read have drawn their ids. -/
theorem drawn_parseNodes : ∀ (children : List Xml.Node) {drawn after : Nat}
    {trees : List MindMapTreeNode},
    parseNodes ids drawn children = .ok (trees, after) → Drawn ids drawn after (fieldIdsAll trees)
  | [], drawn, after, trees, read => by
      obtain ⟨rfl, rfl⟩ := Prod.mk.inj (Except.ok.inj read)
      exact Drawn.nil drawn
  | child :: others, drawn, after, trees, read => by
      rw [parseNodes] at read
      split_ifs at read with isNode
      · obtain ⟨⟨first, middle⟩, here, read⟩ := bind_eq_ok.mp read
        obtain ⟨⟨rest, last⟩, later, read⟩ := bind_eq_ok.mp read
        obtain ⟨rfl, rfl⟩ := Prod.mk.inj (Except.ok.inj read)
        rw [fieldIdsAll_cons]
        exact (drawn_parseNode child here).append (drawn_parseNodes others later)
      · exact drawn_parseNodes others read

end

end Freemind

/-! ### WiseMapping -/

section Wisemapping

open Wisemapping (parsed parseTopicEl parseTopLevel withSide mapOfTopics)

theorem fieldIds_withSide (position : Option Chars) (tree : MindMapTreeNode) :
    fieldIds (withSide position tree) = fieldIds tree := by
  obtain ⟨node, children⟩ := tree
  rfl

variable (ids) in
/-- A topic that is read has drawn its ids. -/
theorem drawn_parseTopicEl (isTopLevel : Bool) (drawn : Nat) (topic : RoseTree Xml.Node) :
    Drawn ids drawn (parseTopicEl ids isTopLevel drawn topic).1
      (fieldIds (parseTopicEl ids isTopLevel drawn topic).2) := by
  have walked : Drawn ids drawn (topic.walk (parsed ids) drawn).1
      (fieldIds (topic.walk (parsed ids) drawn).2) :=
    drawn_walk ids (parsed ids) NodeFields.id (fun _ _ => rfl) (fun _ _ => rfl) drawn topic
  cases isTopLevel with
  | false => exact walked
  | true =>
      have same := fieldIds_withSide (topic.label.getAttribute "position")
        (topic.walk (parsed ids) drawn).2
      exact same.symm ▸ walked

variable (ids) in
theorem drawn_parseTopLevel (drawn : Nat) (topics : List (RoseTree Xml.Node)) :
    ∃ after, Drawn ids drawn after (fieldIdsAll (parseTopLevel ids drawn topics)) := by
  induction topics generalizing drawn with
  | nil => exact ⟨drawn, Drawn.nil drawn⟩
  | cons topic topics ih =>
      obtain ⟨after, rest⟩ := ih (parseTopicEl ids true drawn topic).1
      rw [parseTopLevel, fieldIdsAll_cons]
      exact ⟨after, (drawn_parseTopicEl ids true drawn topic).append rest⟩

/-- Sides change no id. -/
theorem fieldIdsAll_zipWith_sublist (positions : List (Option Chars))
    (trees : List MindMapTreeNode) :
    (fieldIdsAll (List.zipWith withSide positions trees)).Sublist (fieldIdsAll trees) := by
  induction positions generalizing trees with
  | nil => exact List.nil_sublist _
  | cons position positions ih =>
      cases trees with
      | nil => exact List.nil_sublist _
      | cons tree trees =>
          rw [List.zipWith_cons_cons, fieldIdsAll_cons, fieldIdsAll_cons, fieldIds_withSide]
          exact (ih trees).append_left _

end Wisemapping

/-! ### XMind -/

section Xmind

variable {printed : Nat}

theorem id_topicFields {id : String} {topic : Json} {node : XmindNode}
    (read : topicFields id topic = .ok node) : node.id = id := by
  obtain ⟨title, -, read⟩ := bind_eq_ok.mp read
  obtain ⟨text, -, read⟩ := bind_eq_ok.mp read
  obtain ⟨notes, -, read⟩ := bind_eq_ok.mp read
  obtain rfl := Except.ok.inj read
  rfl

mutual

/-- A topic of `content.json` has drawn the ids it has. -/
theorem drawn_parseJsonTopic {drawn after : Nat} (topic : Json) {tree : RoseTree XmindNode}
    (read : parseJsonTopic ids drawn topic = .ok (tree, after)) :
    Drawn ids drawn after (tree.labels.map XmindNode.id) := by
  obtain ⟨node, topics, children, fields, attached, below, rfl⟩ := parseJsonTopic_ok read
  have smaller := weight_attachedTopics attached
  have inner := drawn_parseJsonTopics topics below
  rw [RoseTree.labels, List.map_cons, id_topicFields fields]
  exact inner.cons
termination_by topic.weight

/-- Topics that are read have drawn their ids. -/
theorem drawn_parseJsonTopics {drawn after : Nat} : ∀ (topics : List Json)
    {trees : List (RoseTree XmindNode)},
    parseJsonTopics ids drawn topics = .ok (trees, after) →
      Drawn ids drawn after ((labelsAll trees).map XmindNode.id)
  | [], trees, read => by
      rw [parseJsonTopics] at read
      obtain ⟨rfl, rfl⟩ := Prod.mk.inj (Except.ok.inj read)
      exact Drawn.nil drawn
  | topic :: topics, trees, read => by
      obtain ⟨first, middle, rest, readFirst, readRest, rfl⟩ := parseJsonTopics_cons_ok read
      rw [labelsAll, List.map_append]
      exact (drawn_parseJsonTopic topic readFirst).append (drawn_parseJsonTopics topics readRest)
termination_by topics => Json.weightItems topics
decreasing_by
  · rw [Json.weightItems]
    omega
  · rw [Json.weightItems]
    omega

end

variable (ids) in
/-- A topic of `content.xml` has drawn the ids it has. -/
theorem drawn_parseXmlTopic (topic : RoseTree LegacyTopic) :
    ∃ after, Drawn ids 0 after ((parseXmlTopic ids topic).labels.map XmindNode.id) :=
  ⟨_, drawn_walk ids (fun drawn topic => (drawn + 1, legacyFields (ids drawn) topic))
    XmindNode.id (fun _ _ => rfl) (fun _ _ => rfl) 0 topic⟩

end Xmind

/-! ### Markdown -/

section Markdown

variable {toIsoDate : Chars → Chars}

/-- The ids of the nodes that are read so far. -/
def Reading.nodeIds (reading : Reading) : List String :=
  (stackLabels (reading.top :: reading.below)).map NodeFields.id

theorem drawn_openNode {reading : Reading} {node : NodeFields} {level : Nat}
    (drawn : Drawn ids 0 reading.drawn reading.nodeIds) (isNew : node.id = ids reading.drawn) :
    Drawn ids 0 (reading.openNode node level).drawn (reading.openNode node level).nodeIds := by
  have added : (reading.openNode node level).nodeIds = reading.nodeIds ++ [ids reading.drawn] := by
    have before := stackLabels_popTo level reading.below reading.top
    rw [Reading.nodeIds, Reading.openNode, stackLabels, before, List.map_append, Reading.nodeIds,
      ← isNew]
    rfl
  rw [added]
  exact drawn.append (Drawn.one reading.drawn)

theorem fieldIds_relabel {change : NodeFields → NodeFields}
    (keeps : ∀ node, (change node).id = node.id) (tree : MindMapTreeNode) :
    fieldIds (relabel change tree) = fieldIds tree := by
  obtain ⟨node, children⟩ := tree
  rw [relabel, fieldIds_node, fieldIds_node, keeps]

theorem fieldIdsAll_modifyLast {change : NodeFields → NodeFields}
    (keeps : ∀ node, (change node).id = node.id) (trees : List MindMapTreeNode) :
    fieldIdsAll (trees.modifyLast (relabel change)) = fieldIdsAll trees := by
  induction trees using List.reverseRecOn with
  | nil => rfl
  | append_singleton trees tree _ =>
      rw [List.modifyLast_concat, fieldIdsAll_append, fieldIdsAll_append, fieldIdsAll_cons,
        fieldIdsAll_cons, fieldIds_relabel keeps]

/-- What is said of the last node is said of the same node. -/
theorem nodeIds_changeLast {change : NodeFields → NodeFields}
    (keeps : ∀ node, (change node).id = node.id) (reading : Reading) :
    (reading.changeLast change).nodeIds = reading.nodeIds := by
  simp only [Reading.nodeIds, stackLabels, List.map_append]
  rw [Reading.changeLast]
  split_ifs
  · refine congrArg (List.append _) ?_
    change reading.top.node.id :: fieldIdsAll (reading.top.children.modifyLast _) = _
    rw [fieldIdsAll_modifyLast keeps]
    rfl
  · refine congrArg (List.append _) ?_
    change (change reading.top.node).id :: fieldIdsAll reading.top.children = _
    rw [keeps]
    rfl

theorem id_applyMetadata (found : Metadata) (node : NodeFields) :
    (applyMetadata toIsoDate found node).id = node.id := by
  cases found <;> rfl

theorem id_applyNote (noteText : Chars) (node : NodeFields) :
    (applyNote noteText node).id = node.id := by
  rw [applyNote]
  split_ifs <;> rfl

theorem drawn_changeLast {reading : Reading} {change : NodeFields → NodeFields}
    (keeps : ∀ node, (change node).id = node.id)
    (drawn : Drawn ids 0 reading.drawn reading.nodeIds) :
    Drawn ids 0 (reading.changeLast change).drawn (reading.changeLast change).nodeIds := by
  have same : (reading.changeLast change).drawn = reading.drawn := by
    rw [Reading.changeLast]
    split_ifs <;> rfl
  rw [same, nodeIds_changeLast keeps]
  exact drawn

/-- A line draws at most one id, for a node that it adds. -/
theorem drawn_readLine {reading : Reading} (rawLine : Chars)
    (drawn : Drawn ids 0 reading.drawn reading.nodeIds) :
    Drawn ids 0 (readLine ids toIsoDate reading rawLine).drawn
      (readLine ids toIsoDate reading rawLine).nodeIds := by
  unfold readLine
  dsimp only
  split_ifs with blank comment
  · exact drawn
  · exact drawn
  split
  · exact drawn_openNode drawn rfl
  split
  · exact drawn_openNode drawn rfl
  split
  · exact drawn_changeLast (id_applyMetadata _) drawn
  split
  · exact drawn_changeLast (id_applyNote _) drawn
  have added := drawn.append (Drawn.one reading.drawn)
  rw [Reading.nodeIds, stackLabels, List.map_append, List.append_assoc] at added
  rw [Reading.nodeIds, stackLabels, labels_push, List.map_append, List.map_append]
  exact added

variable (ids toIsoDate) in
/-- However many lines are read, the ids are those drawn. -/
theorem drawn_foldl (lines : List Chars) (reading : Reading)
    (drawn : Drawn ids 0 reading.drawn reading.nodeIds) :
    Drawn ids 0 (lines.foldl (readLine ids toIsoDate) reading).drawn
      (lines.foldl (readLine ids toIsoDate) reading).nodeIds := by
  induction lines generalizing reading with
  | nil => exact drawn
  | cons line lines ih =>
      exact ih _ (drawn_readLine line drawn)

/-- Closing the frames draws nothing. -/
theorem drawn_close {reading : Reading} (drawn : Drawn ids 0 reading.drawn reading.nodeIds) :
    Drawn ids 0 reading.drawn (fieldIds reading.close) := by
  have whole := stackLabels_popTo 0 reading.below reading.top
  rw [popTo_zero, stackLabels, stackLabels, List.nil_append] at whole
  rw [fieldIds, Reading.close, whole]
  exact drawn

theorem drawn_orPlaceholder {after : Nat} {tree : MindMapTreeNode}
    (drawn : Drawn ids 0 after (fieldIds tree)) :
    ∃ last, Drawn ids 0 last (fieldIds (orPlaceholder (ids after) tree)) := by
  obtain ⟨node, children⟩ := tree
  cases children with
  | nil => exact ⟨after + 1, drawn.append (Drawn.one after)⟩
  | cons child children => exact ⟨after, drawn⟩

/-- The ids below the root. -/
def idsBelow (tree : MindMapTreeNode) : List String := fieldIdsAll tree.children

theorem idsBelow_relabel (change : NodeFields → NodeFields) (tree : MindMapTreeNode) :
    idsBelow (relabel change tree) = idsBelow tree := by
  obtain ⟨node, children⟩ := tree
  rfl

theorem idsBelow_sublist (tree : MindMapTreeNode) :
    (idsBelow tree).Sublist (fieldIds tree) := by
  obtain ⟨node, children⟩ := tree
  exact List.sublist_cons_self _ _

/-- A wrapper that is taken off leaves nodes of what was in it. -/
theorem idsBelow_promote (tree : MindMapTreeNode) :
    (idsBelow (promote tree)).Sublist (idsBelow tree) := by
  obtain ⟨node, children⟩ := tree
  match children with
  | [] => exact List.Sublist.refl _
  | [only] =>
      have inside := idsBelow_sublist only
      simpa only [promote, idsBelow, RoseTree.children, fieldIdsAll_cons, fieldIdsAll_nil,
        List.append_nil] using inside
  | _ :: _ :: _ => exact List.Sublist.refl _

/-- Dropping the echo of the title takes ids away and adds none. -/
theorem idsBelow_echo (text : Chars) (tree : MindMapTreeNode) :
    (idsBelow (echo text tree)).Sublist (idsBelow tree) := by
  induction tree using echo.induct text with
  | case1 node only same ih =>
      rw [echo, if_pos same]
      refine ih.trans ?_
      have inside := idsBelow_sublist only
      simpa only [idsBelow, RoseTree.children, fieldIdsAll_cons, fieldIdsAll_nil,
        List.append_nil] using inside
  | case2 node only other => rw [echo, if_neg other]
  | case3 tree notOne => rw [echo.eq_2 _ _ notOne]

/-- Unwrapping takes ids away and adds none. -/
theorem idsBelow_unwrap (tree : MindMapTreeNode) :
    (idsBelow (unwrap tree)).Sublist (idsBelow tree) := by
  unfold unwrap
  split
  · next node only =>
      split_ifs with same
      · have below : (idsBelow only).Sublist (idsBelow (.node node [only])) := by
          have inside := idsBelow_sublist only
          simpa only [idsBelow, RoseTree.children, fieldIdsAll_cons, fieldIdsAll_nil,
            List.append_nil] using inside
        have unwrapped := ((idsBelow_promote _).trans (idsBelow_echo node.text only)).trans below
        rw [idsBelow_relabel]
        exact unwrapped
      · exact List.Sublist.refl _
  · exact List.Sublist.refl _

variable (ids toIsoDate) in
/-- Below its root an imported Markdown file has ids that were drawn. -/
theorem drawn_obsidianMarkdownToTree (md title : Chars) :
    ∃ after items, Drawn ids 0 after items ∧
      (idsBelow (obsidianMarkdownToTree ids toIsoDate md title)).Sublist items := by
  have read := drawn_foldl ids toIsoDate ((stripFrontmatter md).splitOn '\n')
    ⟨1, ⟨makeNode (ids 0) title, 0, []⟩, [], false⟩ (Drawn.one 0)
  obtain ⟨after, drawn⟩ := drawn_orPlaceholder (drawn_close read)
  exact ⟨after, _, drawn, (idsBelow_unwrap _).trans (idsBelow_sublist _)⟩

end Markdown

/-! ### Imports -/

/-- What the importers rest on: the ids that are drawn, how a date is read, the parser of XML,
what reads archives, and how a number prints. -/
structure ImportHost (Archive Bytes : Type) where
  ids : Nat → String
  toIsoDate : Chars → Chars
  parseFromString : Chars → Xml.Node
  archives : XmindHost Archive Bytes
  printNumber : List Char → String

/-- A chosen file with its `ImportFormatId`. -/
inductive ImportFile (Archive : Type)
  | mmvault (text : String)
  | md (text : Chars)
  | mm (text : Chars)
  | wxml (text : Chars)
  | xmind (fileData : Archive)

section Imports

variable {Archive Bytes : Type} (host : ImportHost Archive Bytes)

/-- `format.parse`, with the ids of the nodes only; nothing where it throws. -/
def ImportHost.parse (vaultTitle : String) : ImportFile Archive → Option (RoseTree String)
  | .mmvault text =>
      (Maps.mmvaultToTree host.printNumber text vaultTitle).toOption.map
        (RoseTree.map Maps.NodeContent.id)
  | .md text =>
      some ((obsidianMarkdownToTree host.ids host.toIsoDate text vaultTitle.toList).map
        NodeFields.id)
  | .mm text =>
      (freemindToTree host.ids host.parseFromString text vaultTitle.toList).toOption.map
        (RoseTree.map NodeFields.id)
  | .wxml text =>
      (Wisemapping.wisemappingToTree host.ids host.parseFromString text
        vaultTitle.toList).toOption.map (RoseTree.map NodeFields.id)
  | .xmind fileData =>
      (xmindToTree host.ids host.archives fileData vaultTitle.toList).toOption.map
        (RoseTree.map XmindNode.id)

/-- `parsedRoot.id = 'root'`. -/
def namedRoot : RoseTree String → RoseTree String
  | .node _ children => .node "root" children

/-- The ids of the map that `handleImport` seals. -/
def ImportHost.handleImport (vaultTitle : String) (file : ImportFile Archive) :
    Option (RoseTree String) :=
  (host.parse vaultTitle file).map namedRoot

/-- The ids that a file of the own format brings below its root are distinct, and none of them
is the root's. -/
def ImportHost.BringsDistinctIds (vaultTitle : String) : ImportFile Archive → Prop
  | .mmvault text => ∀ root, Maps.mmvaultToTree host.printNumber text vaultTitle = .ok root →
      (Maps.nodeIdsAll root.children).Nodup ∧ "root" ∉ Maps.nodeIdsAll root.children
  | .md _ | .mm _ | .wxml _ | .xmind _ => True

variable {host} {vaultTitle : String} {file : ImportFile Archive} {tree : RoseTree String}

theorem labels_below {Label : Type} (name : Label → String) (tree : RoseTree Label) :
    labelsAll (tree.map name).children = (labelsAll tree.children).map name := by
  obtain ⟨label, children⟩ := tree
  exact labelsAll_mapAll name children

/-- Whatever a root is given, the nodes below it are among those that are drawn. -/
theorem below_sublist {Label : Type} {name : Label → String} {items : List String}
    {parsed imported : RoseTree Label} (same : imported.children = parsed.children)
    (drawn : parsed.labels.map name = items) :
    (labelsAll (imported.map name).children).Sublist items := by
  obtain ⟨label, children⟩ := parsed
  rw [labels_below, same, ← drawn]
  exact List.sublist_cons_self _ _

theorem children_retitled (title : Chars) (tree : MindMapTreeNode) :
    (retitled title tree).children = tree.children := by
  obtain ⟨node, children⟩ := tree
  rfl

theorem children_titled (title : Chars) (tree : RoseTree XmindNode) :
    (titled title tree).children = tree.children := by
  obtain ⟨node, children⟩ := tree
  rfl

/-- The ids below the root of a FreeMind file were drawn, each once. -/
theorem drawn_freemindToTree {parseFromString : Chars → Xml.Node} {text title : Chars}
    {root : MindMapTreeNode} (read : freemindToTree ids parseFromString text title = .ok root) :
    ∃ after items, Drawn ids 0 after items ∧
      (labelsAll (root.map NodeFields.id).children).Sublist items := by
  unfold freemindToTree at read
  dsimp only at read
  split at read
  · cases read
  split at read
  · cases read
  split at read
  · cases read
  obtain ⟨⟨parsed, after⟩, parses, rfl⟩ := map_eq_ok.mp read
  exact ⟨after, _, drawn_parseNode _ parses, below_sublist (children_retitled title parsed) rfl⟩

/-- The ids below the root of a WiseMapping file were drawn, each once. -/
theorem drawn_wisemappingToTree {parseFromString : Chars → Xml.Node} {text title : Chars}
    {root : MindMapTreeNode}
    (read : Wisemapping.wisemappingToTree ids parseFromString text title = .ok root) :
    ∃ after items, Drawn ids 0 after items ∧
      (labelsAll (root.map NodeFields.id).children).Sublist items := by
  unfold Wisemapping.wisemappingToTree at read
  dsimp only at read
  split at read
  · cases read
  split at read
  · cases read
  split at read
  · cases read
  next _ mapEl _ _ rootTopicEl _ =>
    obtain rfl := Except.ok.inj read
    have first := drawn_parseTopicEl ids false 0 (Wisemapping.topicTree rootTopicEl)
    obtain ⟨after, rest⟩ := drawn_parseTopLevel ids
      (Wisemapping.parseTopicEl ids false 0 (Wisemapping.topicTree rootTopicEl)).1
      (Wisemapping.topLevelTopics mapEl)
    refine ⟨after, _, first.append rest, ?_⟩
    rw [labels_below, Wisemapping.mapOfTopics, children_retitled]
    change (fieldIdsAll (_ ++ _)).Sublist _
    rw [fieldIdsAll_append]
    exact ((fieldIdsAll_zipWith_sublist _ _).trans (idsBelow_sublist _)).append_right _

/-- The ids below the root of an XMind file were drawn, each once. -/
theorem drawn_xmindToTree {fileData : Archive} {archives : XmindHost Archive Bytes}
    {title : Chars} {root : RoseTree XmindNode}
    (read : xmindToTree ids archives fileData title = .ok root) :
    ∃ after items, Drawn ids 0 after items ∧
      (labelsAll (root.map XmindNode.id).children).Sublist items := by
  unfold xmindToTree at read
  split at read
  · cases read
  split at read
  · split at read
    · cases read
    · unfold importSheets at read
      split at read
      · cases read
      · obtain ⟨⟨parsed, after⟩, parses, rfl⟩ := map_eq_ok.mp read
        exact ⟨after, _, drawn_parseJsonTopic _ parses,
          below_sublist (children_titled title parsed) rfl⟩
  · split at read
    · cases read
    · cases read
    · next topic _ =>
        obtain rfl := Except.ok.inj read
        obtain ⟨after, drawn⟩ := drawn_parseXmlTopic ids topic
        exact ⟨after, _, drawn, below_sublist (children_titled title _) rfl⟩
  · cases read

/-- The importers of the other formats draw the ids of all nodes below the root. -/
theorem drawn_parse (parses : host.parse vaultTitle file = some tree)
    (other : ∀ text, file ≠ .mmvault text) :
    ∃ after items, Drawn host.ids 0 after items ∧ (labelsAll tree.children).Sublist items := by
  cases file with
  | mmvault text => exact absurd rfl (other text)
  | md text =>
      obtain rfl := Option.some.inj parses
      obtain ⟨after, items, drawn, below⟩ := drawn_obsidianMarkdownToTree host.ids
        host.toIsoDate text vaultTitle.toList
      exact ⟨after, items, drawn, labels_below NodeFields.id _ ▸ below⟩
  | mm text =>
      obtain ⟨root, read, rfl⟩ := Option.map_eq_some_iff.mp parses
      exact drawn_freemindToTree (toOption_eq_some.mp read)
  | wxml text =>
      obtain ⟨root, read, rfl⟩ := Option.map_eq_some_iff.mp parses
      exact drawn_wisemappingToTree (toOption_eq_some.mp read)
  | xmind fileData =>
      obtain ⟨root, read, rfl⟩ := Option.map_eq_some_iff.mp parses
      exact drawn_xmindToTree (toOption_eq_some.mp read)

/-- Naming the root keeps the ids apart if none below has its name. -/
theorem nodup_namedRoot (tree : RoseTree String) :
    (namedRoot tree).labels.Nodup ↔
      (labelsAll tree.children).Nodup ∧ "root" ∉ labelsAll tree.children := by
  obtain ⟨label, children⟩ := tree
  rw [namedRoot, RoseTree.labels, List.nodup_cons, and_comm]
  rfl

/-- Whatever file is imported, the root of the map is the root to the editor, and no two nodes
have one id, unless the file is of the own format and brings ids that are not distinct. -/
theorem handleImport_nodup_iff (injective : Function.Injective host.ids)
    (notRoot : ∀ number, host.ids number ≠ "root")
    (imports : host.handleImport vaultTitle file = some tree) :
    tree.label = "root" ∧ (tree.labels.Nodup ↔ host.BringsDistinctIds vaultTitle file) := by
  obtain ⟨parsed, parses, rfl⟩ := Option.map_eq_some_iff.mp imports
  have isRoot : (namedRoot parsed).label = "root" := by
    obtain ⟨label, children⟩ := parsed
    rfl
  refine ⟨isRoot, (nodup_namedRoot parsed).trans ?_⟩
  have minted : (∀ text, file ≠ .mmvault text) →
      (labelsAll parsed.children).Nodup ∧ "root" ∉ labelsAll parsed.children := by
    intro other
    obtain ⟨after, items, drawn, below⟩ := drawn_parse parses other
    refine ⟨(drawn.nodup injective).sublist below, fun listed => ?_⟩
    obtain ⟨number, same⟩ := drawn.exists_draw (below.subset listed)
    exact notRoot number same
  cases file with
  | mmvault text =>
      obtain ⟨root, read, rfl⟩ := Option.map_eq_some_iff.mp parses
      have read := toOption_eq_some.mp read
      rw [labels_below]
      constructor
      · intro distinct other another
        obtain rfl := Except.ok.inj (read.symm.trans another)
        exact distinct
      · exact fun distinct => distinct root read
  | md | mm | wxml | xmind => exact iff_of_true (minted nofun) trivial

end Imports

/-- Ids of different lengths, and parsers that find nothing. -/
def countedImports : ImportHost (List (String × String)) String where
  ids := fun number => String.ofList (List.replicate number 'n')
  toIsoDate := id
  parseFromString := fun _ => .text []
  archives := plainHost
  printNumber := String.ofList

theorem injective_countedImports : Function.Injective countedImports.ids := by
  intro first second same
  have length := congrArg (fun id => id.toList.length) same
  simpa only [countedImports, String.toList_ofList, List.length_replicate] using length

theorem countedImports_ne_root (number : Nat) : countedImports.ids number ≠ "root" := by
  intro same
  have texts := congrArg String.toList same
  rw [countedImports, String.toList_ofList] at texts
  have first : 'r' ∈ List.replicate number 'n' := texts.symm ▸ List.mem_cons_self
  exact absurd (List.eq_of_mem_replicate first) (by decide)

theorem handleImport_nodup_iff_list :
    ∃ tree, countedImports.handleImport "Plan" (.md "- one\n  - two\n- three".toList) =
      some tree ∧ tree.label = "root" ∧ tree.labels.Nodup := by
  have imports : countedImports.handleImport "Plan" (.md "- one\n  - two\n- three".toList) =
      some _ := rfl
  obtain ⟨isRoot, distinct⟩ :=
    handleImport_nodup_iff injective_countedImports countedImports_ne_root imports
  exact ⟨_, imports, isRoot, distinct.mpr trivial⟩

end Formats
end MindMapVault
