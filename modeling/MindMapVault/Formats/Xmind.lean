import MindMapVault.Formats.TreeNode
import MindMapVault.Foundations.JsonParse

/-!
# The XMind format

An export writes a map as one sheet of topics in `content.json` of a zip archive. An import
reads any archive: topics are JSON of any shape, and what is not there, or has another
shape than expected, is passed over or makes the script throw. Archives of earlier versions
hold XML instead.
-/

namespace MindMapVault
namespace Formats

/-- A text as a value. -/
def textValue (text : Chars) : Json := .string (String.ofList text)

section Export

variable (suffixes : Nat → String)

/-- A property that is written only if there is something to write. -/
def optionalProperty (name : String) (value : Option Json) : List (String × Json) :=
  match value with
  | some value => [(name, value)]
  | none => []

/-- The properties of a topic but for its id and its children. -/
def topicProperties (node : NodeFields) : List (String × Json) :=
  [("title", textValue node.text)] ++
    optionalProperty "notes"
      (if Ecma.trimChars node.notes = [] then none
      else some (.object [("plain",
        .object [("content", textValue (Ecma.trimChars node.notes))])])) ++
    optionalProperty "href" (node.urls.head?.map fun first => textValue first.url) ++
    optionalProperty "style"
      ((node.color.filter (· ≠ [])).map fun color =>
        .object [("properties", .object [("background-color", textValue color)])])

mutual

/-- `nodeToXMind`, with the counter of topics before and after. -/
def nodeToXMind (topicCounter : Nat) : MindMapTreeNode → Json × Nat
  | .node node children =>
      let id := "topic-" ++ toString (topicCounter + 1) ++ "-" ++ suffixes (topicCounter + 1)
      let attached := nodesToXMind (topicCounter + 1) children
      (.object ([("id", .string id)] ++ topicProperties node ++
        optionalProperty "children"
          (if children.length > 0 then some (.object [("attached", .array attached.1)])
          else none)), attached.2)

/-- The same for several nodes. -/
def nodesToXMind (topicCounter : Nat) : List MindMapTreeNode → List Json × Nat
  | [] => ([], topicCounter)
  | child :: children =>
      let first := nodeToXMind topicCounter child
      let rest := nodesToXMind first.2 children
      (first.1 :: rest.1, rest.2)

end

/-- What `content.json` holds. -/
def xmindContent (root : MindMapTreeNode) (title : Chars) : Json :=
  .array
    [.object
      [("id", .string "sheet-1"),
        ("title", textValue (if title = [] then "Sheet 1".toList else title)),
        ("rootTopic", (nodeToXMind suffixes 0 root).1)]]

end Export

/-- A node of an import without its children. Its colour and its only link are what the
file has, whatever that is; its other fields are those of `makeNode`. -/
structure XmindNode where
  id : String
  text : Chars
  notes : Chars
  color : Option Json
  url : Option Json

/-- `value?.key`. -/
def chain (value : Option Json) (key : String) : Option Json :=
  match value with
  | none | some .null => none
  | some value => value.get? key

/-- `value.key`. -/
def property (value : Json) (key : String) : Except ImportError (Option Json) :=
  match value with
  | .null => .error .typeError
  | value => .ok (value.get? key)

/-- A value that is trimmed: anything but a string has no such method. -/
def trimmable (value : Json) : Except ImportError Chars :=
  match value with
  | .string text => .ok text.toList
  | _ => .error .typeError

/-- `value?.trim()`. -/
def trimValue (value : Option Json) : Except ImportError (Option Chars) :=
  match value with
  | none | some .null => .ok none
  | some value => (trimmable value).map fun text => some (Ecma.trimChars text)

/-- `first ?? second`. -/
def coalesce (first second : Option Json) : Option Json :=
  match first with
  | none | some .null => second
  | some value => some value

/-- `bgColor`. -/
def bgColor (style : Option Json) : Option Json :=
  let props := coalesce (chain style "properties") (some (.object []))
  coalesce (chain props "background-color")
    (coalesce (chain props "fill-color") (chain props "svg:fill"))

/-- What `parseJsonTopic` reads of a topic before its children. -/
def topicFields (id : String) (topic : Json) : Except ImportError XmindNode := do
  let title ← property topic "title"
  let text ← trimmable ((coalesce title none).getD (.string ""))
  let notes ← trimValue (chain (chain (topic.get? "notes") "plain") "content")
  return {
    id := id
    text := trimOr "Untitled" text
    notes := notes.getD []
    color := (bgColor (topic.get? "style")).filter Json.truthy
    url := (topic.get? "href").filter Json.truthy }

/-- `topic.children?.attached ?? []`, as something to map over. -/
def attachedTopics (topic : Json) : Except ImportError (List Json) :=
  match chain (topic.get? "children") "attached" with
  | none | some .null => .ok []
  | some (.array topics) => .ok topics
  | some _ => .error .typeError

section Size

theorem sizeOf_of_lookup {key : String} {value : Json} : ∀ {fields : List (String × Json)},
    fields.lookup key = some value → sizeOf value < sizeOf fields
  | (name, other) :: fields, found => by
      rw [List.lookup_cons] at found
      cases same : key == name with
      | true =>
          rw [same] at found
          obtain rfl := Option.some.inj found
          simp only [List.cons.sizeOf_spec, Prod.mk.sizeOf_spec]
          omega
      | false =>
          rw [same] at found
          have := sizeOf_of_lookup found
          simp only [List.cons.sizeOf_spec]
          omega

/-- A property is smaller than its object. -/
theorem sizeOf_of_get? {value found : Json} {key : String}
    (read : value.get? key = some found) : sizeOf found < sizeOf value := by
  cases value with
  | object fields =>
      have := sizeOf_of_lookup read
      simp only [Json.object.sizeOf_spec]
      omega
  | _ => exact absurd read.symm (Option.some_ne_none found)

theorem sizeOf_of_chain {value : Option Json} {found : Json} {key : String}
    (read : chain value key = some found) : ∃ whole, value = some whole ∧
      sizeOf found < sizeOf whole := by
  unfold chain at read
  split at read
  · exact absurd read.symm (Option.some_ne_none found)
  · exact absurd read.symm (Option.some_ne_none found)
  · exact ⟨_, rfl, sizeOf_of_get? read⟩

/-- The topics below a topic are parts of it. -/
theorem sizeOf_attachedTopics {topic : Json} {topics : List Json}
    (attached : attachedTopics topic = .ok topics) : sizeOf topics ≤ sizeOf topic := by
  have positive : 1 ≤ sizeOf topic := by
    cases topic with
    | _ => simp only [Json.null.sizeOf_spec, Json.bool.sizeOf_spec, Json.number.sizeOf_spec,
        Json.string.sizeOf_spec, Json.array.sizeOf_spec, Json.object.sizeOf_spec]; omega
  have nothing : sizeOf ([] : List Json) = 1 := rfl
  unfold attachedTopics at attached
  split at attached
  · obtain rfl := Except.ok.inj attached
    omega
  · obtain rfl := Except.ok.inj attached
    omega
  · next found =>
      obtain rfl := Except.ok.inj attached
      obtain ⟨children, read, inside⟩ := sizeOf_of_chain found
      have outside := sizeOf_of_get? read
      simp only [Json.array.sizeOf_spec] at inside
      omega
  · exact absurd attached (by simp only [reduceCtorEq, not_false_eq_true])

end Size

section Import

variable (ids : Nat → String)

mutual

/-- `parseJsonTopic`, with the number of ids drawn before and after. -/
def parseJsonTopic (drawn : Nat) (topic : Json) :
    Except ImportError (RoseTree XmindNode × Nat) :=
  match topicFields (ids drawn) topic with
  | .error error => .error error
  | .ok node =>
      match _ : attachedTopics topic with
      | .error error => .error error
      | .ok topics => do
          let (children, drawn) ← parseJsonTopics (drawn + 1) topics
          return (.node node children, drawn)
termination_by (sizeOf topic, 1)
decreasing_by
  have := sizeOf_attachedTopics ‹attachedTopics topic = .ok _›
  rcases Nat.lt_or_eq_of_le this with smaller | same
  · exact Prod.Lex.left _ _ smaller
  · exact same ▸ Prod.Lex.right _ (by decide)

/-- The same for several topics. -/
def parseJsonTopics (drawn : Nat) (topics : List Json) :
    Except ImportError (List (RoseTree XmindNode) × Nat) :=
  match topics with
  | [] => .ok ([], drawn)
  | topic :: topics => do
      let (first, drawn) ← parseJsonTopic drawn topic
      let (rest, drawn) ← parseJsonTopics drawn topics
      return (first :: rest, drawn)
termination_by (sizeOf topics, 0)
decreasing_by
  · exact Prod.Lex.left _ _ (by simp only [List.cons.sizeOf_spec]; omega)
  · exact Prod.Lex.left _ _ (by simp only [List.cons.sizeOf_spec]; omega)

end

variable {ids} in
/-- A topic that can be read is the node of its fields over what is read of its topics. -/
theorem parseJsonTopic_of {drawn : Nat} {topic : Json} {node : XmindNode}
    {topics : List Json} (fields : topicFields (ids drawn) topic = .ok node)
    (attached : attachedTopics topic = .ok topics) :
    parseJsonTopic ids drawn topic = (parseJsonTopics ids (drawn + 1) topics).map
      fun read => (.node node read.1, read.2) := by
  unfold parseJsonTopic
  rw [fields]
  dsimp only
  split
  · next failed =>
      rw [attached] at failed
      exact absurd failed (by simp only [reduceCtorEq, not_false_eq_true])
  · next found =>
      obtain rfl := Except.ok.inj (attached.symm.trans found)
      cases parseJsonTopics ids (drawn + 1) topics with
      | error error => rfl
      | ok read => rfl

variable {ids} in
/-- A topic that was read had fields and topics that were read. -/
theorem parseJsonTopic_ok {drawn after : Nat} {topic : Json}
    {parsed : RoseTree XmindNode} (read : parseJsonTopic ids drawn topic = .ok (parsed, after)) :
    ∃ node topics children, topicFields (ids drawn) topic = .ok node ∧
      attachedTopics topic = .ok topics ∧
      parseJsonTopics ids (drawn + 1) topics = .ok (children, after) ∧
      parsed = .node node children := by
  cases fields : topicFields (ids drawn) topic with
  | error error =>
      unfold parseJsonTopic at read
      rw [fields] at read
      exact absurd read (by simp only [reduceCtorEq, not_false_eq_true])
  | ok node =>
      cases attached : attachedTopics topic with
      | error error =>
          unfold parseJsonTopic at read
          rw [fields] at read
          dsimp only at read
          split at read
          · exact absurd read (by simp only [reduceCtorEq, not_false_eq_true])
          · next found =>
              rw [attached] at found
              exact absurd found (by simp only [reduceCtorEq, not_false_eq_true])
      | ok topics =>
          rw [parseJsonTopic_of fields attached] at read
          cases below : parseJsonTopics ids (drawn + 1) topics with
          | error error =>
              rw [below] at read
              exact absurd read (by simp only [Except.map, reduceCtorEq, not_false_eq_true])
          | ok inner =>
              rw [below] at read
              obtain ⟨rfl, rfl⟩ := Prod.mk.inj (Except.ok.inj read)
              exact ⟨node, topics, inner.1, rfl, rfl, below, rfl⟩

variable {ids} in
/-- Topics that were read are one and others. -/
theorem parseJsonTopics_cons_ok {drawn after : Nat} {topic : Json}
    {topics : List Json} {parsed : List (RoseTree XmindNode)}
    (read : parseJsonTopics ids drawn (topic :: topics) = .ok (parsed, after)) :
    ∃ first middle rest, parseJsonTopic ids drawn topic = .ok (first, middle) ∧
      parseJsonTopics ids middle topics = .ok (rest, after) ∧ parsed = first :: rest := by
  rw [parseJsonTopics] at read
  cases here : parseJsonTopic ids drawn topic with
  | error error =>
      rw [here] at read
      exact absurd read (by simp only [bind, Except.bind, reduceCtorEq, not_false_eq_true])
  | ok first =>
      rw [here] at read
      cases later : parseJsonTopics ids first.2 topics with
      | error error =>
          simp only [bind, Except.bind, later] at read
          exact absurd read (by simp only [reduceCtorEq, not_false_eq_true])
      | ok rest =>
          simp only [bind, Except.bind, later, pure, Except.pure] at read
          obtain ⟨rfl, rfl⟩ := Prod.mk.inj (Except.ok.inj read)
          exact ⟨first.1, first.2, rest.1, rfl, later, rfl⟩

/-- What an import looks for in a topic of an earlier version: the text of its title and of
its plain note, and a link. -/
structure LegacyTopic where
  title : Option Chars
  note : Option Chars
  href : Option Chars

/-- What `parseXmlTopic` reads of a topic before its children. -/
def legacyFields (id : String) (topic : LegacyTopic) : XmindNode where
  id := id
  text := trimOr "Untitled" ((topic.title.map Ecma.trimChars).getD [])
  notes := (topic.note.map Ecma.trimChars).getD []
  color := none
  url := (topic.href.filter (· ≠ [])).map textValue

/-- `parseXmlTopic`, the ids drawn in preorder. -/
def parseXmlTopic (topic : RoseTree LegacyTopic) : RoseTree XmindNode :=
  (topic.walk (fun drawn topic => (drawn + 1, legacyFields (ids drawn) topic)) 0).2

/-- The root of an import: `root.id = 'root'; root.text = title || root.text`. -/
def titled (title : Chars) : RoseTree XmindNode → RoseTree XmindNode
  | .node node children =>
      .node { node with id := "root", text := if title = [] then node.text else title } children

/-- `sheets[0]?.rootTopic`, where that is true. -/
def rootTopic (sheets : Json) : Option Json :=
  match sheets with
  | .array sheets => (chain sheets.head? "rootTopic").filter Json.truthy
  | _ => none

/-- The import of a value that `content.json` holds. -/
def importSheets (sheets : Json) (title : Chars) : Except ImportError (RoseTree XmindNode) :=
  match rootTopic sheets with
  | none => .error (.message "No root topic found in XMind file")
  | some topic => (parseJsonTopic ids 0 topic).map fun parsed => titled title parsed.1

/-- The zip library, the coding of texts as bytes, how numbers print, and the parser of XML:
the topic below a sheet, if the text is XML and if there is one. -/
structure XmindHost (Archive Bytes : Type) where
  zipSync : List (String × Bytes) → Archive
  unzipSync : Archive → Option (List (String × Bytes))
  strToU8 : String → Bytes
  strFromU8 : Bytes → String
  printNumber : Chars → String
  parseXml : String → Option (Option (RoseTree LegacyTopic))

section Host

variable {Archive Bytes : Type} (host : XmindHost Archive Bytes)

/-- `manifest`. -/
def xmindManifest : String :=
  "<?xml version=\"1.0\" encoding=\"UTF-8\"?>\n" ++
    "<manifest xmlns=\"urn:xmind:xmap:xmlns:manifest:1.0\">\n" ++
    "  <file-entry full-path=\"content.json\" media-type=\"application/json\"/>\n" ++
    "</manifest>"

/-- `treeToXmind`. -/
def treeToXmind (suffixes : Nat → String) (root : MindMapTreeNode) (title : Chars) : Archive :=
  host.zipSync
    [("content.json", host.strToU8 ((xmindContent suffixes root title).stringify 2)),
      ("META-INF/manifest.xml", host.strToU8 xmindManifest)]

/-- `xmindToTree`. -/
def xmindToTree (fileData : Archive) (title : Chars) :
    Except ImportError (RoseTree XmindNode) :=
  match host.unzipSync fileData with
  | none => .error (.message "Could not read .xmind file — not a valid ZIP archive")
  | some files =>
      match files.lookup "content.json", files.lookup "content.xml" with
      | some jsonEntry, _ =>
          match Json.parse host.printNumber (host.strFromU8 jsonEntry) with
          | none => .error (.message "Invalid content.json in .xmind file")
          | some sheets => importSheets ids sheets title
      | none, some xmlEntry =>
          match host.parseXml (host.strFromU8 xmlEntry) with
          | none => .error (.message "Invalid content.xml in .xmind file")
          | some none => .error (.message "No root topic found in XMind XML file")
          | some (some topic) => .ok (titled title (parseXmlTopic ids topic))
      | none, none =>
          .error (.message "Unrecognized .xmind file: no content.json or content.xml found")

end Host

end Import

end Formats
end MindMapVault
