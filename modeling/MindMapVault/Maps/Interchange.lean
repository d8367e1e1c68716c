import MindMapVault.Desktop.InterruptedSave
import MindMapVault.Foundations.JsonParse
import MindMapVault.Foundations.Numerals
import MindMapVault.Maps.LocalAttachments

/-!
# The `.mmvault` format

An export writes the root of a map as JSON, a local one with the originals of its
attachments put back inside. An import makes a new vault of the file: it renames the root, and
seals a map of that root alone under a key of its own. A node as a value has the properties
that are read here under the names they have in the source, and the others as they are.
-/

namespace MindMapVault
namespace Maps

open Crypto Desktop
open Vault (Bytes Envelope Objects)

/-- `MMVAULT_FORMAT`. -/
def mmvaultFormat : String := "mindmapvault-tree"

/-- What no function here reads of a node: the properties that are not listed below, and
what its picture has beside the id of its attachment. -/
structure NodeRest where
  properties : List (String × Json)
  image : Option (List (String × Json))

/-- `MindMapTree`. -/
structure MindMapTree where
  root : MindMapTreeNode NodeRest
  viewState : Option Json
  imageSizes : Option Json

/-! ### Maps as values -/

/-- A text that a value may be. -/
def asText : Json → Option String
  | .string text => some text
  | _ => none

/-- A whole number that a value may be. -/
def asInt : Json → Option Int
  | .number text => Ecma.parseInt text.toList
  | _ => none

/-- A whole number as a value. -/
def ofInt (number : Int) : Json := .number (String.ofList (Ecma.intText number))

/-- The properties of a reference. -/
def refEntries (ref : NodeAttachmentRef) : List (String × Option Json) :=
  [("attachment_id", some (.string ref.attachmentId)),
    ("preview_attachment_id", ref.details.previewAttachmentId.map .string),
    ("name", some (.string ref.details.name)),
    ("content_type", some (.string ref.details.contentType)),
    ("size_bytes", some (ofInt ref.details.sizeBytes)),
    ("preview_content_type", ref.details.previewContentType.map .string),
    ("preview_kind", ref.details.previewKind.map .string),
    ("uploaded_at", some (.string ref.details.uploadedAt)),
    ("inline_data_base64", ref.inlineDataBase64.map .string),
    ("local_file_key_b64", ref.localFileKeyB64.map .string),
    ("inline_preview_data_base64", ref.details.inlinePreviewDataBase64.map .string)]

/-- A reference as a value. -/
def ofRef (ref : NodeAttachmentRef) : Json := .object (Json.properties (refEntries ref))

/-- A value as a reference. -/
def asRef (value : Json) : NodeAttachmentRef :=
  let text (name : String) := (value.get? name).bind asText
  { attachmentId := (text "attachment_id").getD ""
    details :=
      { previewAttachmentId := text "preview_attachment_id"
        name := (text "name").getD ""
        contentType := (text "content_type").getD ""
        sizeBytes := (((value.get? "size_bytes").bind asInt).getD 0).toNat
        previewContentType := text "preview_content_type"
        previewKind := text "preview_kind"
        uploadedAt := (text "uploaded_at").getD ""
        inlinePreviewDataBase64 := text "inline_preview_data_base64" }
    inlineDataBase64 := text "inline_data_base64"
    localFileKeyB64 := text "local_file_key_b64" }

/-- The properties of a picture. -/
def pictureFields (attachmentId : Option String) (others : List (String × Json)) :
    List (String × Json) :=
  Json.properties [("attachment_id", attachmentId.map .string)] ++ others

/-- The properties of a node that are read, but for its children. -/
def contentEntries (content : NodeContent NodeRest) : List (String × Option Json) :=
  [("id", some (.string content.id)),
    ("text", some (.string content.text)),
    ("collapsed", some (.bool content.collapsed)),
    ("customX", content.customX.map ofInt),
    ("customY", content.customY.map ofInt),
    ("attachments", some (.array (content.attachments.map ofRef))),
    ("image", content.rest.image.map fun others =>
      .object (pictureFields content.imageAttachmentId others))]

/-- The names of the properties of a node that are read. -/
def nodeNames : List String :=
  ["id", "text", "collapsed", "customX", "customY", "attachments", "image", "children"]

/-- The items of an array. -/
def itemsOf : Option Json → List Json
  | some (.array items) => items
  | _ => []

/-- The properties of a value that is an object. -/
def fieldsOf : Json → Option (List (String × Json))
  | .object fields => some fields
  | _ => none

/-- The content of a node with these properties. -/
def asContent (fields : List (String × Json)) : NodeContent NodeRest :=
  let image := fields.lookup "image"
  { id := ((fields.lookup "id").bind asText).getD ""
    text := ((fields.lookup "text").bind asText).getD ""
    rest :=
      { properties := fields.filter (·.1 ∉ nodeNames)
        image := (image.bind fieldsOf).map (List.filter (·.1 ≠ "attachment_id")) }
    collapsed := ((fields.lookup "collapsed").map Json.truthy).getD false
    customX := (fields.lookup "customX").bind asInt
    customY := (fields.lookup "customY").bind asInt
    imageAttachmentId := (image.bind (Json.get? · "attachment_id")).bind asText
    attachments := (itemsOf (fields.lookup "attachments")).map asRef }

mutual

/-- A node as a value. -/
def ofNode : MindMapTreeNode NodeRest → Json
  | .node content children =>
      .object
        (Json.properties (contentEntries content) ++
          ("children", .array (ofNodes children)) :: content.rest.properties)

/-- Several nodes as values. -/
def ofNodes : List (MindMapTreeNode NodeRest) → List Json
  | [] => []
  | node :: nodes => ofNode node :: ofNodes nodes

end

mutual

/-- A value as a node. -/
def asNode : Json → MindMapTreeNode NodeRest
  | .object fields => .node (asContent fields) (asChildren fields)
  | _ => .node (asContent []) []

/-- The children among the properties of a node. -/
def asChildren : List (String × Json) → List (MindMapTreeNode NodeRest)
  | [] => []
  | (name, value) :: fields => if name = "children" then asNodes value else asChildren fields

/-- The items of an array as nodes. -/
def asNodes : Json → List (MindMapTreeNode NodeRest)
  | .array items => asItems items
  | _ => []

/-- Several values as nodes. -/
def asItems : List Json → List (MindMapTreeNode NodeRest)
  | [] => []
  | item :: items => asNode item :: asItems items

end

/-- What a map needs to be written as JSON and read back: its numbers are printed as they
are, and the properties that are not read have names of their own. -/
structure Storable (printNumber : List Char → String) (content : NodeContent NodeRest) :
    Prop where
  positions : ∀ position, content.customX = some position ∨ content.customY = some position →
    Json.Printable printNumber (ofInt position)
  sizes : ∀ ref ∈ content.attachments, Json.Printable printNumber (ofInt ref.details.sizeBytes)
  distinct : (content.rest.properties.map Prod.fst).Nodup
  unread : ∀ field ∈ content.rest.properties, field.1 ∉ nodeNames
  printable : Json.PrintableFields printNumber content.rest.properties
  pictured : content.rest.image = none → content.imageAttachmentId = none
  picture : ∀ others ∈ content.rest.image,
    ("attachment_id" :: others.map Prod.fst).Nodup ∧ Json.PrintableFields printNumber others

section Values

variable {printNumber : List Char → String}

@[simp] theorem asInt_ofInt (number : Int) : asInt (ofInt number) = some number := by
  rw [ofInt, asInt, String.toList_ofList, Ecma.parseInt_intText]

theorem asText_string (text : String) : asText (.string text) = some text := rfl

theorem bind_asText (text : Option String) : (text.map Json.string).bind asText = text := by
  cases text <;> rfl

theorem bind_asInt (number : Option Int) : (number.map ofInt).bind asInt = number := by
  cases number with
  | none => rfl
  | some number => exact asInt_ofInt number

/-- A reference is read back from its value. -/
theorem asRef_ofRef (ref : NodeAttachmentRef) : asRef (ofRef ref) = ref := by
  have distinct : ((refEntries ref).map Prod.fst).Nodup := by simp [refEntries]
  have found := Json.lookup_properties distinct
  simp only [asRef, ofRef, Json.get?, found]
  simp only [refEntries, List.lookup_cons, beq_self_eq_true, String.reduceBEq,
    Option.join_some, bind_asText]
  simp only [Option.bind_some, asText_string, asInt_ofInt, Option.getD_some, Int.toNat_natCast]

theorem printable_text (text : Option String) :
    ∀ value ∈ text.map Json.string, Json.Printable printNumber value := by
  intro value present
  obtain ⟨held, -, rfl⟩ := Option.map_eq_some_iff.mp present
  trivial

theorem printable_ofRef {ref : NodeAttachmentRef}
    (size : Json.Printable printNumber (ofInt ref.details.sizeBytes)) :
    Json.Printable printNumber (ofRef ref) := by
  have distinct : ((refEntries ref).map Prod.fst).Nodup := by simp [refEntries]
  refine ⟨Json.map_fst_properties_sublist.nodup distinct, ?_⟩
  rw [Json.printableFields_properties]
  simp only [refEntries, List.forall_mem_cons]
  refine ⟨printable_text (some _), printable_text _, printable_text (some _),
    printable_text (some _), ?_, printable_text _, printable_text _, printable_text (some _),
    printable_text _, printable_text _, printable_text _, by simp⟩
  rintro value ⟨⟩
  exact size

/-- The names of what is written of a node but for its children. -/
theorem name_of_properties {content : NodeContent NodeRest} {name : String}
    (present : name ∈ (Json.properties (contentEntries content)).map Prod.fst) :
    name ∈ nodeNames ∧ name ≠ "children" := by
  have listed := Json.map_fst_properties_sublist.subset present
  have all : ∀ name ∈ ["id", "text", "collapsed", "customX", "customY", "attachments", "image"],
      name ∈ nodeNames ∧ name ≠ "children" := by
    decide
  exact all name listed

variable {content : NodeContent NodeRest}

/-- What is read of a node is found among all of its properties. -/
theorem lookup_fields (storable : Storable printNumber content) (children : Json)
    {name : String} (isRead : name ∈ nodeNames) (other : name ≠ "children") :
    (Json.properties (contentEntries content) ++
        ("children", children) :: content.rest.properties).lookup name =
      ((contentEntries content).lookup name).join := by
  have distinct : ((contentEntries content).map Prod.fst).Nodup := by simp [contentEntries]
  have unread : content.rest.properties.lookup name = none := by
    refine List.lookup_eq_none_iff.mpr fun field listed => bne_iff_ne.mpr fun same => ?_
    exact storable.unread field listed (same ▸ isRead)
  rw [List.lookup_append, List.lookup_cons, beq_eq_false_iff_ne.mpr other, unread,
    Json.lookup_properties distinct, Option.or_none]

/-- The others are those that are not read. -/
theorem filter_fields (storable : Storable printNumber content) (children : Json) :
    (Json.properties (contentEntries content) ++
        ("children", children) :: content.rest.properties).filter (·.1 ∉ nodeNames) =
      content.rest.properties := by
  rw [List.filter_append, List.filter_cons_of_neg (by simp [nodeNames]),
    List.filter_eq_nil_iff.mpr, List.nil_append, List.filter_eq_self.mpr]
  · intro field listed
    simpa using storable.unread field listed
  · intro field present
    simpa using (name_of_properties (List.mem_map_of_mem present)).1

theorem pictureFields_spec {others : List (String × Json)}
    (distinct : ("attachment_id" :: others.map Prod.fst).Nodup) (attachmentId : Option String) :
    (pictureFields attachmentId others).filter (·.1 ≠ "attachment_id") = others ∧
      (pictureFields attachmentId others).lookup "attachment_id" = attachmentId.map Json.string ∧
      ((pictureFields attachmentId others).map Prod.fst).Nodup := by
  obtain ⟨fresh, distinct⟩ := List.nodup_cons.mp distinct
  have stays : others.filter (·.1 ≠ "attachment_id") = others := by
    refine List.filter_eq_self.mpr fun field listed => ?_
    simpa using fun same => fresh (List.mem_map.mpr ⟨field, listed, same⟩)
  have absent : others.lookup "attachment_id" = none :=
    List.lookup_eq_none_iff.mpr fun field listed => bne_iff_ne.mpr fun same =>
      fresh (List.mem_map.mpr ⟨field, listed, same.symm⟩)
  cases attachmentId with
  | none => exact ⟨stays, absent, distinct⟩
  | some attachmentId =>
      refine ⟨?_, rfl, List.nodup_cons.mpr ⟨fresh, distinct⟩⟩
      exact (List.filter_cons_of_neg (by simp)).trans stays

/-- A node is read back from its properties. -/
theorem asContent_fields (storable : Storable printNumber content) (children : Json) :
    asContent
        (Json.properties (contentEntries content) ++
          ("children", children) :: content.rest.properties) =
      content := by
  simp only [asContent, filter_fields storable children]
  simp (disch := decide) only [lookup_fields storable children]
  have refs : (content.attachments.map ofRef).map asRef = content.attachments := by
    rw [List.map_map]
    exact (List.map_congr_left fun ref _ => asRef_ofRef ref).trans (List.map_id _)
  simp only [contentEntries, List.lookup_cons, beq_self_eq_true, String.reduceBEq,
    Option.join_some, bind_asInt, Option.bind_some, asText_string, Option.getD_some,
    Option.map_some, Json.truthy, itemsOf, refs]
  have pictured := storable.pictured
  have picture := storable.picture
  obtain ⟨id, text, ⟨properties, image⟩, collapsed, customX, customY, attachmentId, attachments⟩ :=
    content
  cases image with
  | none =>
      cases pictured rfl
      rfl
  | some others =>
      obtain ⟨rest, held, -⟩ := pictureFields_spec (picture others rfl).1 attachmentId
      simp only [Option.map_some, Option.bind_some, fieldsOf, Json.get?, rest, held, bind_asText]

/-! Maps, node by node. -/

theorem asChildren_eq (fields : List (String × Json)) :
    asChildren fields = ((fields.lookup "children").map asNodes).getD [] := by
  induction fields with
  | nil => rfl
  | cons field fields ih =>
      obtain ⟨name, value⟩ := field
      rw [asChildren, List.lookup_cons]
      by_cases same : name = "children"
      · rw [if_pos same, same]
        rfl
      · rw [if_neg same, beq_eq_false_iff_ne.mpr (Ne.symm same), ih]

mutual

/-- A map is read back from its value. -/
theorem asNode_ofNode : ∀ root : MindMapTreeNode NodeRest,
    (∀ content ∈ root.labels, Storable printNumber content) → asNode (ofNode root) = root
  | .node content children, storable => by
      obtain ⟨own, others⟩ := List.forall_mem_cons.mp storable
      have below : asItems (ofNodes children) = children := asItems_ofNodes children others
      have absent : (Json.properties (contentEntries content)).lookup "children" = none := by
        refine List.lookup_eq_none_iff.mpr fun field present => bne_iff_ne.mpr fun same => ?_
        exact (name_of_properties (List.mem_map_of_mem present)).2 same.symm
      rw [ofNode, asNode, asContent_fields own, asChildren_eq, List.lookup_append, absent,
        Option.none_or, List.lookup_cons, beq_self_eq_true, Option.map_some,
        Option.getD_some, asNodes, below]

/-- The same for several of them. -/
theorem asItems_ofNodes : ∀ nodes : List (MindMapTreeNode NodeRest),
    (∀ content ∈ RoseTree.labelsAll nodes, Storable printNumber content) →
      asItems (ofNodes nodes) = nodes
  | [], _ => rfl
  | node :: nodes, storable => by
      obtain ⟨first, rest⟩ := List.forall_mem_append.mp storable
      rw [ofNodes, asItems, asNode_ofNode node first, asItems_ofNodes nodes rest]

end

theorem printable_fields (storable : Storable printNumber content) {children : Json}
    (printable : Json.Printable printNumber children) :
    Json.Printable printNumber
      (.object
        (Json.properties (contentEntries content) ++
          ("children", children) :: content.rest.properties)) := by
  have unread (name : String) (present : name ∈ content.rest.properties.map Prod.fst) :
      name ∉ nodeNames := by
    obtain ⟨field, listed, rfl⟩ := List.mem_map.mp present
    exact storable.unread field listed
  constructor
  · rw [List.map_append, List.map_cons, List.nodup_append]
    have distinct : ((contentEntries content).map Prod.fst).Nodup := by simp [contentEntries]
    refine ⟨Json.map_fst_properties_sublist.nodup distinct, ?_, ?_⟩
    · refine List.nodup_cons.mpr ⟨fun present => ?_, storable.distinct⟩
      exact unread "children" present (by decide)
    · rintro first written second others rfl
      obtain ⟨isRead, other⟩ := name_of_properties written
      rcases List.mem_cons.mp others with same | present
      · exact other same
      · exact unread first present isRead
  · rw [Json.printableFields_iff, List.forall_mem_append, List.forall_mem_cons,
      ← Json.printableFields_iff, ← Json.printableFields_iff, Json.printableFields_properties]
    refine ⟨?_, printable, storable.printable⟩
    simp only [contentEntries, List.forall_mem_cons]
    have position (held : Option Int)
        (isHeld : ∀ number, held = some number →
          content.customX = some number ∨ content.customY = some number) :
        ∀ value ∈ held.map ofInt, Json.Printable printNumber value := by
      intro value present
      obtain ⟨number, same, rfl⟩ := Option.map_eq_some_iff.mp present
      exact storable.positions number (isHeld number same)
    refine ⟨printable_text (some _), printable_text (some _), ?_,
      position content.customX (fun _ => .inl), position content.customY (fun _ => .inr), ?_, ?_,
      by simp⟩
    · rintro value ⟨⟩
      trivial
    · rintro value ⟨⟩
      rw [Json.Printable, Json.printableItems_iff, List.forall_mem_map]
      exact fun ref listed => printable_ofRef (storable.sizes ref listed)
    · intro value present
      obtain ⟨others, listed, rfl⟩ := Option.map_eq_some_iff.mp present
      obtain ⟨distinct, shown⟩ := storable.picture others listed
      refine ⟨(pictureFields_spec distinct _).2.2, ?_⟩
      rw [pictureFields, Json.printableFields_iff, List.forall_mem_append,
        ← Json.printableFields_iff, ← Json.printableFields_iff,
        Json.printableFields_properties]
      refine ⟨?_, shown⟩
      rw [List.forall_mem_singleton]
      exact printable_text _

mutual

/-- The value of a map is printed so that it can be read. -/
theorem printable_ofNode : ∀ root : MindMapTreeNode NodeRest,
    (∀ content ∈ root.labels, Storable printNumber content) →
      Json.Printable printNumber (ofNode root)
  | .node content children, storable => by
      obtain ⟨own, others⟩ := List.forall_mem_cons.mp storable
      exact printable_fields own (printable_ofNodes children others)

/-- The same for several of them. -/
theorem printable_ofNodes : ∀ nodes : List (MindMapTreeNode NodeRest),
    (∀ content ∈ RoseTree.labelsAll nodes, Storable printNumber content) →
      Json.PrintableItems printNumber (ofNodes nodes)
  | [], _ => trivial
  | node :: nodes, storable => by
      obtain ⟨first, rest⟩ := List.forall_mem_append.mp storable
      exact ⟨printable_ofNode node first, printable_ofNodes nodes rest⟩

end

end Values

/-- `value === text`. -/
def isText (value : Option Json) (text : String) : Bool :=
  match value with
  | some (.string held) => held == text
  | _ => false

/-- A number is above one by the way it is printed: it is not `1`, has no sign, neither
its own nor in the exponent, and does not begin with a zero. -/
def exceedsOne (printed : String) : Bool :=
  printed ≠ "1" ∧ '-' ∉ printed.toList ∧ printed.toList.head? ≠ some '0'

/-- The root as an import leaves it. -/
def retitled {Rest : Type} (title : String) : MindMapTreeNode Rest → MindMapTreeNode Rest
  | .node content children =>
      .node
        { content with
          id := "root"
          text := if title = "" then content.text else title }
        children

section Format

variable (printNumber : List Char → String)

/-- The version of a file, if the import can read it. -/
def readableVersion (version : Option Json) : Bool :=
  match version with
  | some (.number printed) => !exceedsOne printed
  | _ => false

/-- `Array.isArray`. -/
def isArray (value : Option Json) : Bool :=
  match value with
  | some (.array _) => true
  | _ => false

/-- The root of a file, if it is one. -/
def rootValue (root : Option Json) : Option Json :=
  root.filter fun value => isArray (value.get? "children")

/-- `mmvaultToTree`. -/
def mmvaultToTree (text title : String) : Except String (MindMapTreeNode NodeRest) := do
  let env ←
    match Json.parse printNumber text with
    | some parsed => .ok parsed
    | none => .error "Invalid .mmvault file: not valid JSON"
  if isText (env.get? "format") mmvaultFormat = false then
    throw "Invalid .mmvault file: missing format marker"
  if readableVersion (env.get? "version") = false then
    let version := ((env.get? "version").map Json.toText).getD "undefined"
    throw s!"Unsupported .mmvault version: {version}"
  match rootValue (env.get? "root") with
  | none => throw "Invalid .mmvault file: no root node"
  | some root => return retitled title (asNode root)

/-- A map as the value that is sealed. -/
def treeValue (tree : MindMapTree) : Json :=
  .object
    (Json.properties
      [("version", some (.string "tree")),
        ("root", some (ofNode tree.root)),
        ("view_state", tree.viewState),
        ("image_sizes", tree.imageSizes)])

/-- What `encryptTree` seals of a map. -/
def treeText (tree : MindMapTree) : Bytes := encodeText ((treeValue tree).stringify 0)

variable {printNumber} {root : MindMapTreeNode NodeRest}

end Format

section Files

variable (prims : Primitives)

end Files

/-- What the store answers with when a vault is opened. -/
structure VaultDetail where
  titleEncrypted : String
  envelope : Envelope
  blob : Bytes

section Vaults

variable (prims : Primitives) (kem : KemPrimitives)
variable (printNumber : List Char → String) (session : SessionKeys)

/-- What `handleImport` stores as a new vault. -/
def handleImport (draws : SaveDraws) (vaultTitle text : String) :
    Except String VaultDetail := do
  let parsedRoot ← mmvaultToTree printNumber text vaultTitle
  let importedTree : MindMapTree := { root := parsedRoot, viewState := none, imageSizes := none }
  let titleEnc := sealText prims (deriveTitleKey prims session.masterKey)
    draws.titleNonce (encodeText vaultTitle)
  let encapsulated ← sealEnvelope prims kem session draws.encap
  let encBlob ← encryptTree prims bytesCodec (treeText importedTree)
    encapsulated.dek.1 draws.treeNonce
  return ⟨titleEnc, encapsulated.envelope, encBlob⟩

variable {prims kem printNumber session}

end Vaults

end Maps
end MindMapVault
