import MindMapVault.Foundations.KeyedList
import MindMapVault.Foundations.RoseEdits

/-!
# Attachment references brought into a map

References to new attachments are laid over those of a node by the id of the attachment,
and sorted, the newest first. A branch in which nothing changes stays the object that it
was; what counts as a change is decided on some of the fields only.
-/

namespace MindMapVault
namespace Maps

/-- What a field of a reference can hold. -/
inductive FieldValue
  | undefined
  | null
  | text (text : String)
  | number (value : Rat)
  | infinity (negative : Bool)
  | nan
  deriving DecidableEq

/-- `===`. -/
def FieldValue.strictlyEquals (left right : FieldValue) : Bool := left = right ∧ left ≠ .nan

/-- The fields of a reference but for its id and its time. -/
inductive RefField
  | previewAttachmentId
  | name
  | contentType
  | sizeBytes
  | previewContentType
  | previewKind
  | inlineDataBase64
  | localFileKeyB64
  | inlinePreviewDataBase64
  deriving DecidableEq

/-- A reference to an attachment as an object: it need not have a field. -/
@[ext] structure AttachmentRef where
  attachmentId : String
  uploadedAt : String
  fields : RefField → Option FieldValue

namespace AttachmentRef

/-- What a field reads as. -/
def get (ref : AttachmentRef) (field : RefField) : FieldValue := (ref.fields field).getD .undefined

/-- `{ ...base, ...over }`. -/
def spread (base later : AttachmentRef) : AttachmentRef :=
  { later with fields := fun field => (later.fields field).or (base.fields field) }

@[simp] theorem attachmentId_spread (base later : AttachmentRef) :
    (spread base later).attachmentId = later.attachmentId := rfl

end AttachmentRef

/-- The fields that `attachmentRefsEqual` compares besides the id and the time. -/
def comparedFields : List RefField :=
  [.previewAttachmentId, .name, .contentType, .sizeBytes, .previewContentType, .previewKind]

/-- `attachmentRefsEqual`. -/
def attachmentRefsEqual (left right : List AttachmentRef) : Bool :=
  left.length = right.length ∧
    ∀ pair ∈ left.zip right,
      pair.2.attachmentId = pair.1.attachmentId ∧
        (∀ field ∈ comparedFields, (pair.2.get field).strictlyEquals (pair.1.get field)) ∧
          pair.2.uploadedAt = pair.1.uploadedAt

/-- A node without its children. `Rest` is everything but its id and its attachments. -/
structure AttachingNode (Rest : Type) where
  id : String
  rest : Rest
  attachments : Option (List AttachmentRef)

/-- The references of a node. -/
def AttachingNode.refs {Rest : Type} (node : AttachingNode Rest) : List AttachmentRef :=
  node.attachments.getD []

section Sync

variable {Rest : Type} (localeCompare : String → String → Ordering)
  (attachmentMap : String → Option (List AttachmentRef))

/-- The order of the sort. -/
def NewestFirst (left right : AttachmentRef) : Prop :=
  localeCompare right.uploadedAt left.uploadedAt ≠ .gt

instance : DecidableRel (NewestFirst localeCompare) :=
  fun left right =>
    inferInstanceAs (Decidable (localeCompare right.uploadedAt left.uploadedAt ≠ .gt))

/-- `mergeAttachmentRefs`. -/
def mergeAttachmentRefs (inlineAttachments externalAttachments : List AttachmentRef) :
    List AttachmentRef :=
  let external :=
    KeyedList.overlayAll AttachmentRef.attachmentId (fun _ ref => ref) [] externalAttachments
  (KeyedList.overlayAll AttachmentRef.attachmentId AttachmentRef.spread external
    inlineAttachments).insertionSort (NewestFirst localeCompare)

/-- The references that are brought to a node. -/
def externals (id : String) : List AttachmentRef := (attachmentMap id).getD []

/-- The references of a node with those that are brought to it. -/
def mergedRefs (node : AttachingNode Rest) : List AttachmentRef :=
  mergeAttachmentRefs localeCompare node.refs (externals attachmentMap node.id)

mutual

/-- `visit`, and whether it answers with another object. -/
def visit : RoseTree (AttachingNode Rest) → RoseTree (AttachingNode Rest) × Bool
  | .node node children =>
      let mergedAttachments := mergedRefs localeCompare attachmentMap node
      let (nextChildren, childChanged) := visitAll children
      let attachmentsChanged := !attachmentRefsEqual node.refs mergedAttachments
      if !childChanged && !attachmentsChanged then (.node node children, false)
      else
        (.node { node with attachments := some mergedAttachments }
          (if childChanged then nextChildren else children), true)

/-- The same for several nodes; whether one answer is another object. -/
def visitAll : List (RoseTree (AttachingNode Rest)) → List (RoseTree (AttachingNode Rest)) × Bool
  | [] => ([], false)
  | child :: children =>
      let first := visit child
      let rest := visitAll children
      (first.1 :: rest.1, first.2 || rest.2)

end

/-- `syncTreeAttachmentRefs`, of the root of a map. The flag that `visit` raises is raised
somewhere if the root is another object: what changes in a branch changes what is above.
The map of attachments has its own entries only: no node has an id such as `constructor`. -/
def syncTreeAttachmentRefs (root : RoseTree (AttachingNode Rest)) :
    RoseTree (AttachingNode Rest) × Bool :=
  let visited := visit localeCompare attachmentMap root
  if !visited.2 then (root, false) else (visited.1, true)

end Sync

end Maps
end MindMapVault
