import Mathlib.Data.List.Forall2
import MindMapVault.Maps.AttachmentSync

/-!
# What a sync of the attachments leaves

A second sync with the same references changes nothing, every attachment of a node is kept
once, with the inline fields before the external ones, and the other fields of a map stay.
References without an id count as different attachments. This is so if at every node at
most one reference has no id, no number that is compared is none, and nothing is missed
where no change is seen: in a branch that is in step, an external reference has no field
that the inline one of its id lacks.
-/

namespace MindMapVault
namespace Maps

open RoseTree hiding node
open AttachmentRef (attachmentId spread)
open KeyedList (lastSaid)

variable {Rest : Type}

/-- What the references say of an attachment: the last inline one that says anything, or
else the last external one. -/
def said {β : Type} (read : AttachmentRef → Option β)
    (inlineRefs externalRefs : List AttachmentRef) (id : String) : Option β :=
  (lastSaid attachmentId read inlineRefs id).or
    ((lastSaid attachmentId some externalRefs id).bind read)

/-- What is said of an attachment is what a reference to it says. -/
theorem exists_of_said {β : Type} {read : AttachmentRef → Option β}
    {inlineRefs externalRefs : List AttachmentRef} {id : String} {value : β}
    (told : said read inlineRefs externalRefs id = some value) :
    ∃ ref ∈ inlineRefs ++ externalRefs, ref.attachmentId = id ∧ read ref = some value := by
  rcases Option.or_eq_some_iff.mp told with inline | ⟨-, external⟩
  · obtain ⟨ref, inside, own, holds⟩ := KeyedList.exists_of_lastSaid inline
    exact ⟨ref, List.mem_append_left _ inside, own, holds⟩
  · obtain ⟨ref, latest, holds⟩ := Option.bind_eq_some_iff.mp external
    obtain ⟨other, inside, own, same⟩ := KeyedList.exists_of_lastSaid latest
    obtain rfl := Option.some.inj same.symm
    exact ⟨ref, List.mem_append_right _ inside, own, holds⟩

/-- Every attachment is kept once, as the references say it is. Each reference without an
id is an attachment of its own. -/
structure KeepsRefs (inlineRefs externalRefs kept : List AttachmentRef) : Prop where
  once : ∀ id, (kept.map attachmentId).count id =
    if id = "" then ((inlineRefs ++ externalRefs).map attachmentId).count ""
    else if id ∈ (inlineRefs ++ externalRefs).map attachmentId then 1 else 0
  times : ∀ ref ∈ kept, some ref.uploadedAt =
    said (fun ref => some ref.uploadedAt) inlineRefs externalRefs ref.attachmentId
  fields : ∀ ref ∈ kept, ∀ field, ref.get field =
    (said (·.fields field) inlineRefs externalRefs ref.attachmentId).getD .undefined

/-- Everything of a node that is not its attachments. -/
def AttachingNode.others (node : AttachingNode Rest) : String × Rest := (node.id, node.rest)

variable (localeCompare : String → String → Ordering)
  (attachmentMap : String → Option (List AttachmentRef))

/-- What a sync is to leave of a map. -/
structure Synced (root : RoseTree (AttachingNode Rest))
    (synced : RoseTree (AttachingNode Rest) × Bool) : Prop where
  others : synced.1.map AttachingNode.others = root.map AttachingNode.others
  keeps : List.Forall₂
    (fun before after => KeepsRefs before.refs (externals attachmentMap before.id) after.refs)
    root.labels synced.1.labels
  settled : (syncTreeAttachmentRefs localeCompare attachmentMap synced.1).2 = false

/-- The references of a node compare equal to what they would be merged to. -/
def InStep (node : AttachingNode Rest) : Prop :=
  attachmentRefsEqual node.refs (mergedRefs localeCompare attachmentMap node) = true

/-- At the top of a branch no two references lack an id, no number that is compared is
none, and if the whole branch is in step, no external reference has a field that an inline
one of its id lacks. -/
structure Mergeable (branch : RoseTree (AttachingNode Rest)) : Prop where
  named : ((branch.label.refs ++ externals attachmentMap branch.label.id).map
    attachmentId).count "" ≤ 1
  numbers : ∀ id, ∀ field ∈ comparedFields,
    said (·.fields field) branch.label.refs (externals attachmentMap branch.label.id) id ≠ some .nan
  seen : (∀ node ∈ branch.labels, InStep localeCompare attachmentMap node) →
    ∀ ref ∈ branch.label.refs, ∀ external,
      lastSaid attachmentId some (externals attachmentMap branch.label.id) ref.attachmentId =
        some external →
      ∀ field, ref.fields field = none → external.get field = .undefined

section Merge

variable {localeCompare}

instance [Std.TransCmp localeCompare] : Std.Total (NewestFirst localeCompare) where
  total left right := by
    unfold NewestFirst
    by_cases newer : localeCompare right.uploadedAt left.uploadedAt = .gt
    · exact .inr (Std.OrientedCmp.not_gt_of_gt newer)
    · exact .inl newer

instance [Std.TransCmp localeCompare] : IsTrans AttachmentRef (NewestFirst localeCompare) where
  trans first second third := by
    unfold NewestFirst
    simp only [ne_eq, Ordering.ne_gt_iff_isLE]
    exact fun front back => Std.TransCmp.isLE_trans back front

variable {inlineRefs externalRefs : List AttachmentRef}

/-- The external references by their ids, the last of each. -/
def latest (externalRefs : List AttachmentRef) : List AttachmentRef :=
  KeyedList.overlayAll attachmentId (fun _ ref => ref) [] externalRefs

/-- The references of a merge before they are sorted. -/
def laid (inlineRefs externalRefs : List AttachmentRef) : List AttachmentRef :=
  KeyedList.overlayAll attachmentId spread (latest externalRefs) inlineRefs

theorem mergeAttachmentRefs_eq : mergeAttachmentRefs localeCompare inlineRefs externalRefs =
    (laid inlineRefs externalRefs).insertionSort (NewestFirst localeCompare) := rfl

theorem mergeAttachmentRefs_perm :
    (mergeAttachmentRefs localeCompare inlineRefs externalRefs).Perm
      (laid inlineRefs externalRefs) :=
  List.perm_insertionSort _ _

theorem nodup_latest : ((latest externalRefs).map attachmentId).Nodup :=
  KeyedList.nodup_overlayAll (fun _ _ => rfl) _ _ List.nodup_nil

theorem get?_latest (id : String) :
    KeyedList.get? attachmentId (latest externalRefs) id =
      lastSaid attachmentId some externalRefs id := by
  have found : (KeyedList.get? attachmentId (latest externalRefs) id).bind some = _ :=
    KeyedList.get?_overlayAll_bind (fun _ _ => rfl) some (fun _ _ => rfl) id externalRefs []
  simpa only [Option.bind_fun_some, KeyedList.get?, List.find?_nil, Option.bind_none,
    Option.or_none] using found

theorem nodup_laid : ((laid inlineRefs externalRefs).map attachmentId).Nodup :=
  KeyedList.nodup_overlayAll AttachmentRef.attachmentId_spread _ _ nodup_latest

/-- A reference that has been laid reads as the references say. -/
theorem said_of_mem_laid {β : Type} (read : AttachmentRef → Option β)
    (reads : ∀ base later, read (spread base later) = (read later).or (read base))
    {ref : AttachmentRef} (inside : ref ∈ laid inlineRefs externalRefs) :
    read ref = said read inlineRefs externalRefs ref.attachmentId := by
  have found := KeyedList.get?_overlayAll_bind AttachmentRef.attachmentId_spread read reads
    ref.attachmentId inlineRefs (latest externalRefs)
  rw [get?_latest] at found
  have own : KeyedList.get? attachmentId (laid inlineRefs externalRefs) ref.attachmentId =
      some ref := KeyedList.get?_of_mem nodup_laid inside
  calc read ref
    _ = (KeyedList.get? attachmentId (laid inlineRefs externalRefs) ref.attachmentId).bind
          read := by rw [own, Option.bind_some]
    _ = said read inlineRefs externalRefs ref.attachmentId := found

/-- A merge has the ids of both sides. -/
theorem mem_ids_laid {id : String} :
    id ∈ (laid inlineRefs externalRefs).map attachmentId ↔
      id ∈ (inlineRefs ++ externalRefs).map attachmentId := by
  unfold laid latest
  rw [KeyedList.mem_keys_overlayAll AttachmentRef.attachmentId_spread,
    KeyedList.mem_keys_overlayAll (fun _ _ => rfl), List.map_append, List.mem_append, or_comm]
  simp only [List.map_nil, List.not_mem_nil, false_or]

/-- Each id is there once. -/
theorem count_mergeAttachmentRefs (id : String) :
    ((mergeAttachmentRefs localeCompare inlineRefs externalRefs).map attachmentId).count id =
      if id ∈ (inlineRefs ++ externalRefs).map attachmentId then 1 else 0 := by
  rw [(mergeAttachmentRefs_perm.map attachmentId).count_eq, nodup_laid.count]
  simp only [mem_ids_laid]

/-- Merging a merge again with the same external references leaves it as it is. -/
theorem mergeAttachmentRefs_again [Std.TransCmp localeCompare] :
    mergeAttachmentRefs localeCompare
        (mergeAttachmentRefs localeCompare inlineRefs externalRefs) externalRefs =
      mergeAttachmentRefs localeCompare inlineRefs externalRefs := by
  obtain ⟨rest, whole⟩ := KeyedList.keys_prefix_overlayAll AttachmentRef.attachmentId_spread
    inlineRefs (latest externalRefs)
  obtain ⟨front, back, parts, atFront, _⟩ := List.map_eq_append_iff.mp whole.symm
  have laidParts : laid inlineRefs externalRefs = front ++ back := parts
  rw [mergeAttachmentRefs_eq, mergeAttachmentRefs_eq, laidParts]
  refine KeyedList.insertionSort_overlayAll_again (NewestFirst localeCompare)
    AttachmentRef.attachmentId_spread (laidParts ▸ nodup_laid) atFront.symm ?_
  intro entry inside held external same
  refine AttachmentRef.ext (AttachmentRef.attachmentId_spread held entry) rfl ?_
  funext field
  have spoken := said_of_mem_laid (·.fields field) (fun _ _ => rfl) (laidParts ▸ inside)
  have own : lastSaid attachmentId some externalRefs entry.attachmentId = some held := by
    rw [← get?_latest, ← same]
    exact KeyedList.get?_of_mem nodup_latest external
  have absorbed : (entry.fields field).or (held.fields field) = entry.fields field := by
    simp only [said, own, Option.bind_some] at spoken
    rw [spoken, Option.or_assoc, Option.or_self]
  exact absorbed

end Merge

section Equal

/-- What `attachmentRefsEqual` asks of two references. -/
structure Agrees (ref candidate : AttachmentRef) : Prop where
  ids : candidate.attachmentId = ref.attachmentId
  fields : ∀ field ∈ comparedFields,
    candidate.get field = ref.get field ∧ candidate.get field ≠ .nan
  times : candidate.uploadedAt = ref.uploadedAt

theorem attachmentRefsEqual_iff {left right : List AttachmentRef} :
    attachmentRefsEqual left right = true ↔ List.Forall₂ Agrees left right := by
  rw [attachmentRefsEqual, decide_eq_true_eq, List.forall₂_iff_zip]
  apply and_congr_right
  intro _
  constructor
  · intro alike ref candidate paired
    obtain ⟨ids, fields, times⟩ := alike _ paired
    exact ⟨ids, fun field compared => by
      simpa only [FieldValue.strictlyEquals, decide_eq_true_eq] using fields field compared, times⟩
  · intro alike pair paired
    obtain ⟨ids, fields, times⟩ := alike paired
    exact ⟨ids, fun field compared => by
      simpa only [FieldValue.strictlyEquals, decide_eq_true_eq] using fields field compared, times⟩

/-- References compare equal to themselves unless a number is none. -/
theorem attachmentRefsEqual_self_iff {refs : List AttachmentRef} :
    attachmentRefsEqual refs refs = true ↔
      ∀ ref ∈ refs, ∀ field ∈ comparedFields, ref.get field ≠ .nan := by
  rw [attachmentRefsEqual_iff, List.forall₂_same]
  apply forall₂_congr
  intro ref _
  exact ⟨fun alike field compared => (alike.fields field compared).2,
    fun numbers => ⟨rfl, fun field compared => ⟨rfl, numbers field compared⟩, rfl⟩⟩

/-- References that compare equal have the same ids. -/
theorem ids_of_agrees {left right : List AttachmentRef} (alike : List.Forall₂ Agrees left right) :
    left.map attachmentId = right.map attachmentId := by
  rw [← List.forall₂_eq_eq_eq, List.forall₂_map_left_iff, List.forall₂_map_right_iff]
  exact alike.imp fun _ _ agrees => agrees.ids.symm

/-- What compares equal to something has no number that is none. -/
theorem numbers_of_agrees {left right : List AttachmentRef}
    (alike : List.Forall₂ Agrees left right) :
    ∀ ref ∈ right, ∀ field ∈ comparedFields, ref.get field ≠ .nan := by
  induction alike with
  | nil => exact List.forall_mem_nil _
  | cons agrees _ ih =>
      exact List.forall_mem_cons.mpr ⟨fun field compared => (agrees.fields field compared).2, ih⟩

end Equal

section Numbers

variable {localeCompare} {inlineRefs externalRefs : List AttachmentRef}

/-- No number of a merge is none, if none is by what the references say. -/
theorem numbers_mergeAttachmentRefs {field : RefField} :
    (∀ ref ∈ mergeAttachmentRefs localeCompare inlineRefs externalRefs,
      ref.get field ≠ .nan) ↔
      ∀ id, said (·.fields field) inlineRefs externalRefs id ≠ some .nan := by
  constructor
  · intro numbers id none
    have present : id ∈ (laid inlineRefs externalRefs).map attachmentId := by
      by_contra missing
      rw [mem_ids_laid, List.map_append, List.mem_append, not_or] at missing
      rw [said, KeyedList.lastSaid_eq_none missing.1, KeyedList.lastSaid_eq_none missing.2] at none
      exact Option.some_ne_none _ none.symm
    obtain ⟨ref, inside, rfl⟩ := List.mem_map.mp present
    apply numbers ref (mergeAttachmentRefs_perm.mem_iff.mpr inside)
    rw [AttachmentRef.get, said_of_mem_laid (·.fields field) (fun _ _ => rfl) inside,
      none, Option.getD_some]
  · intro numbers ref inside none
    apply numbers ref.attachmentId
    rw [← said_of_mem_laid (·.fields field) (fun _ _ => rfl)
      (mergeAttachmentRefs_perm.mem_iff.mp inside)]
    unfold AttachmentRef.get at none
    cases said : ref.fields field with
    | none => simp only [said, Option.getD_none, reduceCtorEq] at none
    | some value => rw [said, Option.getD_some] at none; rw [none]

end Numbers

section Visit

variable {localeCompare attachmentMap}

mutual

/-- No object is replaced exactly if the whole branch is in step; then it stays. -/
theorem visit_unchanged : ∀ branch : RoseTree (AttachingNode Rest),
    (visit localeCompare attachmentMap branch).2 = false ↔
      ∀ node ∈ branch.labels, InStep localeCompare attachmentMap node
  | .node node children => by
      rw [visit]
      simp only [Bool.not_not]
      rw [RoseTree.labels, List.forall_mem_cons, ← visitAll_unchanged children, InStep]
      split_ifs with kept
      · simpa only [Bool.and_eq_true, Bool.not_eq_true', true_iff, and_comm] using kept
      · simpa only [Bool.and_eq_true, Bool.not_eq_true', Bool.true_eq_false, false_iff,
          and_comm] using kept

/-- The same for several branches. -/
theorem visitAll_unchanged : ∀ branches : List (RoseTree (AttachingNode Rest)),
    (visitAll localeCompare attachmentMap branches).2 = false ↔
      ∀ node ∈ labelsAll branches, InStep localeCompare attachmentMap node
  | [] => by simp only [visitAll, labelsAll, List.not_mem_nil, false_implies,
      implies_true]
  | child :: children => by
      rw [visitAll, labelsAll, List.forall_mem_append, ← visit_unchanged child,
        ← visitAll_unchanged children, Bool.or_eq_false_iff]

end

mutual

/-- A branch in which no object is replaced is answered with. -/
theorem visit_eq_self : ∀ {branch : RoseTree (AttachingNode Rest)},
    (visit localeCompare attachmentMap branch).2 = false →
    (visit localeCompare attachmentMap branch).1 = branch
  | .node node children, kept => by
      rw [visit] at kept ⊢
      simp only [Bool.not_not] at kept ⊢
      split_ifs at kept ⊢
      rfl

/-- The same for several branches. -/
theorem visitAll_eq_self : ∀ {branches : List (RoseTree (AttachingNode Rest))},
    (visitAll localeCompare attachmentMap branches).2 = false →
    (visitAll localeCompare attachmentMap branches).1 = branches
  | [], _ => by rw [visitAll]
  | child :: children, kept => by
      rw [visitAll, Bool.or_eq_false_iff] at kept
      rw [visitAll, visit_eq_self kept.1, visitAll_eq_self kept.2]

end

variable (localeCompare attachmentMap) in
/-- What the node at the top of a branch becomes. -/
def outcome (branch : RoseTree (AttachingNode Rest)) : AttachingNode Rest :=
  if (visit localeCompare attachmentMap branch).2 then
    { branch.label with
      attachments := some (mergedRefs localeCompare attachmentMap branch.label) }
  else branch.label

/-- An answer has the outcome of its node at the top and the answers for the children
below it. -/
theorem visit_fst (node : AttachingNode Rest) (children : List (RoseTree (AttachingNode Rest))) :
    (visit localeCompare attachmentMap (.node node children)).1 =
      .node (outcome localeCompare attachmentMap (.node node children))
        (visitAll localeCompare attachmentMap children).1 := by
  have below : (if (visitAll localeCompare attachmentMap children).2 then
      (visitAll localeCompare attachmentMap children).1 else children) =
        (visitAll localeCompare attachmentMap children).1 := by
    split_ifs with changed
    · rfl
    · rw [visitAll_eq_self (Bool.not_eq_true _ ▸ changed)]
  by_cases changed : (visit localeCompare attachmentMap (.node node children)).2 = true
  · rw [outcome, if_pos changed, ← below, RoseTree.label]
    rw [visit] at changed ⊢
    dsimp only at changed ⊢
    split_ifs at changed ⊢
    · rfl
    · rfl
  · have kept := Bool.not_eq_true _ ▸ changed
    rw [outcome, if_neg changed, visit_eq_self kept, RoseTree.label, visitAll_eq_self]
    rw [visitAll_unchanged]
    exact fun other inside => visit_unchanged _ |>.mp kept other (List.mem_cons_of_mem node inside)

mutual

/-- A sync changes each node to its outcome. -/
theorem labels_visit : ∀ branch : RoseTree (AttachingNode Rest),
    (visit localeCompare attachmentMap branch).1.labels =
      branch.subtrees.map (outcome localeCompare attachmentMap)
  | .node node children => by
      rw [visit_fst, RoseTree.labels, subtrees, List.map_cons, labelsAll_visitAll children]

/-- The same for several branches. -/
theorem labelsAll_visitAll : ∀ branches : List (RoseTree (AttachingNode Rest)),
    labelsAll (visitAll localeCompare attachmentMap branches).1 =
      (subtreesAll branches).map (outcome localeCompare attachmentMap)
  | [] => by rw [visitAll, labelsAll, subtreesAll, List.map_nil]
  | child :: children => by
      rw [visitAll, labelsAll, subtreesAll, List.map_append,
        labels_visit child, labelsAll_visitAll children]

end

theorem others_outcome (branch : RoseTree (AttachingNode Rest)) :
    (outcome localeCompare attachmentMap branch).others = branch.label.others := by
  unfold outcome
  split_ifs
  · rfl
  · rfl

mutual

/-- A sync leaves the shape of a map and everything but the attachments. -/
theorem map_others_visit : ∀ branch : RoseTree (AttachingNode Rest),
    (visit localeCompare attachmentMap branch).1.map AttachingNode.others =
      branch.map AttachingNode.others
  | .node node children => by
      rw [visit_fst, RoseTree.map, RoseTree.map, others_outcome, RoseTree.label,
        map_others_visitAll children]

/-- The same for several branches. -/
theorem map_others_visitAll : ∀ branches : List (RoseTree (AttachingNode Rest)),
    mapAll AttachingNode.others (visitAll localeCompare attachmentMap branches).1 =
      mapAll AttachingNode.others branches
  | [] => by rw [visitAll]
  | child :: children => by
      rw [visitAll, mapAll, mapAll, map_others_visit child, map_others_visitAll children]

end

/-- A sync answers with what `visit` answers with. -/
theorem syncTreeAttachmentRefs_eq (root : RoseTree (AttachingNode Rest)) :
    syncTreeAttachmentRefs localeCompare attachmentMap root =
      visit localeCompare attachmentMap root := by
  unfold syncTreeAttachmentRefs
  by_cases changed : (visit localeCompare attachmentMap root).2 = true
  · simp only [changed, Bool.not_true, Bool.false_eq_true, if_false]
    exact Prod.ext rfl changed.symm
  · have kept := Bool.not_eq_true _ ▸ changed
    simp only [kept, Bool.not_false, if_true]
    exact Prod.ext (visit_eq_self kept).symm kept.symm

end Visit

section Node

variable {localeCompare attachmentMap} {branch : RoseTree (AttachingNode Rest)}

/-- A merge keeps every attachment once if no two references lack an id. -/
theorem keepsRefs_mergeAttachmentRefs {inlineRefs externalRefs : List AttachmentRef} :
    KeepsRefs inlineRefs externalRefs
        (mergeAttachmentRefs localeCompare inlineRefs externalRefs) ↔
      ((inlineRefs ++ externalRefs).map attachmentId).count "" ≤ 1 := by
  constructor
  · intro keeps
    have once := keeps.once ""
    rw [count_mergeAttachmentRefs, if_pos (Eq.refl _)] at once
    rw [← once]
    split_ifs
    · exact Nat.le_refl 1
    · exact Nat.zero_le 1
  · intro named
    refine ⟨fun id => ?_, fun ref inside => ?_, fun ref inside field => ?_⟩
    · rw [count_mergeAttachmentRefs]
      by_cases empty : id = ""
      · subst empty
        rw [if_pos (Eq.refl _)]
        split_ifs with present
        · have := List.count_pos_iff.mpr present
          omega
        · rw [List.count_eq_zero.mpr present]
      · rw [if_neg empty]
    · exact said_of_mem_laid (fun ref => some ref.uploadedAt) (fun _ _ => rfl)
        (mergeAttachmentRefs_perm.mem_iff.mp inside)
    · rw [AttachmentRef.get, said_of_mem_laid (·.fields field) (fun _ _ => rfl)
        (mergeAttachmentRefs_perm.mem_iff.mp inside)]

/-- References that compare equal to their merge have distinct ids. -/
theorem nodup_of_equal {inlineRefs externalRefs : List AttachmentRef}
    (equal : attachmentRefsEqual inlineRefs
      (mergeAttachmentRefs localeCompare inlineRefs externalRefs) = true) :
    (inlineRefs.map attachmentId).Nodup := by
  rw [ids_of_agrees (attachmentRefsEqual_iff.mp equal)]
  exact ((mergeAttachmentRefs_perm.map attachmentId).nodup_iff).mpr nodup_laid

/-- References that compare equal to their merge are all there is to keep if no two lack an
id and no external one has a field that an inline one lacks. -/
theorem keepsRefs_of_equal {inlineRefs externalRefs : List AttachmentRef}
    (equal : attachmentRefsEqual inlineRefs
      (mergeAttachmentRefs localeCompare inlineRefs externalRefs) = true) :
    KeepsRefs inlineRefs externalRefs inlineRefs ↔
      ((inlineRefs ++ externalRefs).map attachmentId).count "" ≤ 1 ∧
        ∀ ref ∈ inlineRefs, ∀ external,
          lastSaid attachmentId some externalRefs ref.attachmentId = some external →
          ∀ field, ref.fields field = none → external.get field = .undefined := by
  have alike := attachmentRefsEqual_iff.mp equal
  have distinct := nodup_of_equal equal
  have own {β : Type} (read : AttachmentRef → Option β) {ref : AttachmentRef}
      (inside : ref ∈ inlineRefs) :
      said read inlineRefs externalRefs ref.attachmentId =
        (read ref).or ((lastSaid attachmentId some externalRefs ref.attachmentId).bind read) := by
    rw [said, KeyedList.lastSaid_of_mem distinct inside]
  constructor
  · intro keeps
    constructor
    · have once := keeps.once ""
      rw [if_pos (Eq.refl _), distinct.count] at once
      rw [← once]
      split_ifs
      · exact Nat.le_refl 1
      · exact Nat.zero_le 1
    · intro ref inside external latest field lacking
      have reads := keeps.fields ref inside field
      rw [own (·.fields field) inside, latest, Option.bind_some, lacking, Option.none_or,
        AttachmentRef.get, lacking, Option.getD_none] at reads
      exact reads.symm
  · rintro ⟨named, seen⟩
    refine ⟨fun id => ?_, fun ref inside => ?_, fun ref inside field => ?_⟩
    · rw [ids_of_agrees alike]
      exact (keepsRefs_mergeAttachmentRefs.mpr named).once id
    · rw [own (fun ref => some ref.uploadedAt) inside, Option.some_or]
    · rw [own (·.fields field) inside, AttachmentRef.get]
      cases lacking : ref.fields field with
      | some value => rw [Option.some_or]
      | none =>
          rw [Option.none_or]
          cases latest : lastSaid attachmentId some externalRefs ref.attachmentId with
          | none => rw [Option.bind_none]
          | some external =>
              rw [Option.bind_some, Option.getD_none]
              exact (seen ref inside external latest field lacking).symm

/-- At a node a sync keeps every attachment, and has nothing left to do, if the branch can
be merged. -/
theorem outcome_iff_mergeable [Std.TransCmp localeCompare] :
    KeepsRefs branch.label.refs (externals attachmentMap branch.label.id)
          (outcome localeCompare attachmentMap branch).refs ∧
        InStep localeCompare attachmentMap (outcome localeCompare attachmentMap branch) ↔
      Mergeable localeCompare attachmentMap branch := by
  have numbersOf (refs : List AttachmentRef) :
      (∀ ref ∈ mergeAttachmentRefs localeCompare refs (externals attachmentMap branch.label.id),
        ∀ field ∈ comparedFields, ref.get field ≠ .nan) ↔
      ∀ id, ∀ field ∈ comparedFields,
        said (·.fields field) refs (externals attachmentMap branch.label.id) id ≠ some .nan := by
    constructor
    · intro numbers id field compared
      exact numbers_mergeAttachmentRefs.mp (fun ref inside => numbers ref inside field compared) id
    · intro numbers ref inside field compared
      exact numbers_mergeAttachmentRefs.mpr (fun id => numbers id field compared) ref inside
  by_cases changed : (visit localeCompare attachmentMap branch).2 = true
  · have unsettled : ¬∀ node ∈ branch.labels, InStep localeCompare attachmentMap node := by
      rw [← visit_unchanged, changed]
      decide
    have merged : (outcome localeCompare attachmentMap branch).refs =
        mergeAttachmentRefs localeCompare branch.label.refs
          (externals attachmentMap branch.label.id) := by
      rw [outcome, if_pos changed, AttachingNode.refs, Option.getD_some, mergedRefs]
    have sameId : (outcome localeCompare attachmentMap branch).id = branch.label.id :=
      congrArg Prod.fst (others_outcome branch)
    rw [InStep, mergedRefs, merged, sameId, mergeAttachmentRefs_again,
      keepsRefs_mergeAttachmentRefs, attachmentRefsEqual_self_iff, numbersOf]
    constructor
    · rintro ⟨named, numbers⟩
      exact ⟨named, numbers, fun settled => absurd settled unsettled⟩
    · rintro ⟨named, numbers, -⟩
      exact ⟨named, numbers⟩
  · have kept := Bool.not_eq_true _ ▸ changed
    have settled := visit_unchanged branch |>.mp kept
    have inStep : InStep localeCompare attachmentMap branch.label :=
      settled _ (label_mem_labels branch)
    have stays : outcome localeCompare attachmentMap branch = branch.label := by
      rw [outcome, if_neg changed]
    have numbers := (numbersOf branch.label.refs).mp (numbers_of_agrees
      (attachmentRefsEqual_iff.mp inStep))
    rw [stays, keepsRefs_of_equal inStep]
    constructor
    · rintro ⟨⟨named, seen⟩, -⟩
      exact ⟨named, numbers, fun _ => seen⟩
    · rintro ⟨named, -, seen⟩
      exact ⟨⟨named, seen settled⟩, inStep⟩

end Node

/-- A reference as the import of a Markdown file makes it, but for its id and its time. -/
def fileRef (id uploadedAt name : String) (sizeBytes : Rat) : AttachmentRef where
  attachmentId := id
  uploadedAt := uploadedAt
  fields
    | .name => some (.text name)
    | .contentType => some (.text "application/octet-stream")
    | .sizeBytes => some (.number sizeBytes)
    | _ => none

/-- The size of a file is a number. -/
theorem fileRef_number (id uploadedAt name : String) (sizeBytes : Rat) (field : RefField) :
    (fileRef id uploadedAt name sizeBytes).fields field ≠ some .nan := by
  cases field with
  | name | contentType | sizeBytes => exact fun same => by simp only [fileRef, reduceCtorEq,
      Option.some.injEq] at same
  | _ => exact (Option.some_ne_none _).symm

/-- A sync does what it is to do exactly if every branch can be merged. -/
theorem syncTreeAttachmentRefs_synced_iff [Std.TransCmp localeCompare]
    (root : RoseTree (AttachingNode Rest)) :
    Synced localeCompare attachmentMap root
        (syncTreeAttachmentRefs localeCompare attachmentMap root) ↔
      ∀ branch ∈ root.subtrees, Mergeable localeCompare attachmentMap branch := by
  have keepsAll : List.Forall₂ (fun before after : AttachingNode Rest =>
        KeepsRefs before.refs (externals attachmentMap before.id) after.refs)
      root.labels (visit localeCompare attachmentMap root).1.labels ↔
      ∀ branch ∈ root.subtrees, KeepsRefs branch.label.refs
        (externals attachmentMap branch.label.id)
        (outcome localeCompare attachmentMap branch).refs := by
    rw [labels_visit, ← map_label_subtrees, List.forall₂_map_left_iff,
      List.forall₂_map_right_iff, List.forall₂_same]
  have settlesAll : (visit localeCompare attachmentMap
        (visit localeCompare attachmentMap root).1).2 = false ↔
      ∀ branch ∈ root.subtrees,
        InStep localeCompare attachmentMap (outcome localeCompare attachmentMap branch) := by
    rw [visit_unchanged, labels_visit, List.forall_mem_map]
  rw [syncTreeAttachmentRefs_eq]
  constructor
  · intro synced branch inside
    have settled := synced.settled
    rw [syncTreeAttachmentRefs_eq] at settled
    exact outcome_iff_mergeable.mp
      ⟨keepsAll.mp synced.keeps branch inside, settlesAll.mp settled branch inside⟩
  · intro mergeable
    refine ⟨map_others_visit root, keepsAll.mpr fun branch inside => ?_, ?_⟩
    · exact (outcome_iff_mergeable.mpr (mergeable branch inside)).1
    · rw [syncTreeAttachmentRefs_eq]
      exact settlesAll.mpr fun branch inside =>
        (outcome_iff_mergeable.mpr (mergeable branch inside)).2

/-- A second file that is uploaded is put before the first. -/
theorem syncTreeAttachmentRefs_synced_upload :
    Synced compare
        (fun id => if id = "root" then some [fileRef "b" "2026-02-01" "b.pdf" 20] else none)
        (.node ⟨"root", (), some [fileRef "a" "2026-01-01" "a.pdf" 10]⟩ [])
        (syncTreeAttachmentRefs compare
          (fun id => if id = "root" then some [fileRef "b" "2026-02-01" "b.pdf" 20] else none)
          (.node ⟨"root", (), some [fileRef "a" "2026-01-01" "a.pdf" 10]⟩ [])) := by
  refine (syncTreeAttachmentRefs_synced_iff _ _ _).mpr fun branch inside => ?_
  rw [subtrees, subtreesAll, List.mem_singleton] at inside
  subst inside
  refine ⟨by decide, fun id field compared => ?_, fun _ ref inside external latest => ?_⟩
  · intro none
    obtain ⟨ref, present, -, holds⟩ := exists_of_said none
    simp only [AttachingNode.refs, externals, RoseTree.label, if_true, Option.getD_some,
      List.singleton_append, List.mem_cons, List.not_mem_nil, or_false] at present
    rcases present with rfl | rfl
    · exact fileRef_number _ _ _ _ field holds
    · exact fileRef_number _ _ _ _ field holds
  · rw [RoseTree.label, AttachingNode.refs, Option.getD_some, List.mem_singleton] at inside
    subst inside
    rw [KeyedList.lastSaid_eq_none (by decide)] at latest
    exact absurd latest.symm (Option.some_ne_none external)

/-- Two files of an import have no ids, and one is lost. -/
theorem imported_file_lost :
    ¬∀ (attachmentMap : String → Option (List AttachmentRef))
        (root : RoseTree (AttachingNode Unit)),
      Synced compare attachmentMap root (syncTreeAttachmentRefs compare attachmentMap root) := by
  intro synced
  have keeps := (synced (fun _ => none)
    (.node ⟨"n1", (), some [fileRef "" "" "a.pdf" 1024, fileRef "" "" "b.pdf" 2048]⟩ [])).keeps
  obtain ⟨after, others, kept, -, whole⟩ := List.forall₂_cons_left_iff.mp keeps
  have counted := congrArg
    (List.map fun node => (AttachingNode.refs node |>.map attachmentId).count "") whole
  have once := kept.once ""
  rw [List.map_cons, once] at counted
  have first := congrArg List.head? counted
  rw [List.head?_cons] at first
  revert first
  decide

end Maps
end MindMapVault
