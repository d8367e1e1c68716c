import Mathlib.Data.List.Sort
import MindMapVault.Foundations.Table

/-!
# Ordered maps

An ordered map is a list of entries with a key each. Entries are laid over it one after
the other: one whose key is there is combined with the entry that stands there, a new one
comes last. What has been laid over a map and is then sorted stays as it is when it is
laid over the map again and sorted.
-/

universe u v w

namespace KeyedList

variable {α : Type u} {κ : Type v} {β : Type w} [DecidableEq κ] (key : α → κ)

/-- The entry of a key. -/
def get? (entries : List α) (wanted : κ) : Option α := entries.find? fun entry => key entry = wanted

/-- An entry laid over a map. -/
def overlay (combine : α → α → α) (entries : List α) (entry : α) : List α :=
  match get? key entries (key entry) with
  | some held =>
      entries.map fun other => if key other = key entry then combine held entry else other
  | none => entries ++ [entry]

/-- Entries laid over a map one after the other. -/
def overlayAll (combine : α → α → α) (entries added : List α) : List α :=
  added.foldl (overlay key combine) entries

/-- What the last entry of a key that says anything says. -/
def lastSaid (read : α → Option β) (entries : List α) (wanted : κ) : Option β :=
  entries.reverse.findSome? fun entry => if key entry = wanted then read entry else none

section Get

variable {key} {entries : List α} {wanted : κ} {entry : α}

theorem get?_eq_none : get? key entries wanted = none ↔ wanted ∉ entries.map key := by
  simp only [get?, List.find?_eq_none, decide_eq_true_eq, List.mem_map, not_exists, not_and]

theorem get?_isSome : (get? key entries wanted).isSome ↔ wanted ∈ entries.map key := by
  rw [← not_iff_not, ← get?_eq_none, Bool.not_eq_true, Option.isSome_eq_false_iff,
    Option.isNone_iff_eq_none]

theorem get?_cons : get? key (entry :: entries) wanted =
    if key entry = wanted then some entry else get? key entries wanted := by
  simp only [get?, List.find?_cons]
  by_cases own : key entry = wanted
  · simp only [own, decide_true, if_true]
  · simp only [own, decide_false, if_false]

theorem key_of_get? (found : get? key entries wanted = some entry) : key entry = wanted := by
  unfold get? at found
  simpa only [decide_eq_true_eq] using List.find?_some found

/-- An entry is found under its key, where keys are distinct. -/
theorem get?_of_mem (distinct : (entries.map key).Nodup) (present : entry ∈ entries) :
    get? key entries (key entry) = some entry := by
  have found := Table.list_find?_of_distinct distinct present
  simpa only [get?, beq_eq_decide] using found

/-- Which entry a key finds does not depend on the order, where keys are distinct. -/
theorem get?_of_perm {other : List α} (distinct : (entries.map key).Nodup)
    (same : entries.Perm other) : get? key entries wanted = get? key other wanted := by
  cases found : get? key entries wanted with
  | none =>
      apply Eq.symm
      rw [get?_eq_none] at found ⊢
      exact fun present => found ((same.map key).mem_iff.mpr present)
  | some entry =>
      have present : entry ∈ other := same.mem_iff.mp (List.mem_of_find?_eq_some found)
      rw [← key_of_get? found, get?_of_mem (((same.map key).nodup_iff).mp distinct) present]

end Get

section Said

variable {key} {read : α → Option β} {entries : List α} {wanted : κ} {entry : α}

/-- Nothing is said of a key that no entry has. -/
theorem lastSaid_eq_none (missing : wanted ∉ entries.map key) :
    lastSaid key read entries wanted = none := by
  rw [lastSaid, List.findSome?_eq_none_iff]
  intro entry inside
  rw [if_neg]
  rintro rfl
  exact missing (List.mem_map_of_mem (List.mem_reverse.mp inside))

/-- What is said of a key is what an entry of it says. -/
theorem exists_of_lastSaid {value : β} (told : lastSaid key read entries wanted = some value) :
    ∃ entry ∈ entries, key entry = wanted ∧ read entry = some value := by
  obtain ⟨entry, inside, reading⟩ := List.exists_of_findSome?_eq_some told
  split_ifs at reading with own
  exact ⟨entry, List.mem_reverse.mp inside, own, reading⟩

/-- Where keys are distinct, what is said of a key is what its entry says. -/
theorem lastSaid_of_mem (distinct : (entries.map key).Nodup) (present : entry ∈ entries) :
    lastSaid key read entries (key entry) = read entry := by
  obtain ⟨before, after, rfl⟩ := List.append_of_mem present
  rw [List.map_append, List.map_cons, List.nodup_middle, List.nodup_cons, List.mem_append,
    not_or] at distinct
  have silent (others : List α) (absent : key entry ∉ others.map key) :
      (others.reverse.findSome? fun other =>
        if key other = key entry then read other else none) = none :=
    lastSaid_eq_none absent
  rw [lastSaid, List.reverse_append, List.reverse_cons, List.findSome?_append,
    List.findSome?_append, silent after distinct.1.2, silent before distinct.1.1,
    List.findSome?_singleton, if_pos (Eq.refl _), Option.none_or, Option.or_none]

end Said

section Overlay

variable {key} {combine : α → α → α} (keeps : ∀ held entry, key (combine held entry) = key entry)

include keeps

/-- A new key comes last, the others stay. -/
theorem keys_overlay (entries : List α) (entry : α) :
    (overlay key combine entries entry).map key =
      if key entry ∈ entries.map key then entries.map key
      else entries.map key ++ [key entry] := by
  unfold overlay
  split
  · next held found =>
      rw [if_pos (get?_isSome.mp (by rw [found]; exact Option.isSome_some)), List.map_map]
      apply List.map_congr_left
      intro other _
      rw [Function.comp_apply]
      split_ifs with same
      · rw [keeps, same]
      · exact Eq.refl _
  · next missing =>
      rw [if_neg (get?_eq_none.mp missing), List.map_append, List.map_singleton]

theorem nodup_overlayAll : ∀ (added entries : List α), (entries.map key).Nodup →
    ((overlayAll key combine entries added).map key).Nodup
  | [], _, distinct => distinct
  | entry :: added, entries, distinct => by
      have placed : ((overlay key combine entries entry).map key).Nodup := by
        rw [keys_overlay keeps]
        split_ifs with present
        · exact distinct
        · refine List.nodup_append.mpr ⟨distinct, List.nodup_singleton _, ?_⟩
          intro old inside other last same
          rw [List.mem_singleton.mp last] at same
          exact present (same ▸ inside)
      exact nodup_overlayAll added _ placed

theorem mem_keys_overlayAll (wanted : κ) : ∀ (added entries : List α),
    wanted ∈ (overlayAll key combine entries added).map key ↔
      wanted ∈ entries.map key ∨ wanted ∈ added.map key
  | [], _ => by simp only [overlayAll, List.foldl_nil, List.map_nil, List.not_mem_nil, or_false]
  | entry :: added, entries => by
      have later := mem_keys_overlayAll wanted added (overlay key combine entries entry)
      rw [keys_overlay keeps] at later
      refine later.trans ?_
      split_ifs with present
      · grind
      · grind

/-- The keys of the map come first, in their order. -/
theorem keys_prefix_overlayAll : ∀ (added entries : List α),
    entries.map key <+: (overlayAll key combine entries added).map key
  | [], _ => List.prefix_rfl
  | entry :: added, entries => by
      have later := keys_prefix_overlayAll added (overlay key combine entries entry)
      rw [keys_overlay keeps] at later
      refine List.IsPrefix.trans ?_ later
      split_ifs
      · exact List.prefix_rfl
      · exact List.prefix_append _ _

/-- An overlay changes what its own key finds. -/
theorem get?_overlay (entries : List α) (entry : α) (wanted : κ) :
    get? key (overlay key combine entries entry) wanted =
      if key entry = wanted then
        some (((get? key entries wanted).map (combine · entry)).getD entry)
      else get? key entries wanted := by
  unfold overlay
  split
  · next held found =>
      have standing (other : α) :
          key (if key other = key entry then combine held entry else other) = key other := by
        split_ifs with same
        · rw [keeps, same]
        · exact Eq.refl _
      unfold get? at found ⊢
      rw [List.find?_map]
      simp only [Function.comp_def, standing]
      split_ifs with own
      · subst own
        rw [found]
        have heldKey : key held = key entry := by simpa using List.find?_some found
        simp only [Option.map_some, Option.getD_some, heldKey, if_true]
      · cases other : entries.find? fun old => key old = wanted with
        | none => rw [Option.map_none]
        | some old =>
            have oldKey : key old = wanted := by simpa using List.find?_some other
            rw [Option.map_some, if_neg fun same => own (same.symm.trans oldKey)]
  · next missing =>
      unfold get? at missing ⊢
      rw [List.find?_append]
      split_ifs with own
      · subst own
        rw [missing, Option.none_or, List.find?_singleton]
        simp only [decide_true, if_true, Option.map_none, Option.getD_none]
      · rw [List.find?_singleton]
        simp only [decide_eq_true_eq, if_neg own, Option.or_none]

/-- What the entry of a key says is what the last entry that was laid over says, and what
the map says where none says anything. -/
theorem get?_overlayAll_bind (read : α → Option β)
    (reads : ∀ held entry, read (combine held entry) = (read entry).or (read held))
    (wanted : κ) : ∀ (added entries : List α),
    (get? key (overlayAll key combine entries added) wanted).bind read =
      (lastSaid key read added wanted).or ((get? key entries wanted).bind read)
  | [], entries => by
      rw [lastSaid, List.reverse_nil, List.findSome?_nil, Option.none_or, overlayAll,
        List.foldl_nil]
  | entry :: added, entries => by
      have later := get?_overlayAll_bind read reads wanted added (overlay key combine entries entry)
      rw [get?_overlay keeps] at later
      refine later.trans ?_
      rw [lastSaid, lastSaid, List.reverse_cons, List.findSome?_append, List.findSome?_singleton,
        Option.or_assoc]
      congr 1
      split_ifs with own
      · cases get? key entries wanted with
        | none => simp only [Option.map_none, Option.getD_none, Option.bind_some,
            Option.bind_none, Option.or_none]
        | some held => simp only [Option.map_some, Option.getD_some, Option.bind_some, reads]
      · rw [Option.none_or]

/-- Entries that have taken in those of the map are put in their places, the others come
last. -/
theorem overlayAll_of_absorbed : ∀ (added entries : List α), (added.map key).Nodup →
    (∀ entry ∈ added, ∀ held ∈ entries, key held = key entry → combine held entry = entry) →
    overlayAll key combine entries added =
      (entries.map fun held => (get? key added (key held)).getD held) ++
        added.filter fun entry => key entry ∉ entries.map key
  | [], entries, _, _ => by
      simp only [overlayAll, List.foldl_nil, get?, List.find?_nil, Option.getD_none, List.map_id',
        List.filter_nil, List.append_nil]
  | entry :: added, entries, distinct, absorbed => by
      rw [List.map_cons, List.nodup_cons] at distinct
      have single : get? key added (key entry) = none := get?_eq_none.mpr distinct.1
      have other {later : α} (inside : later ∈ added) : key later ≠ key entry :=
        fun same => distinct.1 (same ▸ List.mem_map_of_mem inside)
      by_cases present : key entry ∈ entries.map key
      · have replaced : overlay key combine entries entry =
            entries.map fun old => if key old = key entry then entry else old := by
          obtain ⟨held, found⟩ := Option.isSome_iff_exists.mp (get?_isSome.mpr present)
          have inside : held ∈ entries := List.mem_of_find?_eq_some found
          simp only [overlay, found,
            absorbed entry List.mem_cons_self held inside (key_of_get? found)]
        have step := overlayAll_of_absorbed added (overlay key combine entries entry)
          distinct.2 fun later inside held stands same => by
            rw [replaced, List.mem_map] at stands
            obtain ⟨old, standing, rfl⟩ := stands
            split_ifs at same ⊢
            · exact absurd same.symm (other inside)
            · exact absorbed later (List.mem_cons_of_mem entry inside) old standing same
        refine Eq.trans step ?_
        rw [keys_overlay keeps, if_pos present, replaced, List.map_map,
          List.filter_cons_of_neg (by simpa only [decide_not, Bool.not_eq_true',
            decide_eq_false_iff_not, not_not] using present)]
        congr 1
        apply List.map_congr_left
        intro old _
        rw [Function.comp_apply, get?_cons]
        split_ifs with same reversed
        · rw [single, Option.getD_none, Option.getD_some]
        · exact absurd same.symm reversed
        · exact absurd (Eq.symm ‹key entry = key old›) same
        · exact Eq.refl _
      · have placed : overlay key combine entries entry = entries ++ [entry] := by
          unfold overlay
          rw [get?_eq_none.mpr present]
        have step := overlayAll_of_absorbed added (overlay key combine entries entry)
          distinct.2 fun later inside held stands same => by
            rw [placed, List.mem_append, List.mem_singleton] at stands
            rcases stands with standing | rfl
            · exact absorbed later (List.mem_cons_of_mem entry inside) held standing same
            · exact absurd same.symm (other inside)
        refine Eq.trans step ?_
        rw [keys_overlay keeps, if_neg present, placed, List.map_append, List.map_singleton,
          single, Option.getD_none, List.append_assoc, List.singleton_append,
          List.filter_cons_of_pos (by simpa only [decide_eq_true_eq] using present)]
        congr 1
        · apply List.map_congr_left
          intro old standing
          have differs : key entry ≠ key old :=
            fun same => present (same ▸ List.mem_map_of_mem standing)
          rw [get?_cons, if_neg differs]
        · congr 1
          apply List.filter_congr
          intro later inside
          simp only [List.mem_append, List.mem_singleton, other inside, or_false]

end Overlay

section Sorted

variable (r : α → α → Prop) [DecidableRel r] [Std.Total r] [IsTrans α r]

omit [Std.Total r] in
theorem filter_orderedInsert (p : α → Bool) (entry : α) : ∀ {sorted : List α},
    sorted.Pairwise r →
    (sorted.orderedInsert r entry).filter p =
      if p entry then (sorted.filter p).orderedInsert r entry else sorted.filter p
  | [], _ => by
      simp only [List.orderedInsert_nil, List.filter_cons, List.filter_nil]
  | first :: sorted, ordered => by
      by_cases before : r entry first
      · have least : ∀ other ∈ (first :: sorted).filter p, r entry other := by
          intro other kept
          rcases List.mem_cons.mp (List.mem_of_mem_filter kept) with rfl | later
          · exact before
          · exact trans_of r before (List.rel_of_pairwise_cons ordered later)
        rw [List.orderedInsert_cons_of_le r sorted before, List.filter_cons]
        split_ifs
        · cases rest : (first :: sorted).filter p with
          | nil => rw [List.orderedInsert_nil]
          | cons other others =>
              rw [rest] at least
              rw [List.orderedInsert_cons_of_le r others (least other List.mem_cons_self)]
        · exact Eq.refl _
      · rw [List.orderedInsert_of_not_le r sorted before, List.filter_cons, List.filter_cons,
          filter_orderedInsert p entry ordered.of_cons]
        split_ifs
        · rw [List.orderedInsert_of_not_le r _ before]
        · exact Eq.refl _
        · exact Eq.refl _
        · exact Eq.refl _

/-- Sorting and dropping entries can change places. -/
theorem filter_insertionSort (p : α → Bool) (entries : List α) :
    (entries.insertionSort r).filter p = (entries.filter p).insertionSort r := by
  induction entries with
  | nil => simp only [List.insertionSort_nil, List.filter_nil]
  | cons entry entries ih =>
      rw [List.insertionSort_cons, filter_orderedInsert r p entry
        (List.pairwise_insertionSort r entries), ih, List.filter_cons]
      split_ifs
      · rw [List.insertionSort_cons]
      · exact Eq.refl _

/-- A part that comes last may be sorted before. -/
theorem insertionSort_append_insertionSort (first second : List α) :
    (first ++ second.insertionSort r).insertionSort r = (first ++ second).insertionSort r := by
  unfold List.insertionSort
  rw [List.foldr_append, List.foldr_append]
  congr 1
  exact (List.pairwise_insertionSort r second).insertionSort_eq

omit [DecidableRel r] [Std.Total r] [IsTrans α r] in
/-- The entries of other keys than those of the front are the ones at the back. -/
theorem filter_append_others {key : α → κ} {front back : List α}
    (distinct : ((front ++ back).map key).Nodup) :
    (front ++ back).filter (fun entry => key entry ∉ front.map key) = back := by
  rw [List.map_append, List.nodup_append] at distinct
  rw [List.filter_append, List.filter_eq_nil_iff.mpr, List.filter_eq_self.mpr, List.nil_append]
  · intro entry later
    rw [decide_eq_true_eq]
    exact fun early => distinct.2.2 _ early _ (List.mem_map_of_mem later) (Eq.refl _)
  · intro entry early
    rw [decide_eq_true_eq, not_not]
    exact List.mem_map_of_mem early

/-- Laying over a map what has been laid over it, and sorting, changes nothing any more. -/
theorem insertionSort_overlayAll_again {key : α → κ} {combine : α → α → α}
    (keeps : ∀ held entry, key (combine held entry) = key entry)
    {entries front back : List α} (distinct : ((front ++ back).map key).Nodup)
    (standing : entries.map key = front.map key)
    (absorbed : ∀ entry ∈ front ++ back, ∀ held ∈ entries, key held = key entry →
      combine held entry = entry) :
    (overlayAll key combine entries ((front ++ back).insertionSort r)).insertionSort r =
      (front ++ back).insertionSort r := by
  have same : ((front ++ back).insertionSort r).Perm (front ++ back) := List.perm_insertionSort r _
  have distinctSorted : (((front ++ back).insertionSort r).map key).Nodup :=
    ((same.map key).nodup_iff).mpr distinct
  have long : entries.length = front.length := by
    simpa only [List.length_map] using congrArg List.length standing
  have placed : (entries.map fun held =>
      (get? key ((front ++ back).insertionSort r) (key held)).getD held) = front := by
    apply List.ext_getElem
    · rw [List.length_map, long]
    · intro index inEntries inFront
      rw [List.length_map] at inEntries
      have sameKey : key entries[index] = key front[index] := by
        have mapped := List.getElem_of_eq standing (by rwa [List.length_map])
        rwa [List.getElem_map, List.getElem_map] at mapped
      rw [List.getElem_map, sameKey, get?_of_perm distinctSorted same,
        get?_of_mem distinct (List.mem_append_left back (List.getElem_mem inFront)),
        Option.getD_some]
  rw [overlayAll_of_absorbed keeps _ _ distinctSorted fun entry inside =>
      absorbed entry (same.mem_iff.mp inside),
    filter_insertionSort, insertionSort_append_insertionSort, placed, standing,
    filter_append_others distinct]

end Sorted

end KeyedList
