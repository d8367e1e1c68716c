import MindMapVault.Formats.MarkdownRoundTrip

/-!
# Which maps come back

A map comes back with its texts and its notes exactly if all of them survive and the root has
not a single child. With another title, the root has the title instead of its text.
-/

namespace MindMapVault
namespace Formats

open Ecma Regex
open RoseTree hiding node

section Wrapping

variable {root read wrapped : MindMapTreeNode} {heading : Chars} {node : NodeFields}

namespace Wrapped

variable (wraps : Wrapped root heading read wrapped)

include wraps

theorem length_read : read.labels.length = root.labels.length := length_labels_of_map wraps.same

/-- No node is lost. -/
theorem length_le : root.labels.length ≤ wrapped.labels.length := by
  rcases wraps.below with rfl | ⟨after, rfl⟩
  · exact le_of_eq wraps.length_read.symm
  · rw [length_only, wraps.length_read]
    exact Nat.le_succ _

theorem text_read : read.label.text = readText root.label.text := by
  have labels := congrArg RoseTree.label wraps.same
  rw [label_map, label_map] at labels
  have texts := congrArg Prod.fst labels
  rwa [essence_fst, readEssence_fst] at texts

/-- A heading that is read otherwise stays above the root. -/
theorem length_unwrap (own : node.text = heading) (lost : readText heading ≠ heading) :
    root.labels.length < (unwrap (.node node [wrapped])).labels.length := by
  have other : wrapped.label.text ≠ node.text := by
    rw [wraps.text, own]
    exact lost
  rw [unwrap_of_ne other, length_only]
  exact Nat.lt_succ_of_le wraps.length_le

/-- Above a root with another text than the title, the heading is taken off. -/
theorem promote_of_ne (titled : wrapped ≠ read) (other : read.label.text ≠ heading) :
    promote (echo heading wrapped) = read := by
  rcases wraps.below with same | ⟨after, rfl⟩
  · exact absurd same titled
  · rw [echo, if_neg other, promote]

/-- Above a root with the text of the title, the heading is taken off, and then what is below
it is looked at. -/
theorem promote_of_eq (same : read.label.text = heading) :
    promote (echo heading wrapped) = promote (echo heading read) := by
  rcases wraps.below with rfl | ⟨after, rfl⟩
  · rfl
  · rw [echo, if_pos same]

theorem unwrap_eq (own : node.text = heading) (kept : readText heading = heading) :
    unwrap (.node node [wrapped]) =
      relabel (fun current => { current with id := node.id, text := heading })
        (promote (echo heading wrapped)) := by
  have same : wrapped.label.text = node.text := by rw [wraps.text, own, kept]
  rw [unwrap_of_eq same, own]

end Wrapped

end Wrapping

section Returned

variable {fmtDate : Chars → Chars} {ids : Nat → String} {toIsoDate : Chars → Chars}
variable {root : MindMapTreeNode}

/-- The root with its own text as the title, above the root or not. -/
def ownTitle (titled : Bool) (root : MindMapTreeNode) : Option Chars :=
  if titled then some root.label.text else none

/-- A map that is exported, and imported with the text of the root as the title. -/
def returned (fmtDate : Chars → Chars) (ids : Nat → String) (toIsoDate : Chars → Chars)
    (titled : Bool) (root : MindMapTreeNode) : MindMapTreeNode :=
  obsidianMarkdownToTree ids toIsoDate (treeToMarkdown fmtDate root (ownTitle titled root))
    root.label.text

/-- Trees of the same essence have the same texts. -/
theorem texts_of_essence {tree other : MindMapTreeNode}
    (same : tree.map essence = other.map essence) :
    tree.labels.map NodeFields.text = other.labels.map NodeFields.text := by
  have labels := congrArg (fun tree => (RoseTree.labels tree).map Prod.fst) same
  simp only [labels_map, List.map_map] at labels
  exact labels

/-- What comes back has texts on one line, but for the root. -/
theorem clean_of_returned {titled : Bool}
    (same : (returned fmtDate ids toIsoDate titled root).map essence = root.map essence) :
    root.label.text ≠ [] ∧ ∀ text ∈ innerTexts root, Clean text := by
  have imported : (returned fmtDate ids toIsoDate titled root).label.text =
        (makeNode (ids 0) root.label.text).text ∧
      ∀ text ∈ innerTexts (returned fmtDate ids toIsoDate titled root), Clean text :=
    obsidianMarkdownToTree_texts _ _
  have texts := texts_of_essence same
  rw [texts_eq, texts_eq, imported.1] at texts
  obtain ⟨own, inner⟩ := List.cons.inj texts
  refine ⟨fun none => ?_, inner ▸ imported.2⟩
  rw [none] at own
  have placeholder : Clean (makeNode (ids 0) []).text := clean_makeNode _ List.not_mem_nil
  exact placeholder.nonempty own

/-- The texts of a tree are those of its nodes. -/
theorem forall_texts {property : Chars → Prop} (own : property root.label.text)
    (inner : ∀ text ∈ innerTexts root, property text) :
    ∀ node ∈ root.labels, property node.text := by
  intro node listed
  have inTexts : node.text ∈ root.labels.map NodeFields.text := List.mem_map_of_mem listed
  rw [texts_eq] at inTexts
  exact List.forall_mem_cons.mpr ⟨own, inner⟩ node.text inTexts

/-- The texts and the notes of a map are trimmed. -/
def Trimmed (root : MindMapTreeNode) : Prop :=
  ∀ node ∈ root.labels, trimChars node.text = node.text ∧ trimChars node.notes = node.notes

/-- What the nodes of a map carry beside their texts and their notes is read back. -/
def AllCarried (fmtDate : Chars → Chars) (root : MindMapTreeNode) : Prop :=
  ∀ node ∈ root.labels, Carried fmtDate node

theorem readable_of_nonempty (trimmed : Trimmed root) (carried : AllCarried fmtDate root)
    (nonempty : ∀ node ∈ root.labels, node.text ≠ []) :
    ∀ node ∈ root.labels, Readable fmtDate node := fun node listed =>
  ⟨begins_of_trimChars (trimmed node listed).1 (nonempty node listed), carried node listed⟩

/-- The file of a map whose root has a text. -/
theorem returned_eq (titled : Bool) (trimmed : trimChars root.label.text = root.label.text)
    (nonempty : root.label.text ≠ []) :
    ∃ id, returned fmtDate ids toIsoDate titled root =
      unwrap (orPlaceholder id (readFile ids toIsoDate root.label.text
        (fileLines fmtDate root (ownTitle titled root))).close) := by
  have nonblank : ∀ title ∈ ownTitle titled root, trimChars title ≠ [] := by
    cases titled with
    | false => exact fun _ absent => by cases absent
    | true =>
        rintro title ⟨⟩
        rwa [trimmed]
  have heading : (ownTitle titled root).map trimChars = ownTitle titled root := by
    cases titled with
    | false => rfl
    | true => exact congrArg some trimmed
  rw [returned, treeToMarkdown_eq root nonblank, heading]
  exact obsidianMarkdownToTree_eq root _ _

/-- A file adds as many nodes to the title as the map has, or more. -/
theorem length_readFile (heading : Option Chars) (title : Chars)
    (readable : ∀ node ∈ root.labels, Readable fmtDate node) :
    root.labels.length <
      (readFile ids toIsoDate title (fileLines fmtDate root heading)).close.labels.length := by
  have grows : Grows ids toIsoDate (pieces (fileLines fmtDate root heading))
      root.labels.length := by
    cases heading with
    | none => exact grows_tree root 0 readable
    | some heading =>
        have before : Grows ids toIsoDate
            (pieces ['#' :: ' ' :: escapeMarkdown heading, []]) 0 := grows_pieces _
        have whole := before.append (grows_tree root 1 readable)
        rw [pieces, pieces, ← List.flatMap_append, Nat.zero_add] at whole
        exact whole
  have more := grows (noLines ids title)
  have sizes := congrArg List.length
    (labels_close (readFile ids toIsoDate title (fileLines fmtDate root heading)))
  rw [List.length_map] at sizes
  have one : (noLines ids title).texts.length = 1 := rfl
  rw [one, Nat.add_comm] at more
  rw [sizes]
  exact more

/-- The text of a root that comes back is on one line, too. -/
theorem root_oneLine {titled : Bool} (trimmed : Trimmed root) (carried : AllCarried fmtDate root)
    (same : (returned fmtDate ids toIsoDate titled root).map essence = root.map essence) :
    '\n' ∉ root.label.text := by
  intro broken
  obtain ⟨nonempty, inner⟩ := clean_of_returned same
  have own := (trimmed root.label (label_mem_labels root)).1
  have readable := readable_of_nonempty trimmed carried
    (forall_texts nonempty fun text listed => (inner text listed).nonempty)
  obtain ⟨id, whole⟩ : ∃ id, returned fmtDate ids toIsoDate titled root =
      unwrap (orPlaceholder id (readFile ids toIsoDate root.label.text
        (fileLines fmtDate root (ownTitle titled root))).close) := returned_eq titled own nonempty
  have file : ∃ added, (readFile ids toIsoDate root.label.text
      (fileLines fmtDate root (ownTitle titled root))).close.labels.map NodeFields.text =
        (makeNode (ids 0) root.label.text).text :: added ∧ ∀ text ∈ added, Clean text :=
    readFile_texts _ _
  have larger : root.labels.length < (readFile ids toIsoDate root.label.text
      (fileLines fmtDate root (ownTitle titled root))).close.labels.length :=
    length_readFile _ _ readable
  obtain ⟨added, texts, clean⟩ := file
  generalize (readFile ids toIsoDate root.label.text
    (fileLines fmtDate root (ownTitle titled root))).close = read at whole texts larger
  rw [texts_eq] at texts
  obtain ⟨title, rest⟩ := List.cons.inj texts
  rw [← rest] at clean
  have text : (makeNode (ids 0) root.label.text).text = root.label.text := by
    rw [makeNode, trimOr, own, if_neg nonempty]
  -- the title has a line break, and no node that is read below it has one
  have stays : unwrap (orPlaceholder id read) = read := by
    have some : read.children ≠ [] := by
      intro none
      have one : read.labels.length = 1 := by
        rw [labels_eq, none]
        rfl
      have least := List.length_pos_of_mem (label_mem_labels root)
      omega
    rw [orPlaceholder_of_children id some]
    by_cases alone : read.children.length = 1
    · obtain ⟨node, only, rfl⟩ := exists_only alone
      refine unwrap_of_ne fun echoes => ?_
      rw [innerTexts_only] at clean
      have oneLine := (clean only.label.text List.mem_cons_self).oneLine
      rw [echoes] at oneLine
      exact oneLine ((title.trans text) ▸ broken)
    · exact unwrap_of_children alone
  rw [stays] at whole
  rw [whole] at same
  exact absurd (length_labels_of_map same) (Nat.ne_of_gt larger)

/-- A map with texts on one line is read as it is written, below the title. -/
theorem returned_wrapped {titled : Bool} (trimmed : Trimmed root)
    (carried : AllCarried fmtDate root) (clean : ∀ node ∈ root.labels, Clean node.text) :
    ∃ read wrapped, Wrapped root root.label.text read wrapped ∧
      returned fmtDate ids toIsoDate titled root =
        unwrap (.node (makeNode (ids 0) root.label.text) [wrapped]) := by
  have own := label_mem_labels root
  have heading : ∀ text ∈ ownTitle titled root,
      trimChars text = text ∧ text ≠ [] ∧ '\n' ∉ text := by
    cases titled with
    | false => exact fun _ absent => by cases absent
    | true =>
        rintro text ⟨⟩
        exact ⟨(trimmed _ own).1, (clean _ own).nonempty, (clean _ own).oneLine⟩
  have same : (ownTitle titled root).getD root.label.text = root.label.text := by
    cases titled <;> rfl
  have closed : ∃ read wrapped,
      Wrapped root ((ownTitle titled root).getD root.label.text) read wrapped ∧
        (readFile ids toIsoDate root.label.text
          (fileLines fmtDate root (ownTitle titled root))).close =
          .node (makeNode (ids 0) root.label.text) [wrapped] :=
    readFile_close root.label.text heading
      (readable_of_nonempty trimmed carried fun node listed => (clean node listed).nonempty)
      fun node listed => (clean node listed).oneLine
  obtain ⟨read, wrapped, wraps, closes⟩ := closed
  obtain ⟨id, whole⟩ : ∃ id, returned fmtDate ids toIsoDate titled root =
      unwrap (orPlaceholder id (readFile ids toIsoDate root.label.text
        (fileLines fmtDate root (ownTitle titled root))).close) :=
    returned_eq titled (trimmed _ own).1 (clean _ own).nonempty
  rw [same] at wraps
  rw [closes] at whole
  exact ⟨read, wrapped, wraps, whole⟩

theorem map_relabel {tree : MindMapTreeNode} {change : NodeFields → NodeFields}
    (kept : essence (change tree.label) = essence tree.label) :
    (relabel change tree).map essence = tree.map essence := by
  cases tree
  rw [relabel, RoseTree.map, RoseTree.map]
  exact congrArg (RoseTree.node · _) kept

/-- What is read of all nodes is what they say exactly if they survive. -/
theorem map_readEssence_iff (trimmed : Trimmed root) :
    root.map readEssence = root.map essence ↔
      ∀ node ∈ root.labels, survives node.text = true ∧ notesSurvive node.notes = true := by
  have each (node : NodeFields) (listed : node ∈ root.labels) :
      readEssence node = essence node ↔
        survives node.text = true ∧ notesSurvive node.notes = true := by
    obtain ⟨text, notes⟩ := trimmed node listed
    rw [← readText_eq_iff text, ← readNotes_eq_iff notes, readEssence, essence, Prod.mk.injEq]
  rw [map_eq_map_iff]
  exact forall₂_congr each

/-- A map comes back exactly if its texts and notes survive and the root has not one child. -/
theorem returned_iff (titled : Bool) (trimmed : Trimmed root) (carried : AllCarried fmtDate root) :
    (returned fmtDate ids toIsoDate titled root).map essence = root.map essence ↔
      (∀ node ∈ root.labels, survives node.text = true ∧ notesSurvive node.notes = true) ∧
        root.children.length ≠ 1 := by
  have single (clean : ∀ node ∈ root.labels, Clean node.text) :
      (returned fmtDate ids toIsoDate titled root).map essence = root.map essence ↔
        root.map readEssence = root.map essence ∧ root.children.length ≠ 1 := by
    have file : ∃ read wrapped, Wrapped root root.label.text read wrapped ∧
        returned fmtDate ids toIsoDate titled root =
          unwrap (.node (makeNode (ids 0) root.label.text) [wrapped]) :=
      returned_wrapped trimmed carried clean
    obtain ⟨read, wrapped, wraps, whole⟩ := file
    have own := label_mem_labels root
    have title : (makeNode (ids 0) root.label.text).text = root.label.text := by
      rw [makeNode, trimOr, (trimmed _ own).1, if_neg (clean _ own).nonempty]
    by_cases kept : readText root.label.text = root.label.text
    · have text : read.label.text = root.label.text := by
        rw [wraps.text_read, kept]
      rw [wraps.unwrap_eq title kept, wraps.promote_of_eq text] at whole
      by_cases alone : root.children.length = 1
      · refine iff_of_false (fun same => ?_) fun both => both.2 alone
        have sizes := length_labels_of_map same
        have fewer : (promote (echo root.label.text read)).labels.length < read.labels.length :=
          length_promote_echo_lt ((length_children_of_map wraps.same).trans alone)
        rw [whole, length_relabel] at sizes
        rw [wraps.length_read] at fewer
        omega
      · have several : read.children.length ≠ 1 := by
          rwa [length_children_of_map wraps.same]
        rw [echo_of_children _ several, promote_of_children several] at whole
        have relabelled : essence { read.label with
            id := (makeNode (ids 0) root.label.text).id, text := root.label.text } =
              essence read.label := congrArg (fun text => (text, read.label.notes)) text.symm
        rw [whole, map_relabel relabelled, wraps.same]
        exact ⟨fun same => ⟨same, alone⟩, fun both => both.1⟩
    · refine iff_of_false (fun same => ?_) fun both => kept ?_
      · have larger := wraps.length_unwrap title kept
        rw [← whole, length_labels_of_map same] at larger
        exact absurd larger (Nat.lt_irrefl _)
      · have labels := (map_eq_map_iff root).mp both.1 root.label own
        have texts := congrArg Prod.fst labels
        rwa [readEssence_fst, essence_fst] at texts
  rw [← map_readEssence_iff trimmed]
  constructor
  · intro same
    obtain ⟨nonempty, inner⟩ := clean_of_returned same
    have clean := forall_texts ⟨nonempty, root_oneLine trimmed carried same⟩ inner
    exact (single clean).mp same
  · intro both
    refine (single fun node listed => ?_).mpr both
    have alive := ((map_readEssence_iff trimmed).mp both.1 node listed).1
    obtain ⟨nonempty, -, dots, -⟩ := survives_iff.mp alive
    exact ⟨nonempty, not_mem_of_dots dots⟩

/-- Nodes that carry nothing else. -/
theorem allCarried_of_bare
    (bare : ∀ node ∈ root.labels,
      node.progress = none ∧ node.icons = [] ∧ metadata fmtDate node = []) :
    AllCarried fmtDate root := by
  intro node listed
  obtain ⟨progress, icons, nothing⟩ := bare node listed
  refine ⟨⟨fun _ absent => ?_, fun _ absent => ?_⟩, fun _ absent => ?_, fun _ absent => ?_⟩
  · rw [progress] at absent
    cases absent
  · rw [icons] at absent
    exact absurd absent List.not_mem_nil
  · rw [nothing] at absent
    exact absurd absent List.not_mem_nil
  · rw [nothing] at absent
    exact absurd absent List.not_mem_nil

/-- A node with a text and notes and nothing else. -/
def textNode (text notes : String) : NodeFields :=
  { makeNode "" text.toList with notes := notes.toList }

/-- A map with a tag-like word, hash marks and notes of two lines. -/
def plannedMap : MindMapTreeNode :=
  .node (textNode "Plan: Q1/Q2" "") [.node (textNode "C# (draft)" "first\n second") [],
    .node (textNode "1. budget" "") [.node (textNode "> 50 %" "") []]]

theorem returned_iff_plannedMap :
    (returned id toString id true plannedMap).map essence = plannedMap.map essence :=
  (returned_iff true (by unfold Trimmed; decide +kernel)
    (allCarried_of_bare (by decide +kernel))).mpr ⟨by decide +kernel, by decide⟩

/-- A map with an underscore, and with a blank line in notes. -/
def markedMap : MindMapTreeNode :=
  .node (textNode "Map" "") [.node (textNode "snake_case" "") [],
    .node (textNode "Plan" "first\n\nsecond") []]

theorem not_returned_markedMap :
    (returned id toString id true markedMap).labels.map essence =
        [("Map".toList, []), ("snake\\_case".toList, []), ("Plan".toList, "first\nsecond".toList)] ∧
      (returned id toString id true markedMap).map essence ≠ markedMap.map essence := by
  have read : (returned id toString id true markedMap).labels.map essence =
      [("Map".toList, []), ("snake\\_case".toList, []),
        ("Plan".toList, "first\nsecond".toList)] := by decide +kernel
  refine ⟨read, fun same => ?_⟩
  have labels := congrArg RoseTree.labels same
  rw [labels_map, labels_map, read] at labels
  revert labels
  decide +kernel

end Returned

section Titled

variable {fmtDate : Chars → Chars} {ids : Nat → String} {toIsoDate : Chars → Chars}
variable {root : MindMapTreeNode} {text : Chars} {char : Char}

/-- A letter or a digit, or whatever else is neither a blank nor in ASCII. -/
def isPlain (char : Char) : Bool :=
  isAlphanumeric char || (128 ≤ char.toNat && !Ecma.isWhitespace char)

/-- Words with one blank between them. -/
structure PlainWords (text : Chars) : Prop where
  nonempty : text ≠ []
  each : ∀ char ∈ text, isPlain char = true ∨ char = ' '
  begins : text.head? ≠ some ' '
  ends : text.getLast? ≠ some ' '
  single : ¬ [' ', ' '] <:+: text

-- The characters are looked at as a list: there are too many of them to try them all.
instance : Decidable (PlainWords text) :=
  decidable_of_iff (text ≠ [] ∧ (text.all fun char => isPlain char || char == ' ') ∧
      text.head? ≠ some ' ' ∧ text.getLast? ≠ some ' ' ∧ ¬ [' ', ' '] <:+: text)
    ⟨fun ⟨nonempty, each, begins, ends, single⟩ =>
        ⟨nonempty, by simpa using each, begins, ends, single⟩,
      fun words => ⟨words.nonempty, by simpa using words.each, words.begins, words.ends,
        words.single⟩⟩

theorem isPlain_of_mark {mark : Char} (ascii : mark.toNat < 128)
    (other : isAlphanumeric mark = false) (isPlain : isPlain char = true) :
    char ≠ mark := by
  rintro rfl
  unfold Formats.isPlain at isPlain
  rw [other, Bool.false_or, Bool.and_eq_true, decide_eq_true_eq] at isPlain
  omega

theorem dark_of_isPlain (isPlain : isPlain char = true) :
    Ecma.isWhitespace char = false := by
  unfold Formats.isPlain at isPlain
  rcases Bool.or_eq_true_iff.mp isPlain with ascii | other
  · exact dark_of_alphanumeric ascii
  · simpa using (Bool.and_eq_true_iff.mp other).2

namespace PlainWords

variable (words : PlainWords text)

include words

/-- A mark that is neither a letter nor a blank is not among words. -/
theorem absent (mark : Char) (ascii : mark.toNat < 128) (other : isAlphanumeric mark = false)
    (notBlank : mark ≠ ' ') : ∀ char ∈ text, (char == mark) = false := by
  intro char inText
  refine beq_eq_false_iff_ne.mpr ?_
  rcases words.each char inText with plain | rfl
  · exact isPlain_of_mark ascii other plain
  · exact notBlank.symm

theorem not_isMarkup (inText : char ∈ text) :
    char ≠ '\\' ∧ isMarkup char = false := by
  have slash := words.absent '\\' (by decide) rfl (by decide) char inText
  have tick := words.absent '\x60' (by decide) rfl (by decide) char inText
  have star := words.absent '*' (by decide) rfl (by decide) char inText
  have line := words.absent '_' (by decide) rfl (by decide) char inText
  have opening := words.absent '[' (by decide) rfl (by decide) char inText
  have closing := words.absent ']' (by decide) rfl (by decide) char inText
  refine ⟨beq_eq_false_iff_ne.mp slash, ?_⟩
  unfold isMarkup
  rw [tick, star, line, opening, closing]
  rfl

theorem isDot (inText : char ∈ text) : Ecma.isDot char = true := by
  rcases words.each char inText with plain | rfl
  · exact isDot_of_dark (dark_of_isPlain plain)
  · rfl

theorem dark (inText : char ∈ text) (notBlank : char ≠ ' ') :
    Ecma.isWhitespace char = false := by
  rcases words.each char inText with plain | blank
  · exact dark_of_isPlain plain
  · exact absurd blank notBlank

theorem trimChars_eq : trimChars text = text := by
  refine trimChars_of_both ?_ ?_
  · cases shape : text with
    | nil => exact absurd shape words.nonempty
    | cons char rest =>
        refine ⟨char, rest, rfl, words.dark (shape ▸ List.mem_cons_self) ?_⟩
        rintro rfl
        exact words.begins (shape ▸ rfl)
  · rcases List.eq_nil_or_concat text with none | ⟨front, char, shape⟩
    · exact absurd none words.nonempty
    · rw [List.concat_eq_append] at shape
      refine ⟨front, char, shape, words.dark (shape ▸ List.mem_concat_self) ?_⟩
      rintro rfl
      exact words.ends (shape ▸ List.getLast?_concat)

/-- There is no gap between words. -/
theorem test_gapSyntax : Regex.test gapSyntax text = false := by
  rw [Regex.test, Option.isSome_eq_false_iff, Option.isNone_iff_eq_none]
  refine Option.eq_none_iff_forall_ne_some.mpr fun found isFound => words.single ?_
  obtain ⟨⟨atStart, suffix, listed⟩, split⟩ := find?_spec isFound
  obtain ⟨-, each, long⟩ := run_spec listed
  obtain ⟨first, after, taken⟩ := List.exists_cons_of_length_pos (Nat.lt_of_succ_lt long)
  rw [taken, List.length_cons] at long
  obtain ⟨second, rest, rfl⟩ := List.exists_cons_of_length_pos (Nat.lt_of_succ_lt_succ long)
  rw [taken, List.all_cons, List.all_cons, Bool.and_eq_true, Bool.and_eq_true] at each
  refine ⟨found.1, rest ++ found.2.rest, ?_⟩
  rw [split, taken, beq_iff_eq.mp each.1, beq_iff_eq.mp each.2.1]
  simp

/-- Words survive. -/
theorem survives : Formats.survives text = true := by
  have absent {pattern : Regex} (mark : Char) (needs : pattern.Needs (· == mark))
      (ascii : mark.toNat < 128) (other : isAlphanumeric mark = false) (notBlank : mark ≠ ' ') :
      Regex.test pattern text = false :=
    test_of_absent needs (words.absent mark ascii other notBlank)
  refine survives_iff.mpr ⟨words.nonempty, fun _ inText => words.not_isMarkup inText,
    List.all_eq_true.mpr fun _ inText => words.isDot inText, ?_⟩
  unfold openPatterns
  simp only [List.forall_mem_cons, List.not_mem_nil, false_imp_iff, implies_true, and_true]
  exact ⟨absent ':' (needs_char ':').seq.after (by decide) rfl (by decide),
    absent '~' (needs_literal rfl).seq (by decide) rfl (by decide),
    absent '=' (needs_literal rfl).seq (by decide) rfl (by decide),
    absent '#' (needs_char '#').seq.after (by decide) rfl (by decide),
    absent '<' (needs_literal rfl).seq (by decide) rfl (by decide),
    absent '#' (needs_run (le_refl 1) fun _ same => same).seq.after (by decide) rfl (by decide),
    words.test_gapSyntax⟩

end PlainWords

/-- What is read of words is what they say. -/
theorem map_text_of_words {read : MindMapTreeNode} (same : read.map essence = root.map readEssence)
    (words : ∀ node ∈ root.labels, PlainWords node.text) :
    read.map NodeFields.text = root.map NodeFields.text := by
  have texts := congrArg (RoseTree.map Prod.fst) same
  rw [map_map, map_map] at texts
  refine texts.trans ((map_eq_map_iff root).mpr fun node listed => ?_)
  have plain := words node listed
  exact (readEssence_fst node).trans ((readText_eq_iff plain.trimChars_eq).mpr plain.survives)

/-- A map of words comes back below the title, unless the root has the text of the title and a
single child. -/
theorem titled_returned {title : Chars} (words : ∀ node ∈ root.labels, PlainWords node.text)
    (carried : AllCarried fmtDate root) (survives : survives (trimChars title) = true)
    (told : root.label.text ≠ trimChars title ∨ root.children.length ≠ 1) :
    (obsidianMarkdownToTree ids toIsoDate (treeToMarkdown fmtDate root (some title)) title).map
        NodeFields.text =
      .node (trimChars title) (mapAll NodeFields.text root.children) := by
  obtain ⟨nonblank, -, dots, -⟩ := survives_iff.mp survives
  have trimmed := trimChars_trimChars title
  have kept : readText (trimChars title) = trimChars title := (readText_eq_iff trimmed).mpr survives
  have readable (node : NodeFields) (listed : node ∈ root.labels) : Readable fmtDate node :=
    ⟨begins_of_trimChars (words node listed).trimChars_eq (words node listed).nonempty,
      carried node listed⟩
  have oneLine (node : NodeFields) (listed : node ∈ root.labels) : '\n' ∉ node.text :=
    not_mem_of_dots (List.all_eq_true.mpr fun _ inText => (words node listed).isDot inText)
  have heading : ∀ text ∈ some (trimChars title),
      trimChars text = text ∧ text ≠ [] ∧ '\n' ∉ text := by
    rintro text ⟨⟩
    exact ⟨trimmed, nonblank, not_mem_of_dots dots⟩
  have closed : ∃ read wrapped,
      Wrapped root ((some (trimChars title)).getD root.label.text) read wrapped ∧
        (readFile ids toIsoDate title
          (fileLines fmtDate root (some (trimChars title)))).close =
          .node (makeNode (ids 0) title) [wrapped] := readFile_close title heading readable oneLine
  obtain ⟨read, wrapped, wraps, closes⟩ := closed
  rw [Option.getD_some] at wraps
  have file : ∃ id, obsidianMarkdownToTree ids toIsoDate
      (join "\n" (fileLines fmtDate root (some (trimChars title)))) title =
        unwrap (orPlaceholder id (readFile ids toIsoDate title
          (fileLines fmtDate root (some (trimChars title)))).close) :=
    obsidianMarkdownToTree_eq root _ title
  obtain ⟨id, whole⟩ := file
  have own : (makeNode (ids 0) title).text = trimChars title := by
    rw [makeNode, trimOr, if_neg nonblank]
  have texts := map_text_of_words wraps.same words
  have taken : promote (echo (trimChars title) wrapped) = read := by
    by_cases same : read.label.text = trimChars title
    · have rootText : root.label.text = read.label.text := by
        have labels := congrArg RoseTree.label texts
        rw [label_map, label_map] at labels
        exact labels.symm
      have several : read.children.length ≠ 1 := by
        rw [length_children_of_map texts]
        exact told.resolve_left fun other => other (rootText.trans same)
      rw [wraps.promote_of_eq same, echo_of_children _ several, promote_of_children several]
    · refine wraps.promote_of_ne (fun untitled => same ?_) same
      rw [← untitled, wraps.text, kept]
  have nonblankTitle : ∀ other ∈ some title, trimChars other ≠ [] := by
    rintro other ⟨⟩
    exact nonblank
  rw [closes] at whole
  have placed : (RoseTree.node (makeNode (ids 0) title) [wrapped]).children ≠ [] :=
    List.cons_ne_nil _ _
  rw [treeToMarkdown_eq root nonblankTitle, Option.map_some, whole,
    orPlaceholder_of_children id placed, wraps.unwrap_eq own kept, taken]
  have below := congrArg RoseTree.children texts
  rw [children_map, children_map] at below
  cases read with
  | node node children =>
      rw [relabel, RoseTree.map]
      exact congrArg _ below

/-- A map of words whose root has another text than the title, and a single child. -/
def nestedMap : MindMapTreeNode :=
  .node (textNode "Alpha" "") [.node (textNode "My Vault" "a note") [
    .node (textNode "My Vault" "") [], .node (textNode "Two words" "") []]]

theorem titled_returned_nestedMap :
    (obsidianMarkdownToTree toString id (treeToMarkdown id nestedMap (some " My Vault ".toList))
        " My Vault ".toList).map NodeFields.text =
      .node "My Vault".toList (mapAll NodeFields.text nestedMap.children) :=
  titled_returned (by decide +kernel) (allCarried_of_bare (by decide +kernel)) (by decide +kernel)
    (.inl (by decide +kernel))

/-- A root with the text of the title and a single child, which takes the place of the root. -/
def chainMap : MindMapTreeNode :=
  .node (textNode "Alpha" "") [.node (textNode "Beta" "") [.node (textNode "Gamma" "") []]]

/-- The root has another text than before, an empty title stands above the root, and an only
child is lost. -/
theorem titled_not_returned :
    (obsidianMarkdownToTree toString id (treeToMarkdown id nestedMap (some "Beta".toList))
        "Beta".toList).map NodeFields.text ≠ nestedMap.map NodeFields.text ∧
      (obsidianMarkdownToTree toString id (treeToMarkdown id nestedMap (some [])) []).map
        NodeFields.text ≠ nestedMap.map NodeFields.text ∧
      (obsidianMarkdownToTree toString id (treeToMarkdown id chainMap (some "Alpha".toList))
        "Alpha".toList).map NodeFields.text ≠ chainMap.map NodeFields.text := by
  have differ {tree other : MindMapTreeNode}
      (texts : tree.labels.map NodeFields.text ≠ other.labels.map NodeFields.text) :
      tree.map NodeFields.text ≠ other.map NodeFields.text := by
    intro same
    have labels := congrArg RoseTree.labels same
    rw [labels_map, labels_map] at labels
    exact texts labels
  exact ⟨differ (by decide +kernel), differ (by decide +kernel), differ (by decide +kernel)⟩

end Titled

end Formats
end MindMapVault
