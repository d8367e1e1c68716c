import MindMapVault.Formats.EscapeXml
import MindMapVault.Formats.NotesMarkup

/-!
# Elements on lines

FreePlane and WiseMapping files have each element on a line of its own, with two blanks for each
element that it is in. Between the elements stand line breaks and blanks, and a reader looks for
elements only.
-/

namespace MindMapVault
namespace Formats

open Xml (Markup Node)
open Xml.Markup (renderAll GrammarAll nodes)

/-- `'  '.repeat(depth)`. -/
def indentation (depth : Nat) : Chars := List.replicate (2 * depth) ' '

/-- A line break and the blanks before a line. -/
def lineStart (depth : Nat) : Chars := '\n' :: indentation depth

/-- What stands in an element: nothing, or a line for each part. -/
def spaced (depth : Nat) (items : List Markup) : List Markup :=
  if items.isEmpty then []
  else
    (items.flatMap fun item => [.text (lineStart (depth + 1)), item]) ++ [.text (lineStart depth)]

def spacedNodes (depth : Nat) (items : List Node) : List Node :=
  if items.isEmpty then []
  else
    (items.flatMap fun item => [.text (lineStart (depth + 1)), item]) ++ [.text (lineStart depth)]

section Lines

theorem indentation_succ (depth : Nat) :
    indentation (depth + 1) = indentation depth ++ [' ', ' '] := by
  rw [indentation, indentation, Nat.mul_succ, List.replicate_add]
  rfl

theorem forall_lineStart {holds : Char → Prop} (lineBreak : holds '\n') (blank : holds ' ')
    (depth : Nat) : ∀ ch ∈ lineStart depth, holds ch := by
  rw [lineStart, List.forall_mem_cons]
  refine ⟨lineBreak, fun ch listed => ?_⟩
  rw [List.eq_of_mem_replicate listed]
  exact blank

theorem intercalate_cons (between first : Chars) (others : List Chars) :
    between.intercalate (first :: others) = first ++ others.flatMap (between ++ ·) := by
  induction others generalizing first with
  | nil => simp
  | cons next others ih =>
      rw [List.intercalate_cons_cons, ih, List.flatMap_cons, List.append_assoc, List.append_assoc]

/-- Lines are rendered with a break and their indentation before each. -/
theorem renderAll_spaced (depth : Nat) (items : List Markup) :
    renderAll (spaced depth items) =
      if items.isEmpty then []
      else (items.flatMap fun item => lineStart (depth + 1) ++ item.render) ++ lineStart depth := by
  have lines : renderAll (items.flatMap fun item => [.text (lineStart (depth + 1)), item]) =
      items.flatMap fun item => lineStart (depth + 1) ++ item.render := by
    induction items with
    | nil => rfl
    | cons item items ih =>
        rw [List.flatMap_cons, List.flatMap_cons, renderAll_append, ih]
        simp [renderAll, Markup.render]
  unfold spaced
  split_ifs
  · rfl
  · rw [renderAll_append, lines]
    simp [renderAll, Markup.render]

/-- A line break and blanks are text as it may be written. -/
theorem grammar_lineStart (depth : Nat) : (Markup.text (lineStart depth)).Grammar := by
  have noTag : ∀ ch ∈ lineStart depth, ch ≠ '<' := forall_lineStart (by decide) (by decide) depth
  have noEnd : ∀ ch ∈ lineStart depth, ch ≠ ']' := forall_lineStart (by decide) (by decide) depth
  refine ⟨List.cons_ne_nil _ _, fun inside => noTag '<' inside rfl, fun ends => ?_⟩
  exact noEnd ']' (ends.subset (List.mem_cons_self : ']' ∈ Xml.sectionEnd)) rfl

/-- Elements on lines of their own. -/
theorem grammarAll_spaced {items : List Markup}
    (each : ∀ item ∈ items, item.Grammar ∧ item.isText = false) (depth : Nat) :
    GrammarAll (spaced depth items) := by
  have lines : GrammarAll ((items.flatMap fun item => [.text (lineStart (depth + 1)), item]) ++
      [.text (lineStart depth)]) := by
    induction items with
    | nil => exact ⟨grammar_lineStart depth, fun _ => rfl, trivial⟩
    | cons item items ih =>
        obtain ⟨⟨grammar, noText⟩, later⟩ := List.forall_mem_cons.mp each
        refine ⟨grammar_lineStart _, fun _ => noText, grammar, fun isText => ?_, ih later⟩
        exact absurd (noText.symm.trans isText) Bool.false_ne_true
  unfold spaced
  split_ifs
  · exact trivial
  · exact lines

theorem node_lineStart (depth : Nat) :
    (Markup.text (lineStart depth)).node = some (.text (lineStart depth)) := by
  have others : ∀ ch ∈ lineStart depth, ch ≠ '\r' := forall_lineStart (by decide) (by decide) depth
  have noReturn : '\r' ∉ lineStart depth := fun inside => others '\r' inside rfl
  have plain : escapeXml (lineStart depth) = lineStart depth :=
    escapeXml_of_plain (forall_lineStart (by decide) (by decide) depth)
  have valid : (lineStart depth).all Xml.isChar = true :=
    List.all_eq_true.mpr (forall_lineStart (by decide) (by decide) depth)
  have read := characterData_escapeXml (lineStart depth)
  rw [plain, if_pos valid, Xml.normalizeBreaks_of_not_mem noReturn] at read
  rw [Markup.node, read]
  rfl

/-- Lines are read as their elements with blanks between. -/
theorem nodes_spaced (depth : Nat) (items : List Markup) :
    nodes (spaced depth items) = (nodes items).map (spacedNodes depth) := by
  have last : nodes [.text (lineStart depth)] = some [.text (lineStart depth)] := by
    rw [nodes, node_lineStart]
    rfl
  have lines : nodes (items.flatMap fun item => [.text (lineStart (depth + 1)), item]) =
      (nodes items).map (·.flatMap fun item => [.text (lineStart (depth + 1)), item]) := by
    induction items with
    | nil => rfl
    | cons item items ih =>
        rw [List.flatMap_cons, List.cons_append, List.cons_append, List.nil_append, nodes,
          node_lineStart, nodes, ih, nodes]
        cases item.node with
        | none => rfl
        | some node =>
            cases nodes items with
            | none => rfl
            | some others => rfl
  cases items with
  | nil => rfl
  | cons item items =>
      rw [spaced, if_neg (by simp), nodes_append, lines, last]
      cases isNodes : nodes (item :: items) with
      | none => rfl
      | some others =>
          have some : others.isEmpty = false := by
            rw [nodes] at isNodes
            obtain ⟨first, -, more⟩ := Option.bind_eq_some_iff.mp isNodes
            obtain ⟨rest, -, rfl⟩ := Option.map_eq_some_iff.mp more
            rfl
          rw [Option.map_some, Option.map_some, spacedNodes, some]
          rfl

/-- The elements on the lines of an element. -/
theorem elements_spacedNodes (depth : Nat) (items : List Node) :
    (spacedNodes depth items).filter (·.tagName?.isSome) = items.filter (·.tagName?.isSome) := by
  have lines (items : List Node) :
      (items.flatMap fun item => [.text (lineStart (depth + 1)), item]).filter
          (·.tagName?.isSome) = items.filter (·.tagName?.isSome) := by
    induction items with
    | nil => rfl
    | cons item items ih =>
        rw [List.flatMap_cons, List.filter_append, ih]
        exact
          (List.filter_append (p := fun child : Node => child.tagName?.isSome) [item] items).symm
  rw [spacedNodes]
  split_ifs with empty
  · rw [List.isEmpty_iff.mp empty]
  · rw [List.filter_append, lines]
    exact List.append_nil _

/-- Line breaks add no elements. -/
theorem tagNamesAll_spaced (depth : Nat) (items : List Markup) :
    Markup.tagNamesAll (spaced depth items) = Markup.tagNamesAll items := by
  have lines : Markup.tagNamesAll
      (items.flatMap fun item => [.text (lineStart (depth + 1)), item]) =
        Markup.tagNamesAll items := by
    induction items with
    | nil => rfl
    | cons item items ih =>
        rw [List.flatMap_cons, Markup.tagNamesAll_append, ih]
        simp [Markup.tagNamesAll, Markup.tagNames]
  unfold spaced
  split_ifs with empty
  · rw [List.isEmpty_iff.mp empty]
  · rw [Markup.tagNamesAll_append, lines]
    exact List.append_nil _

end Lines

end Formats
end MindMapVault
