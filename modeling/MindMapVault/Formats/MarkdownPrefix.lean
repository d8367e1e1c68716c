import MindMapVault.Formats.MarkdownExport
import MindMapVault.Formats.MarkdownImport

/-!
# What stands before a text

The checkbox, the progress and the icons that an export writes before a text are taken off
again, and what is left is the text as it was escaped.
-/

namespace MindMapVault
namespace Formats

open Ecma Regex

section Escape

/-- A character as it is written. -/
def escapeChar (char : Char) : Chars :=
  if char = '\\' ∨ isMarkup char = true then ['\\', char] else [char]

theorem replaceAll_backslash (text : Chars) :
    replaceAll (.char '\\') (fun _ => ['\\', '\\']) text =
      text.flatMap fun char =>
        if (char == '\\') = true then ['\\', '\\'] else [char] :=
  replaceAll_single (fun _ _ _ => steps_one_cons _ _) (fun _ => steps_one_nil _) text

/-- Escaping puts a backslash before each mark. -/
theorem replaceAll_markup (text : Chars) :
    replaceAll (.capture 1 (.one isMarkup))
        (fun groups => '\\' :: Regex.group 1 groups) text =
      text.flatMap fun char =>
        if isMarkup char = true then ['\\', char] else [char] := by
  have single (atStart : Bool) (char : Char) (text : Chars) :
      (Regex.capture 1 (.one isMarkup)).steps atStart (char :: text) [] =
        if isMarkup char then [⟨[char], text, [(1, [char])]⟩] else [] := by
    rw [Regex.steps, steps_one_cons]
    split_ifs <;> rfl
  exact replaceAll_single single (fun _ => by rw [Regex.steps, steps_one_nil]; rfl) text

/-- The two replacements escape character by character. -/
theorem escapeMarkdown_eq (text : Chars) : escapeMarkdown text = text.flatMap escapeChar := by
  rw [escapeMarkdown, replaceAll_backslash, replaceAll_markup, List.flatMap_assoc]
  refine List.flatMap_congr fun char _ => ?_
  by_cases backslash : char = '\\'
  · subst backslash
    rfl
  · simp only [escapeChar, backslash, false_or, beq_iff_eq, if_false, List.flatMap_singleton]

theorem mem_escapeMarkdown {text : Chars} {char : Char}
    (listed : char ∈ escapeMarkdown text) : char ∈ text ∨ char = '\\' := by
  rw [escapeMarkdown_eq] at listed
  obtain ⟨other, inText, written⟩ := List.mem_flatMap.mp listed
  unfold escapeChar at written
  split_ifs at written
  · rcases List.mem_cons.mp written with backslash | same
    · exact .inr backslash
    · exact .inl (List.mem_singleton.mp same ▸ inText)
  · exact .inl (List.mem_singleton.mp written ▸ inText)

/-- A text that no checkbox begins. -/
def Opens (text : Chars) : Prop :=
  ∃ char rest, text = char :: rest ∧ Ecma.isWhitespace char = false ∧ char ≠ '['

theorem Opens.begins {text : Chars} (opens : Opens text) : Begins text := by
  obtain ⟨char, rest, rfl, dark, -⟩ := opens
  exact ⟨char, rest, rfl, dark⟩

theorem Opens.trimEnd {text : Chars} (opens : Opens text) : Opens (Ecma.trimEnd text) := by
  obtain ⟨char, rest, rfl, dark, other⟩ := opens
  exact ⟨char, Ecma.trimEnd rest, trimEnd_cons dark rest, dark, other⟩

/-- An escaped text opens: no prefix is read at its beginning. -/
theorem opens_escapeMarkdown {text : Chars} (begins : Begins text) :
    Opens (escapeMarkdown text) := by
  obtain ⟨char, rest, rfl, dark⟩ := begins
  rw [escapeMarkdown_eq, List.flatMap_cons, escapeChar]
  split_ifs with special
  · exact ⟨'\\', char :: rest.flatMap escapeChar, rfl, rfl, by decide⟩
  · refine ⟨char, rest.flatMap escapeChar, rfl, dark, ?_⟩
    rintro rfl
    exact special (.inr rfl)

end Escape

section Prefix

/-- A text that opens is read with no progress before it. -/
theorem progressPrefix_of_opens {text : Chars} (opens : Opens text) :
    match? progressPrefix text = none := by
  obtain ⟨char, rest, rfl, -, other⟩ := opens
  exact match?_of_leads (leads_one _).seq (by simpa using other)

variable {rest : Chars} {groups : Regex.Groups}

/-- One blank before a text. -/
theorem reaches_blank (begins : Begins rest) :
    (Regex.many1 Ecma.isWhitespace).Reaches (' ' :: rest) groups rest groups := by
  obtain ⟨char, others, rfl, dark⟩ := begins
  have stops : ∀ first ∈ (char :: others).head?, Ecma.isWhitespace first = false := by
    rintro first ⟨⟩
    exact dark
  have each : [' '].all Ecma.isWhitespace = true := rfl
  exact reaches_run each (fun _ => stops) (le_refl 1) (fun _ absent => by cases absent)

theorem checkboxPrefix_box {box : Char} (ticks : isBox box = true) (begins : Begins rest) :
    ∃ taken, match? checkboxPrefix ('[' :: box :: ']' :: ' ' :: rest) =
      some ⟨taken, rest, [(1, [box])]⟩ := by
  have inside : (Regex.capture 1 (.one isBox)).Reaches ([box] ++ ']' :: ' ' :: rest) []
      (']' :: ' ' :: rest) [(1, [box])] := (reaches_one ticks).capture
  exact match?_of_reaches <|
    reaches_all_cons (reaches_char '[') <|
    reaches_all_cons inside <|
    reaches_all_cons (reaches_char ']') (reaches_blank begins)

/-- A percentage as it is written. -/
def IsPercent (digits : Chars) : Prop :=
  digits.all Ecma.isDigit = true ∧ 1 ≤ digits.length ∧ digits.length ≤ 3

/-- A percentage that was written is found. -/
theorem progressPrefix_percent {digits : Chars} (isPercent : IsPercent digits)
    (begins : Begins rest) :
    ∃ taken, match? progressPrefix ('[' :: (digits ++ '%' :: ']' :: ' ' :: rest)) =
      some ⟨taken, rest, [(1, digits)]⟩ := by
  obtain ⟨each, some, few⟩ := isPercent
  have stops : ∀ first ∈ ('%' :: ']' :: ' ' :: rest).head?, Ecma.isDigit first = false := by
    rintro first ⟨⟩
    rfl
  have number : (Regex.capture 1 (.run Ecma.isDigit 1 (.some 3) true)).Reaches
      (digits ++ '%' :: ']' :: ' ' :: rest) [] ('%' :: ']' :: ' ' :: rest) [(1, digits)] :=
    (reaches_run each (fun _ => stops) some fun bound same => Option.some.inj same ▸ few).capture
  exact match?_of_reaches <|
    reaches_all_cons (reaches_char '[') <|
    reaches_all_cons number <|
    reaches_all_cons ((reaches_char '%').seq (reaches_char ']')) (reaches_blank begins)

/-- The name of an icon. -/
def IsIcon (icon : Chars) : Prop := icon.all isAlphanumeric = true ∧ 1 ≤ icon.length

theorem iconsText_cons (icon : Chars) (icons : List Chars) :
    iconsText (icon :: icons) = ':' :: (icon ++ ':' :: ' ' :: iconsText icons) := by
  cases icons with
  | nil => simp [iconsText, join, List.intercalate_singleton]
  | cons other icons =>
      simp [iconsText, join, List.intercalate_cons_cons]

/-- An icon that was written is found. -/
theorem iconPrefix_icon {icon : Chars} (isIcon : IsIcon icon) (begins : Begins rest) :
    ∃ taken, match? iconPrefix (':' :: (icon ++ ':' :: ' ' :: rest)) =
      some ⟨taken, rest, [(1, icon)]⟩ := by
  obtain ⟨each, some⟩ := isIcon
  have stops : ∀ first ∈ (':' :: ' ' :: rest).head?, isAlphanumeric first = false := by
    rintro first ⟨⟩
    rfl
  have name : (Regex.capture 1 (.many1 isAlphanumeric)).Reaches (icon ++ ':' :: ' ' :: rest) []
      (':' :: ' ' :: rest) [(1, icon)] :=
    (reaches_run each (fun _ => stops) some (fun _ absent => by cases absent)).capture
  exact match?_of_reaches <|
    reaches_all_cons (reaches_char ':') <|
    reaches_all_cons name <|
    reaches_all_cons (reaches_char ':') (reaches_blank begins)

/-- Icons are taken off as long as there are any. -/
theorem takeIcons_of_length_le : ∀ (fuel : Nat) (text : Chars), text.length ≤ fuel →
    takeIcons fuel text = takeIcons text.length text := by
  intro fuel
  induction fuel using Nat.strong_induction_on with
  | _ fuel ih =>
      intro text enough
      cases fuel with
      | zero =>
          have none : text.length = 0 := by omega
          rw [none]
      | succ fuel =>
          cases text with
          | nil => rfl
          | cons char text =>
              rw [List.length_cons, takeIcons, takeIcons]
              cases found : match? iconPrefix (char :: text) with
              | none => rfl
              | some step =>
                  have shorter : step.rest.length < text.length + 1 :=
                    length_rest_of_match? (needs_char ':').seq found
                  rw [List.length_cons] at enough
                  simp only
                  rw [ih fuel (by omega) _ (by omega), ih text.length (by omega) _ (by omega)]

/-- A text without the icons before it. -/
def stripIcons (text : Chars) : Chars := (takeIcons text.length text).2

theorem begins_iconsText (icons : List Chars) (begins : Begins rest) :
    Begins (iconsText icons ++ rest) := by
  cases icons with
  | nil => exact begins
  | cons icon icons =>
      rw [iconsText_cons]
      exact ⟨':', _, rfl, rfl⟩

/-- The icons that were written are taken from the text. -/
theorem takeIcons_iconsText {icons : List Chars} (isIcon : ∀ icon ∈ icons, IsIcon icon)
    (begins : Begins rest) {fuel : Nat} (enough : (iconsText icons ++ rest).length ≤ fuel) :
    (takeIcons fuel (iconsText icons ++ rest)).2 = stripIcons rest := by
  induction icons generalizing fuel with
  | nil =>
      rw [takeIcons_of_length_le fuel _ enough]
      rfl
  | cons icon icons ih =>
      obtain ⟨isFirst, others⟩ := List.forall_mem_cons.mp isIcon
      obtain ⟨taken, found⟩ := iconPrefix_icon isFirst (begins_iconsText icons begins)
      rw [iconsText_cons] at enough ⊢
      simp only [List.cons_append, List.append_assoc, List.length_cons, List.length_append]
        at enough ⊢
      cases fuel with
      | zero => omega
      | succ fuel =>
          rw [takeIcons, found]
          exact ih others (by simp only [List.length_append]; omega)

theorem opens_iconsText (icons : List Chars) (opens : Opens rest) :
    Opens (iconsText icons ++ rest) := by
  cases icons with
  | nil => exact opens
  | cons icon icons =>
      rw [iconsText_cons]
      exact ⟨':', _, rfl, rfl, by decide⟩

/-- What an export writes before a text can be read back. -/
structure Marked (node : NodeFields) : Prop where
  progress : ∀ progress ∈ node.progress, IsPercent progress
  icons : ∀ icon ∈ node.icons, IsIcon icon

variable {node : NodeFields}

/-- The percentage and the icons are taken off. -/
theorem parseInlinePrefix_unboxed (marked : Marked node) (opens : Opens rest)
    {raw : Chars} (box : match? checkboxPrefix raw = none ∧
        raw = percentText node.progress ++ (iconsText node.icons ++ rest) ∨
      ∃ step, match? checkboxPrefix raw = some step ∧
        step.rest = percentText node.progress ++ (iconsText node.icons ++ rest)) :
    (parseInlinePrefix raw).text = stripIcons rest := by
  have unboxed : ((match? checkboxPrefix raw).map Regex.Step.rest).getD raw =
      percentText node.progress ++ (iconsText node.icons ++ rest) := by
    rcases box with ⟨none, same⟩ | ⟨step, found, same⟩
    · rw [none]
      exact same
    · rw [found]
      exact same
  have bare : ((match? progressPrefix
        (percentText node.progress ++ (iconsText node.icons ++ rest))).map
        Regex.Step.rest).getD (percentText node.progress ++ (iconsText node.icons ++ rest)) =
      iconsText node.icons ++ rest := by
    cases percent : node.progress with
    | none =>
        have none := progressPrefix_of_opens (opens_iconsText node.icons opens)
        rw [percentText, List.nil_append, none]
        rfl
    | some digits =>
        have begins := begins_iconsText node.icons opens.begins
        obtain ⟨taken, found⟩ := progressPrefix_percent (marked.progress digits percent) begins
        have shape : percentText (some digits) ++ (iconsText node.icons ++ rest) =
            '[' :: (digits ++ '%' :: ']' :: ' ' :: (iconsText node.icons ++ rest)) := by
          simp [percentText]
        rw [shape, found]
        rfl
  simp only [parseInlinePrefix, unboxed, bare]
  exact takeIcons_iconsText marked.icons opens.begins (le_refl _)

end Prefix

end Formats
end MindMapVault
