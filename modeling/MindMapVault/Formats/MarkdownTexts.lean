import MindMapVault.Formats.MarkdownRead

/-!
# Texts that Markdown leaves as they are

Reading a text only leaves characters out of what was written, and writing it only adds
backslashes. So a text comes back exactly when nothing is added and no stage of the reading
leaves anything out.
-/

namespace MindMapVault
namespace Formats

open Ecma Regex

/-- A text that an export and an import leave as it is. -/
def survives (text : Chars) : Bool :=
  text ≠ [] &&
    text.all (fun char =>
      char != '\\' && !isMarkup char && Ecma.isDot char) &&
    [iconPrefix, strikeSyntax, highlightSyntax, tagSyntax, commentSyntax, hashesSyntax,
      gapSyntax].all fun pattern => !Regex.test pattern text

/-- A line of a note that an export and an import leave as it is. -/
def lineSurvives (noteLine : Chars) : Bool :=
  trimChars noteLine ≠ [] && Ecma.trimEnd noteLine = noteLine &&
    noteLine.all Ecma.isDot && !Regex.test calloutMark noteLine

/-- Notes of which every line is left as it is. -/
def notesSurvive (notes : Chars) : Bool := notes = [] || (notes.splitOn '\n').all lineSurvives

section Stages

/-- What an export does not add to a text. -/
def isWritten (char : Char) : Bool := char != '\\'

variable {weigh : Char → Bool} {text : Chars}

theorem white_isWritten {char : Char} (white : Ecma.isWhitespace char = true) :
    isWritten char = true := by
  refine bne_iff_ne.mpr ?_
  rintro rfl
  exact absurd white (by decide)

/-- What is left out after a part of a text has nothing of a class. -/
theorem eq_nil_of_countP {front back : Chars} (split : text = front ++ back)
    (all : text.countP weigh ≤ front.countP weigh)
    (heavy : ∀ char ∈ back.head?, weigh char = true) : back = [] := by
  rw [split, List.countP_append] at all
  cases back with
  | nil => rfl
  | cons char back =>
      rw [List.countP_cons_of_pos (heavy char rfl)] at all
      omega

theorem thins_trimEnd (heavy : ∀ char, Ecma.isWhitespace char = true →
    weigh char = true) : Thins weigh Ecma.trimEnd where
  sublist := by
    intro text
    obtain ⟨white, split, -⟩ := trimEnd_append_white text
    conv_rhs => rw [split]
    exact List.sublist_append_left _ _
  fixed := by
    intro text all
    obtain ⟨white, split, isWhite⟩ := trimEnd_append_white text
    have none : white = [] := by
      refine eq_nil_of_countP split all fun char isHead => ?_
      exact heavy char (List.all_eq_true.mp isWhite char (List.mem_of_mem_head? isHead))
    rw [none, List.append_nil] at split
    exact split.symm

theorem thins_trimStart (heavy : ∀ char, Ecma.isWhitespace char = true →
    weigh char = true) : Thins weigh trimStart where
  sublist := fun _ => List.dropWhile_sublist _
  fixed := by
    intro text all
    cases text with
    | nil => rfl
    | cons char text =>
        cases white : Ecma.isWhitespace char with
        | false => exact trimStart_of_begins ⟨char, text, rfl, white⟩
        | true =>
            rw [trimStart, List.dropWhile_cons_of_pos white,
              List.countP_cons_of_pos (heavy char white)] at all
            have fewer : (text.dropWhile Ecma.isWhitespace).countP weigh ≤ text.countP weigh :=
              (List.dropWhile_sublist _).countP_le
            omega

theorem thins_trimChars (heavy : ∀ char, Ecma.isWhitespace char = true →
    weigh char = true) : Thins weigh trimChars where
  sublist := fun text =>
    ((thins_trimEnd heavy).sublist _).trans ((thins_trimStart heavy).sublist text)
  fixed := by
    intro text all
    have less := ((thins_trimEnd heavy).sublist (trimStart text)).countP_le (p := weigh)
    have start : trimStart text = text := (thins_trimStart heavy).fixed text (all.trans less)
    have whole : trimChars text = Ecma.trimEnd text := congrArg Ecma.trimEnd start
    rw [whole] at all ⊢
    exact (thins_trimEnd heavy).fixed text all

theorem thins_oneLine (heavy : ∀ char, Ecma.isDot char = false →
    weigh char = true) : Thins weigh oneLine where
  sublist := fun _ => List.takeWhile_sublist _
  fixed := by
    intro text all
    have split : oneLine text ++ text.dropWhile Ecma.isDot = text := List.takeWhile_append_dropWhile
    have none : text.dropWhile Ecma.isDot = [] := by
      refine eq_nil_of_countP split.symm all fun char isHead => heavy char ?_
      have dark := List.head?_dropWhile_not Ecma.isDot text
      rw [isHead] at dark
      exact dark
    rw [none, List.append_nil] at split
    exact split

theorem needs_iconPrefix : (Regex.seq (.char ':') (.seq (.capture 1 (.many1 isAlphanumeric))
    (.seq (.char ':') (.many1 Ecma.isWhitespace)))).Needs isWritten :=
  ((needs_char ':').mono fun _ same => by rw [beq_iff_eq.mp same]; rfl).seq

/-- What follows an icon is shorter. -/
theorem countP_rest {step : Regex.Step} (found : match? iconPrefix text = some step) :
    step.rest.Sublist text ∧ step.rest.countP isWritten < text.countP isWritten := by
  have head := (match?_start _ text).symm.trans found
  have listed := List.mem_of_mem_head? head
  have split := steps_append listed
  have heavy := needs_iconPrefix.countP_pos listed
  constructor
  · rw [← split]
    exact List.sublist_append_right _ _
  · rw [← split, List.countP_append]
    omega

theorem takeIcons_sublist : ∀ (fuel : Nat) (text : Chars), (takeIcons fuel text).2.Sublist text
  | 0, _ => .refl _
  | fuel + 1, text => by
      rw [takeIcons]
      cases found : match? iconPrefix text with
      | none => exact .refl _
      | some step => exact (takeIcons_sublist fuel step.rest).trans (countP_rest found).1

theorem stripIcons_of_none (absent : match? iconPrefix text = none) :
    stripIcons text = text := by
  rw [stripIcons]
  cases text with
  | nil => rfl
  | cons char text => rw [List.length_cons, takeIcons, absent]

theorem thins_stripIcons : Thins isWritten stripIcons where
  sublist := fun text => takeIcons_sublist text.length text
  fixed := by
    intro text all
    refine stripIcons_of_none (Option.eq_none_iff_forall_ne_some.mpr fun step found => ?_)
    obtain ⟨shorter, fewer⟩ := countP_rest found
    rw [stripIcons] at all
    cases text with
    | nil => exact absurd fewer (Nat.not_lt_zero _)
    | cons char text =>
        rw [List.length_cons, takeIcons, found] at all
        have rest := (takeIcons_sublist text.length step.rest).countP_le (p := isWritten)
        exact absurd (all.trans rest) (Nat.not_le.mpr fewer)

/-- The icons are all there exactly if none is found. -/
theorem stripIcons_eq_iff : stripIcons text = text ↔ Regex.test iconPrefix text = false := by
  rw [test_eq_isSome, Option.isSome_eq_false_iff, Option.isNone_iff_eq_none]
  constructor
  · intro same
    refine Option.eq_none_iff_forall_ne_some.mpr fun step found => ?_
    have fewer := (countP_rest found).2
    have rest : (stripIcons text).countP isWritten ≤ step.rest.countP isWritten := by
      rw [stripIcons]
      cases text with
      | nil => exact absurd fewer (Nat.not_lt_zero _)
      | cons char text =>
          rw [List.length_cons, takeIcons, found]
          exact (takeIcons_sublist _ _).countP_le
    rw [same] at rest
    exact absurd fewer (Nat.not_lt.mpr rest)
  · exact stripIcons_of_none

end Stages

section Clean

variable {text : Chars}

/-- The stages of `cleanText`, the first one first. -/
def cleanStages : List (Chars → Chars) :=
  [unwikiLink, replaceAll imageSyntax (Regex.group 1),
    replaceAll boldSyntax (Regex.group 1), replaceAll italicSyntax (Regex.group 1),
    replaceAll strikeSyntax (Regex.group 1),
    replaceAll highlightSyntax (Regex.group 1), replaceAll codeSyntax (Regex.group 1),
    replaceAll linkSyntax (Regex.group 1), replaceAll tagSyntax (Regex.group 1),
    replaceAll commentSyntax Regex.erase, replaceFirst hashesSyntax Regex.erase,
    replaceAll gapSyntax fun _ => [' '], trimChars]

theorem cleanText_eq (text : Chars) :
    cleanText text = cleanStages.foldl (fun text stage => stage text) text := by
  unfold cleanText cleanStages
  simp only [List.foldl_cons, List.foldl_nil]

theorem isWritten_of_eq {mark char : Char} (written : isWritten mark = true)
    (same : (char == mark) = true) : isWritten char = true :=
  beq_iff_eq.mp same ▸ written

theorem drops_between {mark : String} {first : Char} (other : Char)
    (begins : mark.toList.head? = some first) (written : isWritten first = true) :
    (between mark other).Drops (Regex.group 1) isWritten :=
  Regex.drops_between
    ((needs_literal begins).mono fun _ same => isWritten_of_eq written same)
    (keeps_literal mark)

theorem keeps_target : target.Keeps :=
  (keeps_literal "](").seq ((keeps_run _ _ _ _).seq (keeps_run _ _ _ _))

theorem drops_image : imageSyntax.Drops (Regex.group 1) isWritten :=
  Regex.drops_between
    ((needs_literal rfl).mono fun _ same => isWritten_of_eq rfl same)
    keeps_target

theorem drops_link : linkSyntax.Drops (Regex.group 1) isWritten :=
  Regex.drops_between ((needs_char '[').mono fun _ same => isWritten_of_eq rfl same) keeps_target

theorem drops_tag : tagSyntax.Drops (Regex.group 1) isWritten :=
  drops_after
    ((keeps_run _ _ _ _).seq ((keeps_run _ _ _ _).seq (keeps_run _ _ _ _)))
    ((needs_char '#').mono fun _ same => isWritten_of_eq rfl same).seq

theorem drops_comment : commentSyntax.Drops Regex.erase isWritten :=
  drops_erase ((needs_literal rfl).mono fun _ same => isWritten_of_eq rfl same).seq

theorem drops_hashes : hashesSyntax.Drops Regex.erase isWritten := by
  have written {char : Char} (same : (char == '#') = true) :
      isWritten char = true := isWritten_of_eq rfl same
  exact drops_erase (needs_run (le_refl 1) fun _ same => written same).seq.after

/-- Of two blanks and more, one is left. -/
theorem drops_gap : gapSyntax.Drops (fun _ => [' ']) isWritten := by
  intro atStart text step listed
  obtain ⟨-, each, long⟩ := run_spec listed
  cases taken : step.taken with
  | nil =>
      rw [taken] at long
      exact absurd long (by decide)
  | cons first rest =>
      cases rest with
      | nil =>
          rw [taken, List.length_singleton] at long
          exact absurd long (by decide)
      | cons second rest =>
          rw [taken, List.all_cons, List.all_cons, Bool.and_eq_true, Bool.and_eq_true] at each
          rw [beq_iff_eq.mp each.1, beq_iff_eq.mp each.2.1]
          refine ⟨(List.nil_sublist _).cons_cons ' ', ?_⟩
          have blank : isWritten ' ' = true := rfl
          simp only [List.countP_cons_of_pos blank, List.countP_nil]
          omega

/-- Of a link to a page, its target or its other name is left. -/
theorem drops_wikiLink :
    wikiLink.Drops (fun groups => (groups.lookup 2).getD (Regex.group 1 groups)) isWritten := by
  have heavy : (Regex.literal "[[").Needs isWritten :=
    (needs_literal rfl).mono fun _ same => isWritten_of_eq rfl same
  intro atStart text step listed
  obtain ⟨opening, inOpening, more⟩ := List.mem_flatMap.mp listed
  obtain ⟨rest, inRest, rfl⟩ := List.mem_map.mp more
  obtain ⟨page, inPage, last⟩ := List.mem_flatMap.mp inRest
  obtain ⟨further, inFurther, rfl⟩ := List.mem_map.mp last
  obtain ⟨label, inLabel, closes⟩ := List.mem_flatMap.mp inFurther
  obtain ⟨closing, inClosing, rfl⟩ := List.mem_map.mp closes
  obtain ⟨name, inName, rfl⟩ := List.mem_map.mp inPage
  have some := heavy.countP_pos inOpening
  have kept : closing.groups = label.groups := keeps_literal "]]" _ _ _ closing inClosing
  have written : ((label.groups.lookup 2).getD (Regex.group 1 label.groups)).Sublist
      (name.taken ++ label.taken) := by
    rcases List.mem_append.mp inLabel with named | unnamed
    · obtain ⟨bar, inBar, others⟩ := List.mem_flatMap.mp named
      obtain ⟨other, inOther, rfl⟩ := List.mem_map.mp others
      obtain ⟨inner, -, rfl⟩ := List.mem_map.mp inOther
      rw [List.lookup_cons_self, Option.getD_some]
      exact (List.sublist_append_right _ _).trans (List.sublist_append_right _ _)
    · have none : opening.groups = [] := keeps_literal "[[" _ _ _ opening inOpening
      have before : name.groups = opening.groups := keeps_run _ _ _ _ _ _ _ name inName
      have same : label.groups = (1, name.taken) :: name.groups :=
        keeps_run _ _ _ _ _ _ _ label unnamed
      rw [same, before, none]
      exact List.sublist_append_left _ _
  have fewer := written.countP_le (p := isWritten)
  simp only [kept]
  refine ⟨?_, ?_⟩
  · rw [← List.append_assoc name.taken]
    exact (written.trans (List.sublist_append_left _ _)).trans (List.sublist_append_right _ _)
  · simp only [List.countP_append] at fewer ⊢
    omega

/-- Every stage of cleaning only takes characters away. -/
theorem thins_cleanStages : ∀ stage ∈ cleanStages, Thins isWritten stage := by
  unfold cleanStages
  simp only [List.forall_mem_cons]
  exact ⟨thins_replaceAll drops_wikiLink, thins_replaceAll drops_image,
    thins_replaceAll (drops_between '*' rfl rfl),
    thins_replaceAll (drops_between '*' rfl rfl),
    thins_replaceAll (drops_between '~' rfl rfl),
    thins_replaceAll (drops_between '=' rfl rfl),
    thins_replaceAll (drops_between '\x60' rfl rfl),
    thins_replaceAll drops_link, thins_replaceAll drops_tag,
    thins_replaceAll drops_comment, thins_replaceFirst drops_hashes,
    thins_replaceAll drops_gap, thins_trimChars fun _ white => white_isWritten white,
    List.forall_mem_nil _⟩

/-- Cleaning leaves characters out. -/
theorem cleanText_sublist (text : Chars) : (cleanText text).Sublist text := by
  rw [cleanText_eq]
  exact foldl_sublist thins_cleanStages

/-- The stages of reading a text that was written. -/
def readStages : List (Chars → Chars) :=
  Ecma.trimEnd :: oneLine :: Ecma.trimEnd :: stripIcons :: (cleanStages ++ [trimChars])

theorem readText_eq (text : Chars) :
    readText text =
      if readStages.foldl (fun text stage => stage text) (escapeMarkdown text) = [] then
        "Untitled".toList
      else readStages.foldl (fun text stage => stage text) (escapeMarkdown text) := by
  unfold readText trimOr readStages
  rw [cleanText_eq]
  simp only [List.foldl_cons, List.foldl_append, List.foldl_nil]

theorem thins_readStages : ∀ stage ∈ readStages, Thins isWritten stage := by
  unfold readStages
  have white := fun char => @white_isWritten char
  have terminator : ∀ char, Ecma.isDot char = false → isWritten char = true := by
    intro char isEnd
    refine bne_iff_ne.mpr ?_
    rintro rfl
    exact absurd isEnd (by decide)
  simp only [List.forall_mem_cons, List.forall_mem_append]
  exact ⟨thins_trimEnd white, thins_oneLine terminator, thins_trimEnd white, thins_stripIcons,
    thins_cleanStages, thins_trimChars white, List.forall_mem_nil _⟩

theorem countP_escapeMarkdown (text : Chars) :
    (escapeMarkdown text).countP isWritten = text.countP isWritten := by
  rw [escapeMarkdown_eq]
  induction text with
  | nil => rfl
  | cons char text ih =>
      have backslash : isWritten '\\' = false := rfl
      rw [List.flatMap_cons, List.countP_append, ih, List.countP_cons, escapeChar, Nat.add_comm]
      split_ifs <;> simp [*]

/-- Nothing is written before a character exactly if all of them are plain. -/
theorem escapeMarkdown_eq_iff :
    escapeMarkdown text = text ↔ ∀ char ∈ text, char ≠ '\\' ∧ isMarkup char = false := by
  rw [escapeMarkdown_eq]
  constructor
  · intro same char inText
    by_contra special
    obtain ⟨front, back, rfl⟩ := List.append_of_mem inText
    have longer (text : Chars) : text.length ≤ (text.flatMap escapeChar).length := by
      induction text with
      | nil => exact le_refl _
      | cons first rest ih =>
          rw [List.flatMap_cons, List.length_append, List.length_cons, escapeChar]
          split_ifs <;> simp only [List.length_cons, List.length_nil] <;> omega
    have marked : escapeChar char = ['\\', char] := by
      refine if_pos ?_
      by_contra plain
      exact special ⟨fun isSlash => plain (.inl isSlash),
        Bool.eq_false_iff.mpr fun isMark => plain (.inr isMark)⟩
    have size := congrArg List.length same
    rw [List.flatMap_append, List.flatMap_cons, marked] at size
    simp only [List.length_append, List.length_cons, List.length_nil] at size
    have before := longer front
    have behind := longer back
    omega
  · intro plain
    induction text with
    | nil => rfl
    | cons char text ih =>
        obtain ⟨first, others⟩ := List.forall_mem_cons.mp plain
        rw [List.flatMap_cons, ih others, escapeChar, if_neg (by simp [first.1, first.2])]
        rfl

theorem test_of_absent {pattern : Regex} {needed : Char → Bool} (needs : pattern.Needs needed)
    (absent : ∀ char ∈ text, needed char = false) : Regex.test pattern text = false := by
  rw [Regex.test, find?_of_needs needs true absent]
  rfl

/-- A replacement of what needs a character that an export marks. -/
theorem replaceAll_of_plain {pattern : Regex} {write : Regex.Groups → Chars} {mark : Char}
    (needs : pattern.Needs (· == mark)) (isMark : isMarkup mark = true)
    (plain : ∀ char ∈ text, char ≠ '\\' ∧ isMarkup char = false) :
    replaceAll pattern write text = text := by
  refine replaceAll_of_find? (find?_of_needs needs true fun char inText => ?_)
  refine beq_eq_false_iff_ne.mpr ?_
  rintro rfl
  rw [(plain char inText).2] at isMark
  exact Bool.false_ne_true isMark

/-- The patterns that a text without marks may still match. -/
def openPatterns : List Regex :=
  [iconPrefix, strikeSyntax, highlightSyntax, tagSyntax, commentSyntax, hashesSyntax, gapSyntax]

/-- No stage of the reading changes a plain text in which no pattern is found. -/
theorem readStages_fixed_iff (trimmed : trimChars text = text) (nonempty : text ≠ [])
    (plain : ∀ char ∈ text, char ≠ '\\' ∧ isMarkup char = false) :
    (∀ stage ∈ readStages, stage text = text) ↔
      text.all Ecma.isDot = true ∧ ∀ pattern ∈ openPatterns, Regex.test pattern text = false := by
  have ends : Ecma.trimEnd text = text := trimEnd_of_ends (ends_of_trimChars trimmed nonempty)
  have dots : oneLine text = text ↔ text.all Ecma.isDot = true := by
    rw [oneLine, List.takeWhile_eq_self_iff, List.all_eq_true]
  have wiki : unwikiLink text = text :=
    replaceAll_of_plain (needs_literal rfl).seq (show isMarkup '[' = true from rfl) plain
  have image : replaceAll imageSyntax (Regex.group 1) text = text :=
    replaceAll_of_plain (needs_char '[').after.seq rfl plain
  have bold : replaceAll boldSyntax (Regex.group 1) text = text :=
    replaceAll_of_plain (needs_literal rfl).seq (show isMarkup '*' = true from rfl) plain
  have italic : replaceAll italicSyntax (Regex.group 1) text = text :=
    replaceAll_of_plain (needs_literal rfl).seq (show isMarkup '*' = true from rfl) plain
  have code : replaceAll codeSyntax (Regex.group 1) text = text :=
    replaceAll_of_plain (needs_literal rfl).seq (show isMarkup '\x60' = true from rfl) plain
  have link : replaceAll linkSyntax (Regex.group 1) text = text :=
    replaceAll_of_plain (needs_char '[').seq rfl plain
  have strike : replaceAll strikeSyntax (Regex.group 1) text = text ↔
      Regex.test strikeSyntax text = false := replaceAll_eq_iff (drops_between '~' rfl rfl)
  have highlight : replaceAll highlightSyntax (Regex.group 1) text = text ↔
      Regex.test highlightSyntax text = false :=
    replaceAll_eq_iff (drops_between '=' rfl rfl)
  unfold readStages cleanStages openPatterns
  simp only [List.cons_append, List.nil_append, List.forall_mem_cons, ends, dots, stripIcons_eq_iff,
    wiki, image, bold, italic, code, link, strike, highlight, replaceAll_eq_iff drops_tag,
    replaceAll_eq_iff drops_comment, replaceFirst_eq_iff drops_hashes,
    replaceAll_eq_iff drops_gap, trimmed, List.not_mem_nil, false_imp_iff, implies_true,
    and_true, true_and]

/-- A text survives if it has no mark, backslash or break and no pattern finds anything in
it. -/
theorem survives_iff : survives text = true ↔
    text ≠ [] ∧ (∀ char ∈ text, char ≠ '\\' ∧ isMarkup char = false) ∧
      text.all Ecma.isDot = true ∧ ∀ pattern ∈ openPatterns, Regex.test pattern text = false := by
  have each : (text.all fun char =>
        char != '\\' && !isMarkup char && Ecma.isDot char) = true ↔
      (∀ char ∈ text, char ≠ '\\' ∧ isMarkup char = false) ∧ text.all Ecma.isDot = true := by
    simp only [List.all_eq_true, Bool.and_eq_true, bne_iff_ne, Bool.not_eq_true', ne_eq]
    exact ⟨fun all => ⟨fun char inText => (all char inText).1,
      fun char inText => (all char inText).2⟩,
      fun both char inText => ⟨both.1 char inText, both.2 char inText⟩⟩
  have patterns : ([iconPrefix, strikeSyntax, highlightSyntax, tagSyntax, commentSyntax,
        hashesSyntax, gapSyntax].all fun pattern => !Regex.test pattern text) = true ↔
      ∀ pattern ∈ openPatterns, Regex.test pattern text = false := by
    simp only [List.all_eq_true, Bool.not_eq_true', openPatterns]
  rw [survives, Bool.and_eq_true, Bool.and_eq_true, decide_eq_true_eq, each, patterns]
  tauto

/-- A text is read as it is exactly if it survives. -/
theorem readText_eq_iff (trimmed : trimChars text = text) :
    readText text = text ↔ survives text = true := by
  rw [readText_eq, survives_iff]
  constructor
  · intro same
    by_cases none : readStages.foldl (fun text stage => stage text) (escapeMarkdown text) = []
    · -- the text would be the one for an empty text, which is read as it is
      rw [if_pos none] at same
      rw [← same] at none
      exact absurd none (by decide +kernel)
    · rw [if_neg none] at same
      have kept : (escapeMarkdown text).countP isWritten ≤
          (readStages.foldl (fun text stage => stage text) (escapeMarkdown text)).countP
            isWritten := by
        rw [same, countP_escapeMarkdown]
      have fixed := fixed_of_foldl thins_readStages kept
      have unmarked : escapeMarkdown text = text := (foldl_of_fixed fixed).symm.trans same
      rw [unmarked] at fixed none
      have nonempty : text ≠ [] := by
        rintro rfl
        exact none (foldl_of_fixed fixed)
      have plain := escapeMarkdown_eq_iff.mp unmarked
      exact ⟨nonempty, plain, (readStages_fixed_iff trimmed nonempty plain).mp fixed⟩
  · rintro ⟨nonempty, plain, quiet⟩
    have fixed := (readStages_fixed_iff trimmed nonempty plain).mpr quiet
    rw [escapeMarkdown_eq_iff.mpr plain, foldl_of_fixed fixed, if_neg nonempty]

end Clean

section Notes

variable {notes noteLine : Chars}

/-- The stages of reading a line of a note. -/
def noteStages : List (Chars → Chars) :=
  [Ecma.trimEnd, oneLine, replaceFirst calloutMark Regex.erase]

theorem drops_callout : calloutMark.Drops Regex.erase fun _ => true :=
  drops_erase ((needs_literal rfl).mono fun _ _ => rfl).seq.after

theorem thins_noteStages : ∀ stage ∈ noteStages, Thins (fun _ => true) stage := by
  unfold noteStages
  simp only [List.forall_mem_cons]
  exact ⟨thins_trimEnd fun _ _ => rfl, thins_oneLine fun _ _ => rfl,
    thins_replaceFirst drops_callout, List.forall_mem_nil _⟩

theorem readNote_eq (noteLine : Chars) :
    readNote noteLine = noteStages.foldl (fun text stage => stage text) noteLine := rfl

theorem readNote_sublist (noteLine : Chars) : (readNote noteLine).Sublist noteLine := by
  rw [readNote_eq]
  exact foldl_sublist thins_noteStages

/-- A line of notes survives if it is read as it is written. -/
theorem lineSurvives_iff :
    lineSurvives noteLine = true ↔ trimChars noteLine ≠ [] ∧ readNote noteLine = noteLine := by
  have fixed : readNote noteLine = noteLine ↔ ∀ stage ∈ noteStages, stage noteLine = noteLine := by
    rw [readNote_eq]
    constructor
    · intro same
      exact fixed_of_foldl thins_noteStages (le_of_eq (congrArg _ same.symm))
    · exact foldl_of_fixed
  have dots : oneLine noteLine = noteLine ↔ noteLine.all Ecma.isDot = true := by
    rw [oneLine, List.takeWhile_eq_self_iff, List.all_eq_true]
  rw [fixed, lineSurvives, noteStages]
  simp only [List.forall_mem_cons, List.not_mem_nil, false_imp_iff, implies_true, and_true, dots,
    replaceFirst_eq_iff drops_callout, Bool.and_eq_true, decide_eq_true_eq,
    Bool.not_eq_true', and_assoc]

theorem join_cons_cons (first second : Chars) (rest : List Chars) :
    join "\n" (first :: second :: rest) = first ++ '\n' :: join "\n" (second :: rest) := by
  unfold join
  rw [List.intercalate_cons_cons, List.append_assoc]
  rfl

/-- The lines that say something, below the notes that there are. -/
theorem foldl_addNote : ∀ (texts : List Chars) (notes : Chars),
    texts.foldl addNote notes =
      join "\n" ((if notes = [] then [] else [notes]) ++ texts.filter (trimChars · ≠ []))
  | [], notes => by
      unfold join
      split_ifs with none
      · rw [none]
        rfl
      · exact List.intercalate_singleton.symm
  | text :: texts, notes => by
      rw [List.foldl_cons, addNote]
      by_cases blank : trimChars text = []
      · rw [if_pos blank, foldl_addNote texts notes, List.filter_cons_of_neg (by simp [blank])]
      · have nonempty : text ≠ [] := by
          rintro rfl
          exact blank rfl
        rw [if_neg blank, List.filter_cons_of_pos (by simp [blank])]
        by_cases none : notes = []
        · rw [if_pos none, foldl_addNote texts text, if_neg nonempty, if_pos none]
          rfl
        · have longer : notes ++ '\n' :: text ≠ [] := by simp
          rw [if_neg none, foldl_addNote texts, if_neg longer, if_neg none]
          simp only [List.cons_append, List.nil_append]
          cases texts.filter (trimChars · ≠ []) with
          | nil =>
              rw [join_cons_cons]
              simp only [join, List.intercalate_singleton]
          | cons other others =>
              rw [join_cons_cons, join_cons_cons, join_cons_cons]
              simp only [List.append_assoc, List.cons_append]

/-- Notes are read as they are exactly if every line survives. -/
theorem readNotes_eq_iff (trimmed : trimChars notes = notes) :
    readNotes notes = notes ↔ notesSurvive notes = true := by
  rw [readNotes, notesSurvive, trimmed]
  by_cases none : notes = []
  · rw [if_pos none, none]
    exact iff_of_true rfl rfl
  · have lines : join "\n" (notes.splitOn '\n') = notes := List.intercalate_splitOn '\n'
    rw [if_neg none, foldl_addNote, if_pos rfl, List.nil_append, Bool.or_eq_true,
      decide_eq_true_eq, or_iff_right none, List.all_eq_true]
    constructor
    · intro same
      have clean : ∀ text ∈ ((notes.splitOn '\n').map readNote).filter (trimChars · ≠ []),
          '\n' ∉ text := by
        intro text listed inText
        obtain ⟨noteLine, inNotes, rfl⟩ := List.mem_map.mp (List.mem_of_mem_filter listed)
        exact Text.not_mem_of_mem_splitOn inNotes ((readNote_sublist noteLine).subset inText)
      have nonempty : ((notes.splitOn '\n').map readNote).filter (trimChars · ≠ []) ≠ [] := by
        intro empty
        rw [empty] at same
        exact none same.symm
      have whole := splitOn_join_of_forall nonempty clean
      rw [same] at whole
      have all : ∀ text ∈ (notes.splitOn '\n').map readNote, trimChars text ≠ [] := by
        have size := congrArg List.length whole
        have every := List.length_filter_eq_length_iff.mp (size.symm.trans (List.length_map _).symm)
        exact fun text listed => of_decide_eq_true (every text listed)
      rw [List.filter_eq_self.mpr fun text listed => decide_eq_true (all text listed)] at whole
      have each : ∀ noteLine ∈ notes.splitOn '\n', readNote noteLine = id noteLine :=
        List.map_inj_left.mp (whole.symm.trans (List.map_id _).symm)
      intro noteLine listed
      have said := all _ (List.mem_map_of_mem listed)
      rw [each noteLine listed] at said
      exact lineSurvives_iff.mpr ⟨said, each noteLine listed⟩
    · intro each
      have same : (notes.splitOn '\n').map readNote = notes.splitOn '\n' := by
        refine (List.map_congr_left fun noteLine listed => ?_).trans (List.map_id _)
        exact (lineSurvives_iff.mp (each noteLine listed)).2
      have all : ∀ noteLine ∈ notes.splitOn '\n',
          decide (trimChars noteLine ≠ []) = true :=
        fun noteLine listed => decide_eq_true (lineSurvives_iff.mp (each noteLine listed)).1
      rw [same, List.filter_eq_self.mpr all, lines]

end Notes

end Formats
end MindMapVault
