import MindMapVault.Accounts.Invites

/-!
# Retyped invite codes

An invite code is read aloud and typed again, so what is typed is brought back to one
form: the letters and digits of it decide, whatever stands between them, and the prefix
may be left out. No letter of the prefix's last place is ever drawn, so the start of a
code is not mistaken for it.
-/

namespace MindMapVault
namespace Accounts

/-- `CODE_ALPHABET`. -/
def codeAlphabet : List Char := "ACDEFGHJKMNPQRTWXY34679".toList

/-- `generate_invite_code`, of the places in the alphabet that were drawn. -/
def generateInviteCode (genRange : Fin 4 → Fin 4 → Fin codeAlphabet.length) : String :=
  let groups := (List.finRange 4).map fun group =>
    String.ofList ((List.finRange 4).map fun place =>
      codeAlphabet.get (genRange group place))
  "MMV-" ++ "-".intercalate groups

/-- The letters and digits of a text, in upper case. -/
def spelling (text : String) : List Char := (text.toList.filter Char.isAlphanum).map Char.toUpper

/-- The letters and digits a code begins with. -/
def codePrefix : List Char := ['M', 'M', 'V']

/-- A spelling without the prefix. -/
def codeBody (letters : List Char) : List Char :=
  if codePrefix.isPrefixOf letters then letters.drop 3 else letters

/-- Sixteen letters and digits as a code. -/
def formatCode (body : List Char) : String :=
  let groups := (List.range 4).map fun group =>
    String.ofList ((body.drop (4 * group)).take 4)
  "MMV-" ++ "-".intercalate groups

/-- The letters and digits of a code that was drawn. -/
def drawnBody (genRange : Fin 4 → Fin 4 → Fin codeAlphabet.length) : List Char :=
  (List.finRange 4).flatMap fun group =>
    (List.finRange 4).map fun place => codeAlphabet.get (genRange group place)

/-! ### Spellings -/

/-- A letter or digit as a spelling has it. -/
def IsSpelled (letter : Char) : Prop := letter.isAlphanum = true ∧ letter.toUpper = letter

instance (letter : Char) : Decidable (IsSpelled letter) :=
  inferInstanceAs (Decidable (_ ∧ _))

/-- The letters and digits are among the first characters. -/
theorem toNat_lt_of_isAlphanum {letter : Char} (isLetter : letter.isAlphanum = true) :
    letter.toNat < 128 := by
  rcases (Bool.or_eq_true _ _).mp isLetter with isAlpha | isDigit
  · rcases (Bool.or_eq_true _ _).mp isAlpha with isUpper | isLower
    · have le := (of_decide_eq_true isUpper).2
      exact Nat.lt_of_le_of_lt (UInt32.le_iff_toNat_le.mp le) (by decide)
    · have le := of_decide_eq_true ((Bool.and_eq_true _ _).mp isLower).2
      exact Nat.lt_of_le_of_lt (UInt32.le_iff_toNat_le.mp le) (by decide)
  · have le := of_decide_eq_true ((Bool.and_eq_true _ _).mp isDigit).2
    exact Nat.lt_of_le_of_lt (UInt32.le_iff_toNat_le.mp le) (by decide)

/-- Upper case is again a letter or digit, and stays as it is. -/
theorem isSpelled_toUpper {letter : Char} (isLetter : letter.isAlphanum = true) :
    IsSpelled letter.toUpper := by
  have all : ∀ code < 128, (Char.ofNat code).isAlphanum = true →
      IsSpelled (Char.ofNat code).toUpper := by
    decide
  have self := all letter.toNat (toNat_lt_of_isAlphanum isLetter)
  rw [Char.ofNat_toNat] at self
  exact self isLetter

theorem isSpelled_of_mem_spelling {text : String} {letter : Char}
    (present : letter ∈ spelling text) : IsSpelled letter := by
  obtain ⟨typed, isTyped, rfl⟩ := List.mem_map.mp present
  exact isSpelled_toUpper (List.mem_filter.mp isTyped).2

/-- What is spelled already is its own spelling. -/
theorem spelling_of_isSpelled
    {letters : List Char} (spelled : ∀ letter ∈ letters, IsSpelled letter) :
    spelling (String.ofList letters) = letters := by
  rw [spelling, String.toList_ofList,
    List.filter_eq_self.mpr fun letter present => (spelled letter present).1]
  exact List.map_congr_left (fun letter present => (spelled letter present).2)
    |>.trans (List.map_id letters)

/-- The groups of a code, with a dash before each. -/
theorem toList_formatCode (body : List Char) :
    (formatCode body).toList =
      codePrefix ++ '-' :: body.take 4 ++ '-' :: (body.drop 4).take 4 ++
        '-' :: (body.drop 8).take 4 ++ '-' :: (body.drop 12).take 4 := by
  have groups : List.range 4 = [0, 1, 2, 3] := rfl
  have start : "MMV-".toList = codePrefix ++ ['-'] := rfl
  have dash : "-".toList = ['-'] := rfl
  simp only [formatCode, groups, List.map_cons, List.map_nil, String.toList_append,
    String.toList_intercalate, String.toList_ofList, start, dash]
  simp [List.intercalate]

/-- Sixteen letters are four groups of four. -/
theorem eq_groups {body : List Char} (length : body.length = 16) :
    body = body.take 4 ++ ((body.drop 4).take 4 ++
      ((body.drop 8).take 4 ++ (body.drop 12).take 4)) := by
  have split : ∀ start, (body.drop start).take 4 ++ body.drop (start + 4) =
      body.drop start := by
    intro start
    rw [← List.drop_drop]
    exact List.take_append_drop 4 (body.drop start)
  have last : (body.drop 12).take 4 = body.drop 12 := List.take_of_length_le (by simp [length])
  rw [last, split 8, split 4]
  exact (List.take_append_drop 4 body).symm

/-- The dashes are not spelled. -/
theorem spelling_formatCode {body : List Char} (length : body.length = 16)
    (spelled : ∀ letter ∈ body, IsSpelled letter) :
    spelling (formatCode body) = codePrefix ++ body := by
  have kept : ∀ group, group ⊆ body → group.filter Char.isAlphanum = group :=
    fun group within => List.filter_eq_self.mpr fun letter present =>
      (spelled letter (within present)).1
  have firsts : ∀ start, (body.drop start).take 4 ⊆ body := fun start =>
    List.Subset.trans (List.take_subset 4 _) (List.drop_subset start body)
  have letters : (formatCode body).toList.filter Char.isAlphanum = codePrefix ++ body := by
    have dash : ('-').isAlphanum = false := rfl
    have codePrefixKept : codePrefix.filter Char.isAlphanum = codePrefix := rfl
    rw [toList_formatCode]
    simp only [List.filter_append, List.filter_cons, dash, Bool.false_eq_true, if_false,
      codePrefixKept, kept _ (firsts _), kept _ (List.take_subset 4 body),
      List.append_assoc]
    rw [← eq_groups length]
  have upper : ∀ letter ∈ codePrefix ++ body, letter.toUpper = letter := by
    intro letter present
    rcases List.mem_append.mp present with start | rest
    · have high : (codePrefix.all fun letter => letter.toUpper == letter) = true := rfl
      exact beq_iff_eq.mp (List.all_eq_true.mp high letter start)
    · exact (spelled letter rest).2
  rw [spelling, letters]
  exact (List.map_congr_left upper).trans (List.map_id _)

/-! ### One form -/

theorem normalizeInviteCode_eq (raw : String) :
    normalizeInviteCode raw =
      if (codeBody (spelling raw)).length ≠ 16 then String.ofList (spelling raw)
      else formatCode (codeBody (spelling raw)) := rfl

theorem codeBody_append (body : List Char) : codeBody (codePrefix ++ body) = body := rfl

theorem isSpelled_of_mem_codeBody {text : String} {letter : Char}
    (present : letter ∈ codeBody (spelling text)) : IsSpelled letter := by
  unfold codeBody at present
  split_ifs at present
  · exact isSpelled_of_mem_spelling (List.drop_subset 3 _ present)
  · exact isSpelled_of_mem_spelling present

/-- What was brought to its form stays as it is. -/
theorem normalizeInviteCode_idempotent (raw : String) :
    normalizeInviteCode (normalizeInviteCode raw) = normalizeInviteCode raw := by
  by_cases length : (codeBody (spelling raw)).length = 16
  · have form : normalizeInviteCode raw = formatCode (codeBody (spelling raw)) := by
      rw [normalizeInviteCode_eq, if_neg (not_not.mpr length)]
    have again := spelling_formatCode length fun _ => isSpelled_of_mem_codeBody
    rw [form, normalizeInviteCode_eq, again, codeBody_append, if_neg (not_not.mpr length)]
  · have form : normalizeInviteCode raw = String.ofList (spelling raw) := by
      rw [normalizeInviteCode_eq, if_pos length]
    have spelled : ∀ letter ∈ spelling raw, IsSpelled letter := fun _ =>
      isSpelled_of_mem_spelling
    have again := spelling_of_isSpelled spelled
    rw [form, normalizeInviteCode_eq, again, if_pos length]

/-! ### Codes that were drawn -/

section Drawn

variable (genRange : Fin 4 → Fin 4 → Fin codeAlphabet.length)

theorem length_drawnBody : (drawnBody genRange).length = 16 := rfl

theorem generateInviteCode_eq : generateInviteCode genRange = formatCode (drawnBody genRange) := rfl

theorem mem_codeAlphabet_of_mem_drawnBody
    (letter : Char) (drawn : letter ∈ drawnBody genRange) : letter ∈ codeAlphabet := by
  obtain ⟨group, _, inGroup⟩ := List.mem_flatMap.mp drawn
  obtain ⟨place, _, rfl⟩ := List.mem_map.mp inGroup
  exact List.get_mem codeAlphabet (genRange group place)

theorem isSpelled_of_mem_drawnBody
    {letter : Char} (drawn : letter ∈ drawnBody genRange) : IsSpelled letter := by
  have spelled : (codeAlphabet.all fun letter => decide (IsSpelled letter)) = true := rfl
  have known := mem_codeAlphabet_of_mem_drawnBody genRange letter drawn
  exact of_decide_eq_true (List.all_eq_true.mp spelled letter known)

/-- A code that was drawn does not go on with the prefix once more. -/
theorem codeBody_drawnBody : codeBody (drawnBody genRange) = drawnBody genRange := by
  have letters := mem_codeAlphabet_of_mem_drawnBody genRange
  generalize drawnBody genRange = body at letters ⊢
  unfold codeBody
  refine if_neg fun begins => ?_
  obtain ⟨rest, rfl⟩ := List.isPrefixOf_iff_prefix.mp begins
  have last : 'V' ∈ codePrefix ++ rest := List.mem_append_left rest (by decide)
  exact absurd (letters 'V' last) (by decide)

theorem spelling_generateInviteCode :
    spelling (generateInviteCode genRange) = codePrefix ++ drawnBody genRange := by
  rw [generateInviteCode_eq]
  exact spelling_formatCode (length_drawnBody genRange) fun _ => isSpelled_of_mem_drawnBody genRange

end Drawn

/-- The text spells the letters and digits of the code, with or without the prefix. -/
def Spells (raw code : String) : Prop :=
  spelling raw = spelling code ∨ codePrefix ++ spelling raw = spelling code

/-- A text is brought to the form of a code where it spells it, and only there. -/
theorem normalizeInviteCode_eq_iff
    (genRange : Fin 4 → Fin 4 → Fin codeAlphabet.length) (raw : String) :
    normalizeInviteCode raw = generateInviteCode genRange ↔
      Spells raw (generateInviteCode genRange) := by
  have spells : Spells raw (generateInviteCode genRange) ↔
      codeBody (spelling raw) = drawnBody genRange := by
    rw [Spells, spelling_generateInviteCode, List.append_cancel_left_eq]
    constructor
    · rintro (whole | body)
      · rw [whole, codeBody_append]
      · rw [body, codeBody_drawnBody]
    · intro body
      unfold codeBody at body
      split_ifs at body with begins
      · obtain ⟨rest, split⟩ := List.isPrefixOf_iff_prefix.mp begins
        rw [← split] at body ⊢
        exact .inl (congrArg _ body)
      · exact .inr body
  rw [spells, generateInviteCode_eq]
  constructor
  · intro form
    by_cases length : (codeBody (spelling raw)).length = 16
    · rw [normalizeInviteCode_eq, if_neg (not_not.mpr length)] at form
      have letters := congrArg spelling form
      rw [spelling_formatCode length fun _ => isSpelled_of_mem_codeBody,
        ← generateInviteCode_eq, spelling_generateInviteCode] at letters
      exact List.append_cancel_left letters
    · -- What is handed back as it was spelled has no dashes.
      rw [normalizeInviteCode_eq, if_pos length] at form
      have dash : '-' ∈ spelling raw := by
        rw [← String.toList_ofList (l := spelling raw), form, toList_formatCode]
        simp
      exact absurd (isSpelled_of_mem_spelling dash) (by decide)
  · intro body
    rw [normalizeInviteCode_eq, body, if_neg (not_not.mpr (length_drawnBody genRange))]

/-- A code that was generated is what a text is brought to exactly where the text spells
its letters and digits, the prefix or not; so no text stands for two codes. And a text
brought to its form stays as it is. -/
theorem retyped_codes :
    (∀ (genRange : Fin 4 → Fin 4 → Fin codeAlphabet.length) (raw : String),
      normalizeInviteCode raw = generateInviteCode genRange ↔
        Spells raw (generateInviteCode genRange)) ∧
    (∀ (genRange genRange' : Fin 4 → Fin 4 → Fin codeAlphabet.length) (raw : String),
      Spells raw (generateInviteCode genRange) →
      Spells raw (generateInviteCode genRange') →
        generateInviteCode genRange = generateInviteCode genRange') ∧
    ∀ raw, normalizeInviteCode (normalizeInviteCode raw) = normalizeInviteCode raw :=
  ⟨normalizeInviteCode_eq_iff,
    fun genRange genRange' raw spells spells' =>
      ((normalizeInviteCode_eq_iff genRange raw).mpr spells).symm.trans
        ((normalizeInviteCode_eq_iff genRange' raw).mpr spells'),
    normalizeInviteCode_idempotent⟩

end Accounts
end MindMapVault
