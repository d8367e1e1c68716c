import MindMapVault.AppError
import MindMapVault.Foundations.Text

/-!
# Version ids and the keys of version objects

A version id reaches the object store as the last segment of a key. This module
is the boundary: how an id is normalised, which ids are accepted, and the key a
version lives at. An accepted id is already in normal form, while one pass of
normalisation does not always reach a normal form.
-/

namespace MindMapVault
namespace Vault

/-- `char::is_whitespace`, the Unicode `White_Space` property. -/
def isWhitespace (char : Char) : Bool :=
  let code := char.toNat
  (9 ≤ code && code ≤ 13) || code == 32 || code == 0x85 || code == 0xA0 ||
    code == 0x1680 || (0x2000 ≤ code && code ≤ 0x200A) || code == 0x2028 ||
    code == 0x2029 || code == 0x202F || code == 0x205F || code == 0x3000

/-- `str::trim`. -/
def trim (text : String) : String := Text.trimMatches isWhitespace text

/-- Strip the white space around an id and then the quotes around what is left. -/
def normalizeVersionId (versionId : String) : String := Text.trimMatches (· == '"') (trim versionId)

/-- The characters a version id may be made of. -/
def versionIdCharacter (char : Char) : Bool :=
  char.isAlphanum || char == '.' || char == '-' || char == '_'

/-- `str::contains("..")` on the characters of a string. -/
def containsDotDot : List Char → Bool
  | '.' :: '.' :: _ => true
  | _ :: rest => containsDotDot rest
  | [] => false

/-- Check that a version id is safe to put into an object key. -/
def validateVersionId (versionId : String) : Except AppError String :=
  let versionId := normalizeVersionId versionId
  if versionId = "" then
    .error (.badRequest "version_id is required")
  else if 128 < versionId.utf8ByteSize then
    .error (.badRequest "version_id is too long")
  else if !versionId.toList.all versionIdCharacter then
    .error (.badRequest s!"invalid version id '{versionId}'")
  else if containsDotDot versionId.toList then
    .error (.badRequest s!"invalid version id '{versionId}'")
  else
    .ok versionId

/-- The object key holding one stored version of a blob. -/
def versionKey (objectKey versionId : String) : String := objectKey ++ "/v/" ++ versionId

/-- Distinct versions of one vault never share a key. -/
theorem versionKey_injective (objectKey : String) :
    Function.Injective (versionKey objectKey) := by
  intro left right equal
  exact (String.append_right_inj _).mp equal

@[simp] theorem versionKey_inj {objectKey left right : String} :
    versionKey objectKey left = versionKey objectKey right ↔ left = right :=
  (versionKey_injective objectKey).eq_iff

/-- A version key is never the bare key of its own vault. -/
theorem versionKey_ne_objectKey (objectKey versionId : String) :
    versionKey objectKey versionId ≠ objectKey := by
  intro equal
  have lengths := congrArg String.length equal
  have segment : "/v/".length = 3 := by decide
  simp only [versionKey, String.length_append] at lengths
  omega

/-- The code points of an ASCII letter or digit. -/
theorem isAlphanum_toNat {char : Char} (alphanumeric : char.isAlphanum = true) :
    (48 ≤ char.toNat ∧ char.toNat ≤ 57) ∨
      (65 ≤ char.toNat ∧ char.toNat ≤ 90) ∨ (97 ≤ char.toNat ∧ char.toNat ≤ 122) := by
  delta Char.isAlphanum Char.isAlpha Char.isUpper Char.isLower Char.isDigit at alphanumeric
  simp only [Bool.or_eq_true, Bool.and_eq_true, decide_eq_true_eq,
    UInt32.le_iff_toNat_le, ge_iff_le] at alphanumeric
  change ((65 ≤ char.toNat ∧ char.toNat ≤ 90) ∨
    (97 ≤ char.toNat ∧ char.toNat ≤ 122)) ∨ (48 ≤ char.toNat ∧ char.toNat ≤ 57) at alphanumeric
  omega

theorem isWhitespace_of_versionIdCharacter
    {char : Char} (accepted : versionIdCharacter char = true) :
    isWhitespace char = false := by
  simp only [versionIdCharacter, Bool.or_eq_true, beq_iff_eq] at accepted
  rcases accepted with ((alphanumeric | rfl) | rfl) | rfl
  · have codes := isAlphanum_toNat alphanumeric
    simp only [isWhitespace, Bool.or_eq_false_iff, Bool.and_eq_false_iff,
      decide_eq_false_iff_not, beq_eq_false_iff_ne]
    omega
  · decide
  · decide
  · decide

theorem ne_quote_of_versionIdCharacter {char : Char} (accepted : versionIdCharacter char = true) :
    (char == '"') = false := by
  rw [beq_eq_false_iff_ne]
  rintro rfl
  exact absurd accepted (by decide)

/-- A string of version id characters is its own normal form. -/
theorem normalizeVersionId_eq_self_of_forall {versionId : String}
    (accepted : ∀ char ∈ versionId.toList, versionIdCharacter char = true) :
    normalizeVersionId versionId = versionId := by
  have trimmed : trim versionId = versionId :=
    Text.trimMatches_eq_self_of_forall fun char present =>
      isWhitespace_of_versionIdCharacter (accepted char present)
  rw [normalizeVersionId, trimmed]
  exact Text.trimMatches_eq_self_of_forall fun char present =>
    ne_quote_of_versionIdCharacter (accepted char present)

/-- An accepted id, in the form it is stored in. -/
def ValidVersionId (versionId : String) : Prop :=
  versionId ≠ "" ∧ versionId.utf8ByteSize ≤ 128 ∧
    versionId.toList.all versionIdCharacter = true ∧ containsDotDot versionId.toList = false

instance (versionId : String) : Decidable (ValidVersionId versionId) :=
  inferInstanceAs (Decidable (_ ∧ _ ∧ _ ∧ _))

/-- Validation accepts exactly the ids whose normal form is valid, and answers
with that form. -/
theorem validateVersionId_eq_ok {given accepted : String} :
    validateVersionId given = .ok accepted ↔
      normalizeVersionId given = accepted ∧ ValidVersionId accepted := by
  constructor
  · intro validated
    simp only [validateVersionId] at validated
    by_cases empty : normalizeVersionId given = ""
    · simp [empty] at validated
    by_cases long : 128 < (normalizeVersionId given).utf8ByteSize
    · simp [empty, long] at validated
    by_cases chars : (normalizeVersionId given).toList.all versionIdCharacter = true
    · by_cases dots : containsDotDot (normalizeVersionId given).toList = true
      · simp only [empty, long, chars, dots, if_false, if_true,
          Bool.not_true, Bool.false_eq_true, reduceCtorEq] at validated
      · simp only [empty, long, chars, dots, if_false,
          Bool.not_true, Bool.false_eq_true, Except.ok.injEq] at validated
        subst validated
        exact ⟨rfl, empty, Nat.not_lt.mp long, chars, Bool.not_eq_true _ ▸ dots⟩
    · simp only [empty, long, chars, if_false, if_true, Bool.not_false, reduceCtorEq] at validated
  · rintro ⟨rfl, nonempty, short, chars, noDots⟩
    simp [validateVersionId, nonempty, Nat.not_lt.mpr short, chars, noDots]

/-- A valid id is its own normal form. -/
theorem ValidVersionId.normalize {versionId : String} (valid : ValidVersionId versionId) :
    normalizeVersionId versionId = versionId :=
  normalizeVersionId_eq_self_of_forall (by simpa using valid.2.2.1)

/-- A valid id is accepted unchanged. -/
theorem ValidVersionId.validate {versionId : String} (valid : ValidVersionId versionId) :
    validateVersionId versionId = .ok versionId :=
  validateVersionId_eq_ok.mpr ⟨valid.normalize, valid⟩

/-- One pass of normalisation can leave white space that a second pass strips. -/
example : normalizeVersionId "\" v-1\"" = " v-1" ∧
    normalizeVersionId (normalizeVersionId "\" v-1\"") = "v-1" := by decide

end Vault
end MindMapVault
