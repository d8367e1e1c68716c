import Mathlib.Data.List.Basic

/-!
# JSON values as a document column holds them

Values, the existence and concatenation operators a database offers on them, and
property access as a script sees it. A number is kept as the text it prints.
-/

/-- A JSON value. -/
inductive Json
  | null
  | bool (value : Bool)
  | number (text : String)
  | string (text : String)
  | array (items : List Json)
  | object (fields : List (String × Json))

namespace Json

/-- The value of a top-level property; only objects have any. -/
def get? : Json → String → Option Json
  | .object fields, key => fields.lookup key
  | _, _ => none

/-- The `?` operator: the key exists in an object, as a string element of an
array, or is the string itself. -/
def hasKey : Json → String → Bool
  | .object fields, key => (fields.lookup key).isSome
  | .array items, key => items.any fun item =>
      match item with
      | .string text => text == key
      | _ => false
  | .string text, key => text == key
  | _, _ => false

/-- A value as the array the `||` operator makes of it. -/
def toItems : Json → List Json
  | .array items => items
  | other => [other]

/-- The `||` operator: objects are merged, the second one winning; everything
else is joined as arrays. -/
def concat : Json → Json → Json
  | .object first, .object second =>
      .object (second ++ first.filter fun field =>
        (second.lookup field.1).isNone)
  | first, second => .array (first.toItems ++ second.toItems)

/-- Whether the value is a JSON object. -/
def isObject : Json → Bool
  | .object _ => true
  | _ => false

/-- Whether a script takes the value for true. -/
def truthy : Json → Bool
  | .null => false
  | .bool value => value
  | .number text => text != "0"
  | .string text => text != ""
  | .array _ | .object _ => true

mutual

/-- The value as text, as a script converts it. -/
def toText : Json → String
  | .null => "null"
  | .bool value => toString value
  | .number text => text
  | .string text => text
  | .array items => ",".intercalate (itemTexts items)
  | .object _ => "[object Object]"

/-- The texts of the items of an array, in which null is empty. -/
def itemTexts : List Json → List String
  | [] => []
  | .null :: items => "" :: itemTexts items
  | item :: items => toText item :: itemTexts items

end

theorem lookup_filter_of_isNone {second first : List (String × Json)} {key : String}
    (absent : second.lookup key = none) :
    (first.filter fun field => (second.lookup field.1).isNone).lookup key = first.lookup key := by
  induction first with
  | nil => rfl
  | cons field rest ih =>
      obtain ⟨name, value⟩ := field
      by_cases same : key = name
      · subst same
        simp [absent]
      · have differs : (key == name) = false := beq_eq_false_iff_ne.mpr same
        by_cases kept : (second.lookup name).isNone = true
        · simp only [List.filter_cons, kept, if_true, List.lookup_cons, differs]
          exact ih
        · simp only [List.filter_cons, kept, Bool.false_eq_true, if_false,
            List.lookup_cons, differs]
          exact ih

/-- Merging objects gives an object. -/
theorem isObject_concat {first second : Json}
    (firstObject : first.isObject = true) (secondObject : second.isObject = true) :
    (first.concat second).isObject = true := by
  cases first <;> cases second <;> simp_all [isObject, concat]

/-- Merging objects overrides exactly the keys of the second. -/
theorem get?_concat {first second : Json}
    (firstObject : first.isObject = true) (secondObject : second.isObject = true) (key : String) :
    (first.concat second).get? key = (second.get? key).or (first.get? key) := by
  cases first with
  | object first =>
      cases second with
      | object second =>
          simp only [concat, get?]
          rw [List.lookup_append]
          cases absent : second.lookup key with
          | none => rw [lookup_filter_of_isNone absent]
          | some value => rfl
      | _ => cases secondObject
  | _ => cases firstObject

/-! ### Objects whose properties may be missing -/

/-- The properties that have a value. -/
def properties (entries : List (String × Option Json)) : List (String × Json) :=
  entries.filterMap fun entry => entry.2.map (entry.1, ·)

variable {entries : List (String × Option Json)}

theorem map_fst_properties_sublist :
    ((properties entries).map Prod.fst).Sublist (entries.map Prod.fst) := by
  induction entries with
  | nil => exact List.Sublist.refl _
  | cons entry entries ih =>
      obtain ⟨name, value⟩ := entry
      cases value with
      | none => exact ih.cons name
      | some value => exact ih.cons_cons name

/-- Where no name comes twice, a property is found by its name. -/
theorem lookup_properties (distinct : (entries.map Prod.fst).Nodup) (name : String) :
    (properties entries).lookup name = (entries.lookup name).join := by
  induction entries with
  | nil => rfl
  | cons entry entries ih =>
      obtain ⟨first, value⟩ := entry
      obtain ⟨fresh, distinct⟩ := List.nodup_cons.mp distinct
      have later := ih distinct
      cases value with
      | none =>
          rw [List.lookup_cons]
          by_cases same : name = first
          · subst same
            have absent : entries.lookup name = none := by
              refine List.lookup_eq_none_iff.mpr fun entry listed => bne_iff_ne.mpr fun same => ?_
              exact fresh (List.mem_map.mpr ⟨entry, listed, same.symm⟩)
            rw [beq_self_eq_true]
            exact later.trans (by rw [absent]; rfl)
          · rw [beq_eq_false_iff_ne.mpr same]
            exact later
      | some value =>
          change List.lookup name ((first, value) :: properties entries) = _
          rw [List.lookup_cons, List.lookup_cons]
          cases name == first with
          | true => rfl
          | false => exact later

end Json
