import MindMapVault.Foundations.Json

/-!
# JSON values as text

The text a script prints of a value, on one line or indented.
-/

namespace Json

/-- A character between quotes. -/
def escaped (char : Char) : String :=
  match char.toNat with
  | 34 => "\\\""
  | 92 => "\\\\"
  | 8 => "\\b"
  | 9 => "\\t"
  | 10 => "\\n"
  | 12 => "\\f"
  | 13 => "\\r"
  | code =>
      if code < 32 then
        "\\u00" ++ String.ofList [Nat.digitChar (code / 16), Nat.digitChar (code % 16)]
      else
        char.toString

/-- A text between quotes. -/
def quoted (text : String) : String := "\"" ++ String.join (text.toList.map escaped) ++ "\""

/-- Items between brackets, each on a line of its own if lines are indented. -/
def bracketed (opening closing : String) (indent depth : Nat) (items : List String) : String :=
  let newline (levels : Nat) : String :=
    if indent = 0 then "" else "\n" ++ String.ofList (List.replicate (indent * levels) ' ')
  if items.isEmpty then
    opening ++ closing
  else
    opening ++ newline (depth + 1) ++ ("," ++ newline (depth + 1)).intercalate items ++
      newline depth ++ closing

mutual

/-- The text of a value that stands at some depth. -/
def print (indent depth : Nat) : Json → String
  | .null => "null"
  | .bool value => toString value
  | .number text => text
  | .string text => quoted text
  | .array items => bracketed "[" "]" indent depth (printItems indent (depth + 1) items)
  | .object fields =>
      bracketed "\x7b" "\x7d" indent depth (printFields indent (depth + 1) fields)

/-- The texts of the items of an array. -/
def printItems (indent depth : Nat) : List Json → List String
  | [] => []
  | item :: items => print indent depth item :: printItems indent depth items

/-- The texts of the properties of an object. -/
def printFields (indent depth : Nat) : List (String × Json) → List String
  | [] => []
  | (name, value) :: fields =>
      (quoted name ++ (if indent = 0 then ":" else ": ") ++ print indent depth value) ::
        printFields indent depth fields

end

/-- `JSON.stringify(value, null, indent)`. -/
def stringify (value : Json) (indent : Nat) : String := print indent 0 value

example :
    stringify (.object [("a", .array [.null, .number "1"]), ("b\n", .object [])]) 0 =
      "\x7b\"a\":[null,1],\"b\\n\":\x7b\x7d\x7d" := by
  decide +kernel

end Json
