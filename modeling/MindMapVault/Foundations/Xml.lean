import MindMapVault.Foundations.Text

/-!
# XML documents

Markup as it is written, and the nodes it stands for: references are the characters they
name, line breaks are normalised, and white space in an attribute is written as blanks. A
parser conforms if it gives every document its nodes, and reports an error where a character
is none that a document can hold.
-/

namespace Xml

/-- The code of a character that a document can hold. -/
def isCharCode (code : Nat) : Bool :=
  code == 9 || code == 10 || code == 13 || (32 ≤ code && code ≤ 0xD7FF) ||
    (0xE000 ≤ code && code ≤ 0xFFFD) || (0x10000 ≤ code && code ≤ 0x10FFFF)

def isChar (char : Char) : Bool := isCharCode char.toNat

/-- A text as a parser reads it, with one character for each line break. -/
def breaksFrom : Bool → List Char → List Char
  | _, [] => []
  | afterReturn, char :: text =>
      if char = '\n' ∧ afterReturn = true then breaksFrom false text
      else (if char = '\r' then '\n' else char) :: breaksFrom (char == '\r') text

def normalizeBreaks (text : List Char) : List Char := breaksFrom false text

/-- The value of a digit. -/
def digitValue (digit : Char) : Option Nat :=
  let code := digit.toNat
  if 48 ≤ code ∧ code ≤ 57 then some (code - 48)
  else if 97 ≤ code ∧ code ≤ 102 then some (code - 87)
  else if 65 ≤ code ∧ code ≤ 70 then some (code - 55)
  else none

/-- The value of digits in a base. -/
def numeral (base : Nat) (digits : List Char) : Option Nat :=
  digits.foldlM (fun value digit => do
    let next ← digitValue digit
    if next < base then some (base * value + next) else none) 0

/-- The character with a code. -/
def ofCode (code : Nat) : Option Char :=
  if isCharCode code = true then some (Char.ofNat code) else none

/-- The entities that every document has. -/
def predefined : List (List Char × Char) :=
  [("amp".toList, '&'), ("lt".toList, '<'), ("gt".toList, '>'), ("quot".toList, '"'),
    ("apos".toList, '\'')]

/-- The character that a reference names. -/
def referenced : List Char → Option Char
  | [] => none
  | mark :: name =>
      if mark = '#' then
        match name with
        | [] => none
        | first :: digits =>
            if first = 'x' then
              if digits = [] then none else (numeral 16 digits).bind ofCode
            else (numeral 10 (first :: digits)).bind ofCode
      else predefined.lookup (mark :: name)

/-- A text with its references expanded, from outside of a reference or with the part of
its name that is read. Other characters are changed as the place demands. -/
def expandFrom (space : Char → Char) : Option (List Char) → List Char → Option (List Char)
  | none, [] => some []
  | some _, [] => none
  | none, char :: text =>
      if char = '&' then expandFrom space (some []) text
      else if isChar char = true then
        (expandFrom space none text).map (space char :: ·)
      else none
  | some name, char :: text =>
      if char = ';' then do
        let named ← referenced name
        (expandFrom space none text).map (named :: ·)
      else expandFrom space (some (name ++ [char])) text

/-- White space in an attribute is a blank. -/
def blank (char : Char) : Char := if char = '\t' ∨ char = '\n' ∨ char = '\r' then ' ' else char

/-- The value of an attribute, of what stands between its quotes. -/
def attributeValue (raw : List Char) : Option (List Char) :=
  expandFrom blank none (normalizeBreaks raw)

/-- The data of a text between tags. -/
def characterData (raw : List Char) : Option (List Char) := expandFrom id none (normalizeBreaks raw)

/-- The data of a section or of a comment. -/
def sectionData (raw : List Char) : Option (List Char) :=
  if raw.all isChar = true then some (normalizeBreaks raw) else none

/-- A node of a document. -/
inductive Node
  | text (data : List Char)
  | cdata (data : List Char)
  | comment (data : List Char)
  | element (tagName : String) (attributes : List (String × List Char)) (childNodes : List Node)

/-- What is written: the raw text between tags or in quotes. -/
inductive Markup
  | text (raw : List Char)
  | cdata (raw : List Char)
  | comment (raw : List Char)
  | element (tagName : String) (attributes : List (String × List Char)) (content : List Markup)

/-- An attribute as it is written in a tag. -/
def renderAttribute (field : String × List Char) : List Char :=
  ' ' :: (field.1.toList ++ '=' :: '"' :: (field.2 ++ ['"']))

/-- The marks around comments and sections. -/
def commentStart : List Char := ['<', '!', '-', '-']
def commentEnd : List Char := ['-', '-', '>']
def sectionStart : List Char := ['<', '!', '[', 'C', 'D', 'A', 'T', 'A', '[']
def sectionEnd : List Char := [']', ']', '>']

/-- A section, a comment and an element as they are written. -/
def cdataText (raw : List Char) : List Char := sectionStart ++ (raw ++ sectionEnd)
def commentText (raw : List Char) : List Char := commentStart ++ (raw ++ commentEnd)
def elementText (tagName : String) (attributes : List (String × List Char))
    (content : List Char) : List Char :=
  '<' :: (tagName.toList ++ (attributes.flatMap renderAttribute ++
    if content.isEmpty then ['/', '>']
    else '>' :: (content ++ '<' :: '/' :: (tagName.toList ++ ['>']))))

namespace Markup

mutual

/-- The text of markup. -/
def render : Markup → List Char
  | .text raw => raw
  | .cdata raw => cdataText raw
  | .comment raw => commentText raw
  | .element tagName attributes content => elementText tagName attributes (renderAll content)

def renderAll : List Markup → List Char
  | [] => []
  | item :: items => item.render ++ renderAll items

end

/-- The attributes of an element with their values. -/
def attributeValues : List (String × List Char) → Option (List (String × List Char))
  | [] => some []
  | (name, raw) :: attributes => do
      let value ← attributeValue raw
      (attributeValues attributes).map ((name, value) :: ·)

mutual

/-- The node that markup stands for, if it holds nothing but characters of documents. -/
def node : Markup → Option Node
  | .text raw => (characterData raw).map .text
  | .cdata raw => (sectionData raw).map .cdata
  | .comment raw => (sectionData raw).map .comment
  | .element tagName attributes content => do
      let values ← attributeValues attributes
      (nodes content).map (.element tagName values)

def nodes : List Markup → Option (List Node)
  | [] => some []
  | item :: items => do
      let first ← item.node
      (nodes items).map (first :: ·)

end

/-- Whether it is text between tags. -/
def isText : Markup → Bool
  | .text _ => true
  | _ => false

/-- The names of tags and attributes. -/
def isLetter (char : Char) : Bool := ('A' ≤ char && char ≤ 'Z') || ('a' ≤ char && char ≤ 'z')

def IsName (name : String) : Prop := name ≠ "" ∧ name.toList.all isLetter = true

instance (name : String) : Decidable (IsName name) := inferInstanceAs (Decidable (_ ∧ _))

/-- An attribute whose text ends with its quote. -/
structure AttributeGrammar (field : String × List Char) : Prop where
  name : IsName field.1
  noQuote : '"' ∉ field.2
  noTag : '<' ∉ field.2

instance (field : String × List Char) : Decidable (AttributeGrammar field) :=
  decidable_of_iff (IsName field.1 ∧ '"' ∉ field.2 ∧ '<' ∉ field.2)
    ⟨fun ⟨name, noQuote, noTag⟩ => ⟨name, noQuote, noTag⟩,
      fun grammar => ⟨grammar.name, grammar.noQuote, grammar.noTag⟩⟩

/-- The end of a section is not in the text. -/
def NoEnd (raw : List Char) : Prop := ¬sectionEnd <:+: raw

mutual

/-- Markup as it may be written, with letters for names and no dash in a comment. -/
def Grammar : Markup → Prop
  | .text raw => raw ≠ [] ∧ '<' ∉ raw ∧ NoEnd raw
  | .cdata raw => NoEnd raw
  | .comment raw => '-' ∉ raw
  | .element tagName attributes content =>
      IsName tagName ∧ (attributes.map Prod.fst).Nodup ∧
        (∀ field ∈ attributes, AttributeGrammar field) ∧ GrammarAll content

/-- The same for what stands in an element: texts do not follow each other. -/
def GrammarAll : List Markup → Prop
  | [] => True
  | item :: items =>
      item.Grammar ∧ (item.isText = true → items.head?.any isText = false) ∧ GrammarAll items

end

end Markup

/-- The declaration that a document may begin with. -/
def declaration : List Char := '<' :: '?' :: "xml version=\"1.0\" encoding=\"UTF-8\"?>".toList

/-- What a document is read over outside of its root. -/
def isBlank (char : Char) : Bool := char == ' ' || char == '\t' || char == '\n' || char == '\r'

/-- A document: a declaration or none, blanks, its root, and blanks. -/
structure Document where
  declared : Bool
  before : List Char
  root : Markup
  after : List Char

namespace Document

def render (document : Document) : List Char :=
  (if document.declared then declaration else []) ++
    (document.before ++ (document.root.render ++ document.after))

structure Grammar (document : Document) : Prop where
  root : ∃ tagName attributes content, document.root = .element tagName attributes content
  markup : document.root.Grammar
  before : document.before.all isBlank = true
  after : document.after.all isBlank = true

end Document

namespace Node

/-- The name of an element. -/
def tagName? : Node → Option String
  | .element tagName _ _ => some tagName
  | _ => none

def childNodes : Node → List Node
  | .element _ _ childNodes => childNodes
  | _ => []

/-- `getAttribute`. -/
def getAttribute (node : Node) (name : String) : Option (List Char) :=
  match node with
  | .element _ attributes _ => attributes.lookup name
  | _ => none

/-- `children`. -/
def children (node : Node) : List Node := node.childNodes.filter (·.tagName?.isSome)

mutual

/-- A node and the nodes below it, in the order of the document. -/
def inclusive : Node → List Node
  | .element tagName attributes childNodes =>
      .element tagName attributes childNodes :: descendants childNodes
  | node => [node]

def descendants : List Node → List Node
  | [] => []
  | node :: nodes => inclusive node ++ descendants nodes

end

/-- `querySelector` with the name of an element. -/
def querySelector (node : Node) (name : String) : Option Node :=
  (descendants node.childNodes).find? (·.tagName? == some name)

mutual

/-- `textContent` of an element, to which comments add nothing. -/
def textContent : Node → List Char
  | .text data | .cdata data => data
  | .comment _ => []
  | .element _ _ childNodes => contents childNodes

def contents : List Node → List Char
  | [] => []
  | node :: nodes => textContent node ++ contents nodes

end

/-- A character of a text when it is written again. -/
def serializedChar (char : Char) : List Char :=
  if char = '&' then "&amp;".toList
  else if char = '<' then "&lt;".toList
  else if char = '>' then "&gt;".toList
  else [char]

/-- A character of an attribute when it is written again. -/
def serializedAttributeChar (char : Char) : List Char :=
  if char = '"' then "&quot;".toList
  else if char = '\t' then "&#9;".toList
  else if char = '\n' then "&#10;".toList
  else if char = '\r' then "&#13;".toList
  else serializedChar char

mutual

/-- A node as it is written again. -/
def serialize : Node → List Char
  | .text data => data.flatMap serializedChar
  | .cdata data => cdataText data
  | .comment data => commentText data
  | .element tagName attributes childNodes =>
      elementText tagName
        (attributes.map fun field => (field.1, field.2.flatMap serializedAttributeChar))
        (serializeAll childNodes)

def serializeAll : List Node → List Char
  | [] => []
  | node :: nodes => serialize node ++ serializeAll nodes

end

/-- `innerHTML`. -/
def innerHTML (node : Node) : List Char := serializeAll node.childNodes

end Node

/-- `querySelector` of a document with the name of an element. -/
def querySelector (root : Node) (name : String) : Option Node :=
  root.inclusive.find? (·.tagName? == some name)

/-- What is relied on of a parser: a document is read as its nodes, and one that holds
another character as a document with an error in it. -/
structure Conforms (parseFromString : List Char → Node) : Prop where
  accepts : ∀ document node, Document.Grammar document → document.root.node = some node →
    parseFromString document.render = node
  rejects : ∀ document, Document.Grammar document → document.root.node = none →
    (querySelector (parseFromString document.render) "parsererror").isSome = true

end Xml
