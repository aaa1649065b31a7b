/-!
# JSON documents

A JSON value with truth values, natural numbers, texts, lists and objects whose fields keep their
order.  `Json.pretty` writes it over several lines, two blanks deeper at each level.

In a text, the quote, the backslash and the control characters below U+0020 are escaped; every
other character stands for itself.

Other writers may set a document differently; `ElfAnatomy.Proofs.JsonGrammar` has the law that each
of them has to obey.
-/

namespace ElfAnatomy

/-- A JSON value. -/
inductive Json
  | bool (value : Bool)
  | nat (value : Nat)
  | str (text : String)
  | arr (items : List Json)
  | obj (fields : List (String × Json))

namespace Json

/-- A character inside a quoted text. -/
def escape (c : Char) : List Char :=
  if c = '"' then ['\\', '"']
  else if c = '\\' then ['\\', '\\']
  else if c = '\x08' then ['\\', 'b']
  else if c = '\x09' then ['\\', 't']
  else if c = '\x0a' then ['\\', 'n']
  else if c = '\x0c' then ['\\', 'f']
  else if c = '\x0d' then ['\\', 'r']
  else if c.toNat < 0x20 then
    ['\\', 'u', '0', '0', Nat.digitChar (c.toNat / 16), Nat.digitChar (c.toNat % 16)]
  else [c]

/-- A quoted text. -/
def quote (text : String) : List Char := '"' :: text.toList.flatMap escape ++ ['"']

/-- A line end, and the blanks that start a line of some depth. -/
def newLine (depth : Nat) : List Char := '\n' :: List.replicate (2 * depth) ' '

/-- The colon between the name of a field and its value. -/
def colon : List Char := [':', ' ']

mutual

/-- The text of a value that starts on a line of some depth. -/
def write (depth : Nat) : Json → List Char
  | bool value => (if value then "true" else "false").toList
  | nat value => Nat.toDigits 10 value
  | str text => quote text
  | arr [] => ['[', ']']
  | arr (item :: items) =>
    '[' :: newLine (depth + 1) ++ write (depth + 1) item ++ writeItems (depth + 1) items
      ++ newLine depth ++ [']']
  | obj [] => ['\x7b', '\x7d']
  | obj ((name, value) :: fields) =>
    '\x7b' :: newLine (depth + 1) ++ quote name ++ colon ++ write (depth + 1) value
      ++ writeFields (depth + 1) fields ++ newLine depth ++ ['\x7d']

/-- The further items of a list. -/
def writeItems (depth : Nat) : List Json → List Char
  | [] => []
  | item :: items => ',' :: newLine depth ++ write depth item ++ writeItems depth items

/-- The further fields of an object. -/
def writeFields (depth : Nat) : List (String × Json) → List Char
  | [] => []
  | (name, value) :: fields =>
    ',' :: newLine depth ++ quote name ++ colon ++ write depth value ++ writeFields depth fields

end

/-- The text of a document. -/
def pretty (document : Json) : String := String.ofList (write 0 document)

end Json

end ElfAnatomy
