import ElfAnatomy.Proofs.JsonGrammar

/-!
# A reader of JSON documents

The reader takes a document character by character.  Its state is the stack of the lists and
objects that are open and what it reads at the moment; a character that cannot stand there ends
the reading without a result.

* `Json.Reader.step` : what the reader does with a character.
* `Json.Reader.accept_of_spells` : reading a spelling of a value, wherever a value may start, ends
  with this value on top of the same stack.
* `Json.read?_of_document` : **a document is read to its value.**  So no text is a document of two
  values (`Json.Document.unique`).
-/

namespace ElfAnatomy.Json

namespace Reader

/-! ### States and steps -/

/-- A list or an object that is open. -/
inductive Frame
  /-- A list and its items before the current one, the latest first. -/
  | list (items : List Json)
  /-- An object, its fields before the current one, the latest first, and the name of the current
  field. -/
  | object (fields : List (String × Json)) (name : String)

/-- What a quoted text is. -/
inductive Slot
  | value
  /-- The name of a field, after other fields, the latest first. -/
  | name (fields : List (String × Json))

/-- What is read at the moment. -/
inductive Mode
  /-- A value is about to start. -/
  | value
  /-- A list was opened; its first item or its end is about to come. -/
  | item
  /-- The name of a field is about to start.  Only the first may be missing. -/
  | name (fields : List (String × Json)) (first : Bool)
  | colon (fields : List (String × Json)) (name : String)
  /-- A value has ended. -/
  | ended (value : Json)
  | digits (n : Nat)
  /-- A word that stands for a value, with the characters of it that are still to come. -/
  | word (rest : List Char) (value : Json)
  /-- A quoted text with its characters so far, the latest first. -/
  | text (slot : Slot) (chars : List Char)
  /-- A quoted text right after a backslash. -/
  | escape (slot : Slot) (chars : List Char)
  /-- The number of a character in a quoted text, with its digits so far. -/
  | code (slot : Slot) (chars : List Char) (digits : List Char)

/-- A state of the reader. -/
structure State where
  frames : List Frame
  mode : Mode

/-- The first character of a value. -/
def start (frames : List Frame) (c : Char) : Option State :=
  if c = '"' then some ⟨frames, .text .value []⟩
  else if c = '[' then some ⟨frames, .item⟩
  else if c = '\x7b' then some ⟨frames, .name [] true⟩
  else if c = 't' then some ⟨frames, .word ['r', 'u', 'e'] (.bool true)⟩
  else if c = 'f' then some ⟨frames, .word ['a', 'l', 's', 'e'] (.bool false)⟩
  else if c.isDigit then some ⟨frames, .digits (c.toNat - 48)⟩
  else none

/-- A character after the end of a value. -/
def after (frames : List Frame) (value : Json) (c : Char) : Option State :=
  if isBlank c then some ⟨frames, .ended value⟩
  else match frames with
    | [] => none
    | .list items :: frames =>
      if c = ',' then some ⟨.list (value :: items) :: frames, .value⟩
      else if c = ']' then some ⟨frames, .ended (.arr (value :: items).reverse)⟩
      else none
    | .object fields name :: frames =>
      if c = ',' then some ⟨frames, .name ((name, value) :: fields) false⟩
      else if c = '\x7d' then some ⟨frames, .ended (.obj ((name, value) :: fields).reverse)⟩
      else none

/-- The state after a quoted text. -/
def afterText (frames : List Frame) (text : String) : Slot → State
  | .value => ⟨frames, .ended (.str text)⟩
  | .name fields => ⟨frames, .colon fields text⟩

/-- The character with a number. -/
def charOf? (n : Nat) : Option Char := if n.isValidChar then some (Char.ofNat n) else none

/-- What the reader does with a character. -/
def step : State → Char → Option State
  | ⟨frames, .value⟩, c => if isBlank c then some ⟨frames, .value⟩ else start frames c
  | ⟨frames, .item⟩, c =>
    if isBlank c then some ⟨frames, .item⟩
    else if c = ']' then some ⟨frames, .ended (.arr [])⟩
    else start (.list [] :: frames) c
  | ⟨frames, .name fields first⟩, c =>
    if isBlank c then some ⟨frames, .name fields first⟩
    else if c = '"' then some ⟨frames, .text (.name fields) []⟩
    else if c = '\x7d' ∧ first then some ⟨frames, .ended (.obj [])⟩
    else none
  | ⟨frames, .colon fields name⟩, c =>
    if isBlank c then some ⟨frames, .colon fields name⟩
    else if c = ':' then some ⟨.object fields name :: frames, .value⟩
    else none
  | ⟨frames, .ended value⟩, c => after frames value c
  | ⟨frames, .digits n⟩, c =>
    -- a number does not start with a zero, unless this is its only digit
    if c.isDigit then
      if n = 0 then none else some ⟨frames, .digits (10 * n + (c.toNat - 48))⟩
    else after frames (.nat n) c
  | ⟨frames, .word [] value⟩, c => after frames value c
  | ⟨frames, .word (d :: rest) value⟩, c => if c = d then some ⟨frames, .word rest value⟩ else none
  | ⟨frames, .text slot chars⟩, c =>
    if c = '"' then some (afterText frames (String.ofList chars.reverse) slot)
    else if c = '\\' then some ⟨frames, .escape slot chars⟩
    else if c.toNat < 0x20 then none
    else some ⟨frames, .text slot (c :: chars)⟩
  | ⟨frames, .escape slot chars⟩, c =>
    if c = 'u' then some ⟨frames, .code slot chars []⟩
    else (shortEscapes.lookup c).map fun d => ⟨frames, .text slot (d :: chars)⟩
  | ⟨frames, .code slot chars digits⟩, c =>
    if digits.length < 3 then some ⟨frames, .code slot chars (digits ++ [c])⟩
    else ((Hex.value? (digits ++ [c])).bind charOf?).map fun d => ⟨frames, .text slot (d :: chars)⟩

/-- The value of a document that ends here. -/
def finish : State → Option Json
  | ⟨[], .ended value⟩ => some value
  | ⟨[], .digits n⟩ => some (.nat n)
  | ⟨[], .word [] value⟩ => some value
  | _ => none

/-- The value of a document of which these characters are left. -/
def accept : State → List Char → Option Json
  | s, [] => finish s
  | s, c :: cs => (step s c).bind fun s' => accept s' cs

end Reader

/-- The value of a document. -/
def read? (text : String) : Option Json := Reader.accept ⟨[], .value⟩ text.toList

namespace Reader

variable {s s' : State} {fs : List Frame} {bs cs t : List Char} {c : Char}

theorem accept_cons (h : step s c = some s') : accept s (c :: t) = accept s' t := by
  rw [accept, h, Option.bind_some]

/-! ### Blanks -/

/-- Blanks do not change the state. -/
def Skips (s : State) : Prop := ∀ c, isBlank c = true → step s c = some s

theorem accept_of_skips (hs : Skips s) (hb : Blanks bs) (t : List Char) :
    accept s (bs ++ t) = accept s t := by
  induction bs with
  | nil => rfl
  | cons c bs ih =>
    have hrest : Blanks bs := fun d hd => hb d (List.mem_cons_of_mem c hd)
    rw [List.cons_append, accept_cons (hs c (hb c List.mem_cons_self)), ih hrest]

theorem skips_value : Skips ⟨fs, .value⟩ := fun c hc => by rw [step, if_pos hc]

theorem skips_item : Skips ⟨fs, .item⟩ := fun c hc => by rw [step, if_pos hc]

theorem skips_name {fields : List (String × Json)} {first : Bool} :
    Skips ⟨fs, .name fields first⟩ := fun c hc => by rw [step, if_pos hc]

theorem skips_colon {fields : List (String × Json)} {name : String} :
    Skips ⟨fs, .colon fields name⟩ := fun c hc => by rw [step, if_pos hc]

theorem skips_ended {value : Json} : Skips ⟨fs, .ended value⟩ :=
  fun c hc => by simp only [step, after, hc, if_true]

/-! ### Quoted texts -/

theorem charOf?_toNat (c : Char) : charOf? c.toNat = some c := by
  have hvalid : c.toNat.isValidChar := c.valid
  rw [charOf?, if_pos hvalid, Char.ofNat_toNat]

theorem accept_of_spellsChar {slot : Slot} {chars : List Char} (h : SpellsChar cs c) :
    accept ⟨fs, .text slot chars⟩ (cs ++ t) = accept ⟨fs, .text slot (c :: chars)⟩ t := by
  cases h with
  | plain _ hcontrol hquote hslash =>
    apply accept_cons
    rw [step, if_neg hquote, if_neg hslash, if_neg (Nat.not_lt.2 hcontrol)]
  | short e _ hlookup =>
    have hnone : shortEscapes.lookup 'u' = none := by decide
    have hcode : e ≠ 'u' := by
      rintro rfl
      exact nomatch hnone.symm.trans hlookup
    have hslash : step ⟨fs, .text slot chars⟩ '\\' = some ⟨fs, .escape slot chars⟩ := rfl
    rw [List.cons_append, accept_cons hslash]
    apply accept_cons
    rw [step, if_neg hcode, hlookup, Option.map_some]
  | code digits _ hfour hvalue =>
    obtain ⟨a, b, d, e, rfl⟩ : ∃ a b d e, digits = [a, b, d, e] := by
      match digits, hfour with
      | [a, b, d, e], _ => exact ⟨a, b, d, e, rfl⟩
    have hslash : step ⟨fs, .text slot chars⟩ '\\' = some ⟨fs, .escape slot chars⟩ := rfl
    have hcode : step ⟨fs, .escape slot chars⟩ 'u' = some ⟨fs, .code slot chars []⟩ := rfl
    have hfirst : step ⟨fs, .code slot chars []⟩ a = some ⟨fs, .code slot chars [a]⟩ := rfl
    have hsecond : step ⟨fs, .code slot chars [a]⟩ b = some ⟨fs, .code slot chars [a, b]⟩ := rfl
    have hthird : step ⟨fs, .code slot chars [a, b]⟩ d = some ⟨fs, .code slot chars [a, b, d]⟩ :=
      rfl
    simp only [List.cons_append, List.nil_append]
    rw [accept_cons hslash, accept_cons hcode, accept_cons hfirst, accept_cons hsecond,
      accept_cons hthird]
    apply accept_cons
    have hlast : [a, b, d] ++ [e] = [a, b, d, e] := rfl
    rw [step, if_neg (by simp), hlast, hvalue, Option.bind_some,
      charOf?_toNat, Option.map_some]

theorem accept_of_spellsChars {slot : Slot} {chars text : List Char} (h : SpellsChars cs text) :
    accept ⟨fs, .text slot chars⟩ (cs ++ t) = accept ⟨fs, .text slot (text.reverse ++ chars)⟩ t := by
  induction h generalizing chars with
  | nil => rfl
  | cons hc _ ih =>
    rw [List.append_assoc, accept_of_spellsChar hc, ih, List.reverse_cons, List.append_assoc,
      List.singleton_append]

/-- A quoted text is read up to its closing quote. -/
theorem accept_of_spellsText {slot : Slot} {text : String} (h : SpellsText cs text)
    (hs : step s '"' = some ⟨fs, .text slot []⟩) :
    accept s (cs ++ t) = accept (afterText fs text slot) t := by
  obtain ⟨_, hchars⟩ := h
  simp only [List.cons_append, List.append_assoc, List.nil_append]
  rw [accept_cons hs, accept_of_spellsChars hchars]
  apply accept_cons
  rw [step, if_pos rfl, List.append_nil, List.reverse_reverse, String.ofList_toList]

/-! ### The start and the end of a value -/

/-- A value may start here, over these frames. -/
def Starts (s : State) (fs : List Frame) : Prop :=
  ∀ c, isBlank c = false → c ≠ ']' → step s c = start fs c

theorem starts_value : Starts ⟨fs, .value⟩ fs := by
  intro c hc _
  rw [step, if_neg (by simp [hc])]

theorem starts_item : Starts ⟨fs, .item⟩ (.list [] :: fs) := by
  intro c hc hne
  rw [step, if_neg (by simp [hc]), if_neg hne]

/-- What is left does not continue a number. -/
def NoDigit (t : List Char) : Prop := ∀ c ∈ t.head?, c.isDigit = false

theorem not_isDigit_of_isBlank (hc : isBlank c = true) : c.isDigit = false := by
  simp only [isBlank, Bool.or_eq_true, beq_iff_eq] at hc
  obtain ((rfl | rfl) | rfl) | rfl := hc <;> rfl

theorem noDigit_cons (hc : c.isDigit = false) : NoDigit (c :: t) := by
  intro d hd
  cases hd
  exact hc

theorem NoDigit.append (hb : Blanks bs) (ht : NoDigit t) : NoDigit (bs ++ t) := by
  cases bs with
  | nil => exact ht
  | cons c bs => exact noDigit_cons (not_isDigit_of_isBlank (hb c List.mem_cons_self))

theorem noDigit_items {items : List Json} (h : SpellsItems cs items) :
    NoDigit (cs ++ ']' :: t) := by
  cases h with
  | nil hb => exact .append hb (noDigit_cons rfl)
  | cons hb =>
    simp only [List.append_assoc, List.cons_append]
    exact .append hb (noDigit_cons rfl)

theorem noDigit_fields {fields : List (String × Json)} (h : SpellsFields cs fields) :
    NoDigit (cs ++ '\x7d' :: t) := by
  cases h with
  | nil hb => exact .append hb (noDigit_cons rfl)
  | cons hb =>
    simp only [List.append_assoc, List.cons_append]
    exact .append hb (noDigit_cons rfl)

/-! ### Words and numbers -/

theorem accept_word {value : Json} (word : List Char) :
    accept ⟨fs, .word word value⟩ (word ++ t) = accept ⟨fs, .ended value⟩ t := by
  induction word with
  | nil => cases t <;> cases fs <;> rfl
  | cons c word ih =>
    have hstep : step ⟨fs, .word (c :: word) value⟩ c = some ⟨fs, .word word value⟩ := by
      rw [step, if_pos rfl]
    rw [List.cons_append, accept_cons hstep, ih]

/-- What starting a number does with a digit. -/
theorem digitChar_spec (fs : List Frame) {d : Nat} (hd : d < 10) :
    isBlank d.digitChar = false ∧ d.digitChar ≠ ']' ∧ d.digitChar.isDigit = true ∧
      d.digitChar.toNat - 48 = d ∧ start fs d.digitChar = some ⟨fs, .digits d⟩ := by
  have hall : ∀ d < 10, isBlank d.digitChar = false ∧ d.digitChar ≠ ']' ∧
      d.digitChar.isDigit = true ∧ d.digitChar.toNat - 48 = d ∧
      d.digitChar ∉ ['"', '[', '\x7b', 't', 'f'] := by decide
  obtain ⟨hblank, hclose, hdigit, hvalue, hother⟩ := hall d hd
  simp only [List.mem_cons, List.not_mem_nil, or_false, not_or] at hother
  refine ⟨hblank, hclose, hdigit, hvalue, ?_⟩
  simp only [start, hother, hdigit, hvalue, if_false, if_true]

theorem accept_toDigits (hs : Starts s fs) (n : Nat) (t : List Char) :
    accept s (Nat.toDigits 10 n ++ t) = accept ⟨fs, .digits n⟩ t := by
  induction n using Nat.base_induction 10 (by decide) generalizing t with
  | single m hm =>
    obtain ⟨hblank, hclose, -, -, hstart⟩ := digitChar_spec fs hm
    rw [Nat.toDigits_of_lt_base hm]
    exact accept_cons ((hs _ hblank hclose).trans hstart)
  | digit m k hk hm ih =>
    obtain ⟨-, -, hdigit, hvalue, -⟩ := digitChar_spec fs hk
    rw [← Nat.toDigits_append_toDigits (by decide) hm hk, Nat.toDigits_of_lt_base hk,
      List.append_assoc, ih]
    apply accept_cons
    rw [step, if_pos hdigit, if_neg (Nat.pos_iff_ne_zero.1 hm), hvalue]

theorem accept_digits (n : Nat) (ht : NoDigit t) :
    accept ⟨fs, .digits n⟩ t = accept ⟨fs, .ended (.nat n)⟩ t := by
  cases t with
  | nil => cases fs <;> rfl
  | cons c t =>
    have hc : ¬ c.isDigit = true := by simp [ht c rfl]
    simp only [accept, step, if_neg hc]

/-! ### Values -/

mutual

/-- **Reading a spelling of a value ends with this value.** -/
theorem accept_of_spells {value : Json} {s : State} {fs : List Frame} {cs t : List Char} :
    Spells cs value → Starts s fs → NoDigit t →
      accept s (cs ++ t) = accept ⟨fs, .ended value⟩ t
  | .bool true, hs, _ => by
    rw [← accept_word ['r', 'u', 'e']]
    exact accept_cons ((hs 't' rfl (by decide)).trans rfl)
  | .bool false, hs, _ => by
    rw [← accept_word ['a', 'l', 's', 'e']]
    exact accept_cons ((hs 'f' rfl (by decide)).trans rfl)
  | .nat n, hs, ht => by
    rw [accept_toDigits hs, accept_digits n ht]
  | .str htext, hs, _ =>
    accept_of_spellsText htext ((hs '"' rfl (by decide)).trans rfl)
  | .noItems hb, hs, _ => by
    have hopen : step s '[' = some ⟨fs, .item⟩ := (hs '[' rfl (by decide)).trans rfl
    simp only [List.cons_append, List.append_assoc, List.nil_append]
    rw [accept_cons hopen, accept_of_skips skips_item hb]
    exact accept_cons rfl
  | .items hb h hmore, hs, _ => by
    have hopen : step s '[' = some ⟨fs, .item⟩ := (hs '[' rfl (by decide)).trans rfl
    simp only [List.cons_append, List.append_assoc, List.nil_append]
    rw [accept_cons hopen, accept_of_skips skips_item hb,
      accept_of_spells h starts_item (noDigit_items hmore), accept_of_spellsItems hmore]
    rfl
  | .noFields hb, hs, _ => by
    have hopen : step s '\x7b' = some ⟨fs, .name [] true⟩ :=
      (hs '\x7b' rfl (by decide)).trans rfl
    simp only [List.cons_append, List.append_assoc, List.nil_append]
    rw [accept_cons hopen, accept_of_skips skips_name hb]
    exact accept_cons rfl
  | .fields hb h hmore, hs, _ => by
    have hopen : step s '\x7b' = some ⟨fs, .name [] true⟩ :=
      (hs '\x7b' rfl (by decide)).trans rfl
    simp only [List.cons_append, List.append_assoc, List.nil_append]
    rw [accept_cons hopen, accept_of_skips skips_name hb,
      accept_of_spellsField h (noDigit_fields hmore), accept_of_spellsFields hmore]
    rfl

/-- The further items of a list are read up to its closing bracket. -/
theorem accept_of_spellsItems {last : Json} {items read : List Json} {fs : List Frame}
    {cs t : List Char} :
    SpellsItems cs items →
      accept ⟨.list read :: fs, .ended last⟩ (cs ++ ']' :: t) =
        accept ⟨fs, .ended (.arr ((last :: read).reverse ++ items))⟩ t
  | .nil hb => by
    rw [accept_of_skips skips_ended hb, List.append_nil]
    exact accept_cons rfl
  | .cons hb hb' h hmore => by
    have hcomma : step ⟨.list read :: fs, .ended last⟩ ',' =
      some ⟨.list (last :: read) :: fs, .value⟩ := rfl
    simp only [List.cons_append, List.append_assoc]
    rw [accept_of_skips skips_ended hb, accept_cons hcomma, accept_of_skips skips_value hb',
      accept_of_spells h starts_value (noDigit_items hmore), accept_of_spellsItems hmore]
    simp only [List.reverse_cons, List.append_assoc, List.cons_append, List.nil_append]

/-- A field is read to its value on top of its name. -/
theorem accept_of_spellsField {field : String × Json} {fields : List (String × Json)}
    {first : Bool} {fs : List Frame} {cs t : List Char} :
    SpellsField cs field → NoDigit t →
      accept ⟨fs, .name fields first⟩ (cs ++ t) =
        accept ⟨.object fields field.1 :: fs, .ended field.2⟩ t
  | .pair hname hb hb' h, ht => by
    have hquote : step ⟨fs, .name fields first⟩ '"' = some ⟨fs, .text (.name fields) []⟩ := rfl
    have hcolon : ∀ name,
        step ⟨fs, .colon fields name⟩ ':' = some ⟨.object fields name :: fs, .value⟩ := fun _ => rfl
    simp only [List.cons_append, List.append_assoc]
    rw [accept_of_spellsText hname hquote, afterText,
      accept_of_skips skips_colon hb, accept_cons (hcolon _), accept_of_skips skips_value hb',
      accept_of_spells h starts_value ht]

/-- The further fields of an object are read up to its closing brace. -/
theorem accept_of_spellsFields {last : String × Json} {fields read : List (String × Json)}
    {fs : List Frame} {cs t : List Char} :
    SpellsFields cs fields →
      accept ⟨.object read last.1 :: fs, .ended last.2⟩ (cs ++ '\x7d' :: t) =
        accept ⟨fs, .ended (.obj ((last :: read).reverse ++ fields))⟩ t
  | .nil hb => by
    rw [accept_of_skips skips_ended hb, List.append_nil]
    exact accept_cons rfl
  | .cons hb hb' h hmore => by
    have hcomma : step ⟨.object read last.1 :: fs, .ended last.2⟩ ',' =
      some ⟨fs, .name (last :: read) false⟩ := rfl
    simp only [List.cons_append, List.append_assoc]
    rw [accept_of_skips skips_ended hb, accept_cons hcomma, accept_of_skips skips_name hb',
      accept_of_spellsField h (noDigit_fields hmore), accept_of_spellsFields hmore]
    simp only [List.reverse_cons, List.append_assoc, List.cons_append, List.nil_append]

end

end Reader

/-- **A document is read to its value.** -/
theorem read?_of_document {text : String} {value : Json} (h : Document text value) :
    read? text = some value := by
  obtain @⟨bs, cs, bs', hb, h, hb', htext⟩ := h
  have hend : Reader.NoDigit (bs' ++ []) := .append hb' nofun
  have hsplit : text.toList = bs ++ (cs ++ (bs' ++ [])) := by
    rw [htext, List.append_nil, List.append_assoc]
  rw [read?, hsplit, Reader.accept_of_skips Reader.skips_value hb,
    Reader.accept_of_spells h Reader.starts_value hend,
    Reader.accept_of_skips Reader.skips_ended hb']
  rfl

/-- No text is a document of two values. -/
theorem Document.unique {text : String} {value value' : Json} (h : Document text value)
    (h' : Document text value') : value = value' :=
  Option.some.inj ((read?_of_document h).symm.trans (read?_of_document h'))

end ElfAnatomy.Json
