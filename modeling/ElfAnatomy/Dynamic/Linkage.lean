import ElfAnatomy.Dynamic.Entry
import ElfAnatomy.Section.Reading

/-!
# Dynamic linkage

What the dynamic section says about other files: the libraries that are needed, the name of the
file itself, and where to search.  The strings stand in a table that the section gives by its
address in memory, so the table is found through the section headers.

* `Linkage.readEntries` : the entries, up to the first null entry.
* `Linkage.readStrings` : the string table they refer to.
* `Linkage.read` : everything together.
-/

namespace ElfAnatomy

/-- What the dynamic section says. -/
structure Linkage where
  /-- The entries, up to and including the first null entry. -/
  entries : List DynamicEntry := []
  /-- The names of needed libraries, one per entry, in order. -/
  needed : List String := []
  /-- The name of the shared object, from the last entry that gives one. -/
  soname : Option String := none
  rpath : Option String := none
  runpath : Option String := none
deriving DecidableEq, Repr

namespace Linkage

/-- The first section with dynamic entries, with its index. -/
def section? (sections : List SectionHeader) : Option (Nat × SectionHeader) :=
  firstOfType? sections SectionType.dynamic

/-- The size of an entry. -/
def entrySize : UInt64 := 16

/-- The entries of a dynamic section.  A declared entry size of zero says nothing. -/
def readEntries (order : ByteOrder) (s : SectionHeader) : Plan (List DynamicEntry) := do
  let declared := if s.entsize = 0 then entrySize else s.entsize
  require (declared = entrySize) (.layoutMismatch .dynamicEntry entrySize declared)
  require (s.size % entrySize = 0) (.truncatedTable s.offset s.size (← Plan.length))
  let entries ← Plan.table DynamicEntry order s.offset (s.size / entrySize) declared
  return DynamicEntry.upToNull entries

/-- The value of the first entry with a tag. -/
def valueOf? (entries : List DynamicEntry) (tag : DynamicTag) : Option UInt64 :=
  (entries.find? fun e => e.tag == tag).map DynamicEntry.value

/-- The string table of the entries: from their address on, and no longer than they say. -/
def readStrings (sections : List SectionHeader) (entries : List DynamicEntry) :
    Plan StringTable :=
  match valueOf? entries .strTab with
  | none => .done (.error (.unresolvedStringTable none))
  | some addr =>
    match locateAddress? sections addr with
    | none => .done (.error (.unresolvedStringTable (some addr)))
    | some place => do
      let bytes ← place.header.contents
      return StringTable.window ⟨bytes⟩ place.offset.toNat
        ((valueOf? entries .strSz).map UInt64.toNat)

/-- The strings that entries name, each with the tag of its entry. -/
def resolveAll (strings : StringTable) (entries : List DynamicEntry) :
    Except DecodeError (List (DynamicTag × String)) :=
  (entries.filter fun e => e.tag.namesString).mapM fun e =>
    (strings.resolve e.value).map fun text => (e.tag, text)

/-- The strings with a tag, in order. -/
def stringsOf (strings : List (DynamicTag × String)) (tag : DynamicTag) : List String :=
  (strings.filter fun p => p.1 == tag).map Prod.snd

/-- The linkage of entries whose strings have been resolved. -/
def ofStrings (entries : List DynamicEntry) (strings : List (DynamicTag × String)) : Linkage where
  entries := entries
  needed := stringsOf strings .needed
  soname := (stringsOf strings .soName).getLast?
  rpath := (stringsOf strings .rPath).getLast?
  runpath := (stringsOf strings .runPath).getLast?

/-- The linkage of a file; one without a dynamic section has none. -/
def read (order : ByteOrder) (sections : List SectionHeader) : Plan Linkage :=
  match section? sections with
  | none => return {}
  | some (_, s) => do
    let entries ← readEntries order s
    if entries.any fun e => e.tag.namesString then do
      let strings ← readStrings sections entries
      return ofStrings entries (← resolveAll strings entries)
    else return { entries }

end Linkage

end ElfAnatomy
