import ElfAnatomy.Proofs.Extension

/-!
# Where the strings of the dynamic section come from

Every string of a linkage belongs to an entry of the dynamic section, and its bytes stand in the
file: in the section that the address of the string table leads to, from the place on that the
address and the value of the entry give.

* `TextAt` : a string in the file, by its section and its offsets.
* `EntryText` : the string of an entry, in the string table that the entries refer to.
* `Linkage.Traced` : what a linkage has to do with the entries of a dynamic section.
* `linkage_of_decode` : the linkage of every decoded file is traced like that.
-/

namespace ElfAnatomy

/-! ### Lists side by side -/

section Lists

variable {α β : Type} {R : α → β → Prop}

theorem rel_head? {as : List α} {bs : List β} (h : List.Forall₂ R as bs) :
    Option.Rel R as.head? bs.head? := by
  cases h with
  | nil => exact .none
  | cons hab _ => exact .some hab

theorem rel_getLast? {as : List α} {bs : List β} (h : List.Forall₂ R as bs) :
    Option.Rel R as.getLast? bs.getLast? := by
  rw [List.getLast?_eq_head?_reverse, List.getLast?_eq_head?_reverse]
  exact rel_head? (List.forall₂_reverse_iff.2 h)

end Lists

/-! ### Strings in a file -/

variable {data : Bytes} {sections : List SectionHeader}

namespace Bytes

theorem slice?_of_take {bs part : Bytes} {n offset size : Nat}
    (h : slice? (bs.take n) offset size = some part) :
    offset + size ≤ n ∧ bs.slice? offset size = some part := by
  have hle := (slice?_eq_some_iff.1 h).1
  rw [List.length_take] at hle
  exact ⟨by omega, slice?_of_prefix (List.take_prefix n bs) h⟩

theorem slice?_of_drop {bs part : Bytes} {n offset size : Nat} (hsize : 0 < size)
    (h : slice? (bs.drop n) offset size = some part) : bs.slice? (n + offset) size = some part := by
  obtain ⟨hle, rfl⟩ := slice?_eq_some_iff.1 h
  rw [List.length_drop] at hle
  exact slice?_eq_some_iff.2 ⟨by omega, by rw [List.drop_drop]⟩

end Bytes

/-- The string at offset `value` of a table that starts at a place in a section: its bytes and a
NUL stand in the file, inside the section and inside the size that the table is declared to have. -/
structure TextAt (data : Bytes) (place : Location) (size? : Option UInt64) (value : UInt64)
    (text : String) : Prop where
  noNul : '\x00' ∉ text.toList
  bytes : data.slice? (place.header.offset.toNat + place.offset.toNat + value.toNat)
    ((Utf8.encode text).length + 1) = some (Utf8.encode text ++ [0])
  inSection : place.offset.toNat + value.toNat + (Utf8.encode text).length + 1 ≤
    place.header.size.toNat
  inDeclared : ∀ size, size? = some size →
    value.toNat + (Utf8.encode text).length + 1 ≤ size.toNat

/-- The text is the string of the entry, in the table at the address that the first entry of its
kind gives. -/
def EntryText (data : Bytes) (sections : List SectionHeader) (entries : List DynamicEntry)
    (e : DynamicEntry) (text : String) : Prop :=
  ∃ addr place, Linkage.valueOf? entries .strTab = some addr ∧
    locateAddress? sections addr = some place ∧
    TextAt data place (Linkage.valueOf? entries .strSz) e.value text

/-- The linkage says what the entries of the dynamic section say that come first in it, up to the
first null entry: one name for each library that is needed, in order, and the last string of every
other kind. -/
structure Linkage.Traced (data : Bytes) (order : ByteOrder) (sections : List SectionHeader)
    (d : SectionHeader) (l : Linkage) : Prop where
  leading : LeadingIn data order d l.entries
  needed : List.Forall₂ (EntryText data sections l.entries)
    (l.entries.filter fun e => e.tag == .needed) l.needed
  soname : Option.Rel (EntryText data sections l.entries)
    (l.entries.filter fun e => e.tag == .soName).getLast? l.soname
  rpath : Option.Rel (EntryText data sections l.entries)
    (l.entries.filter fun e => e.tag == .rPath).getLast? l.rpath
  runpath : Option.Rel (EntryText data sections l.entries)
    (l.entries.filter fun e => e.tag == .runPath).getLast? l.runpath

/-! ### From the table to the file -/

theorem StringTable.Holds.slice? {t : StringTable} {offset : Nat} {text : String}
    (h : t.Holds offset text) :
    t.bytes.slice? offset ((Utf8.encode text).length + 1) = some (Utf8.encode text ++ [0]) := by
  obtain ⟨-, before, after, rfl, hbytes⟩ := h
  have hslice := Bytes.slice?_append before (Utf8.encode text ++ [0]) after
  rw [List.length_append, List.append_assoc, List.append_assoc] at hslice
  rw [hbytes]
  exact hslice

/-- A string that the dynamic string table holds stands in the file. -/
theorem entryText_of_holds {entries : List DynamicEntry} {t : StringTable}
    (ht : StringsIn data sections entries t) {e : DynamicEntry} {text : String}
    (h : t.Holds e.value.toNat text) : EntryText data sections entries e text := by
  obtain ⟨addr, s, haddr, hs, hbytes⟩ := ht
  rw [← map_header_locateAddress?, Option.map_eq_some_iff] at hs
  obtain ⟨place, hplace, rfl⟩ := hs
  obtain ⟨-, hfile, -, hoffset⟩ := of_locateAddress? hplace
  rw [SectionHeader.bytesIn, if_pos hfile, ← hoffset] at hbytes
  have hslice := h.slice?
  rw [hbytes] at hslice
  -- the declared size, the place in the section and the section itself cut the table out of the
  -- file, one after the other
  have hwindow : (∀ size, Linkage.valueOf? entries .strSz = some size →
      e.value.toNat + ((Utf8.encode text).length + 1) ≤ size.toNat) ∧
      Bytes.slice? ((List.take place.header.size.toNat
        (data.drop place.header.offset.toNat)).drop place.offset.toNat) e.value.toNat
        ((Utf8.encode text).length + 1) = some (Utf8.encode text ++ [0]) := by
    cases hsize : Linkage.valueOf? entries .strSz with
    | none =>
      rw [hsize] at hslice
      exact ⟨nofun, hslice⟩
    | some size =>
      rw [hsize] at hslice
      obtain ⟨hle, hslice⟩ := Bytes.slice?_of_take hslice
      exact ⟨fun _ h => by cases h; exact hle, hslice⟩
  obtain ⟨hdeclared, hslice⟩ := hwindow
  obtain ⟨hsection, hslice⟩ :=
    Bytes.slice?_of_take (Bytes.slice?_of_drop (Nat.succ_pos _) hslice)
  refine ⟨addr, place, haddr, hplace, ?_, ?_, ?_, ?_⟩
  · exact fun hnul => h.1 (Utf8.zero_mem_encode_iff.2 hnul)
  · rw [Nat.add_assoc]
    exact Bytes.slice?_of_drop (Nat.succ_pos _) hslice
  · omega
  · intro size hsize
    have := hdeclared size hsize
    omega

/-! ### From the entries to the strings -/

namespace Linkage

variable {order : ByteOrder} {entries : List DynamicEntry}

/-- The strings with a tag are those of the entries with that tag. -/
theorem forall₂_stringsOf {R : DynamicEntry → String → Prop} {strings : List (DynamicTag × String)}
    (h : List.Forall₂ (fun e p => p.1 = e.tag ∧ R e p.2)
      (entries.filter fun e => e.tag.namesString) strings)
    {tag : DynamicTag} (htag : tag.namesString = true) :
    List.Forall₂ R (entries.filter fun e => e.tag == tag) (stringsOf strings tag) := by
  have hfilter : (entries.filter fun e => e.tag == tag) =
      (entries.filter fun e => e.tag.namesString).filter fun e => e.tag == tag := by
    rw [List.filter_filter]
    refine List.filter_congr fun e _ => ?_
    by_cases he : e.tag = tag
    · rw [he, htag]
      simp
    · simp [he]
  rw [hfilter, stringsOf, List.forall₂_map_right_iff]
  have htags : ∀ ⦃e : DynamicEntry⦄ ⦃p : DynamicTag × String⦄, p.1 = e.tag ∧ R e p.2 →
      ((e.tag == tag) = true ↔ (p.1 == tag) = true) := fun e p hp => by rw [hp.1]
  exact (List.rel_filter htags h).imp fun e p hp => hp.2

theorem filter_tag_eq_nil {tag : DynamicTag} (htag : tag.namesString = true)
    (hbare : ∀ e ∈ entries, e.tag.namesString = false) :
    (entries.filter fun e => e.tag == tag) = [] := by
  refine List.filter_eq_nil_iff.2 fun e he h => ?_
  have := hbare e he
  rw [eq_of_beq h, htag] at this
  cases this

/-- What the dynamic section says can be traced to its entries. -/
theorem traced_of_linkageIn {l : Linkage} (h : LinkageIn data order sections l)
    {d : SectionHeader} (hd : dynamicSection? sections = some d) :
    l.Traced data order sections d := by
  obtain hno | ⟨s, hs, all, hall, hbare⟩ | ⟨s, hs, all, hall, -, t, ht, strings, hstrings⟩ := h
  · rw [hno] at hd
    cases hd
  · rw [hs] at hd
    cases hd
    refine ⟨hall.leadingIn, ?_, ?_, ?_, ?_⟩
    · rw [filter_tag_eq_nil rfl hbare]
      exact .nil
    all_goals
      rw [filter_tag_eq_nil rfl hbare]
      exact .none
  · rw [hs] at hd
    cases hd
    have htext := hstrings.imp fun e p hp => And.intro hp.1 (entryText_of_holds ht hp.2)
    exact {
      leading := hall.leadingIn
      needed := forall₂_stringsOf htext rfl
      soname := rel_getLast? (forall₂_stringsOf htext rfl)
      rpath := rel_getLast? (forall₂_stringsOf htext rfl)
      runpath := rel_getLast? (forall₂_stringsOf htext rfl) }

end Linkage

theorem LinkageIn.eq_empty {order : ByteOrder} {l : Linkage} (h : LinkageIn data order sections l)
    (hno : dynamicSection? sections = none) : l = {} := by
  obtain - | ⟨s, hs, -⟩ | ⟨s, hs, -⟩ := h
  · rfl
  all_goals
    rw [hno] at hs
    cases hs

/-- **Every string of the dynamic section has its place in the file.**  A file without a dynamic
section has an empty linkage; that of any other file is traced to the entries of its first dynamic
section. -/
theorem linkage_of_decode (data : Bytes) (image : Image) (h : decode data = .ok image) :
    ((∀ s ∈ image.sections, s.type ≠ SectionType.dynamic) ∧ image.linkage = {}) ∨
      ∃ d, dynamicSection? image.sections = some d ∧
        image.linkage.Traced data image.header.byteOrder image.sections d := by
  have hin := (imageIn_of_decode h).linkage
  cases hd : dynamicSection? image.sections with
  | none =>
    have hnone : ∀ s ∈ image.sections, s.type ≠ SectionType.dynamic := by
      simpa [dynamicSection?] using hd
    exact .inl ⟨hnone, hin.eq_empty hd⟩
  | some d => exact .inr ⟨d, rfl, Linkage.traced_of_linkageIn hin hd⟩

/-- The image of a program that needs one library twice and has a name of its own. -/
def linkedImage : Image where
  header := {
    ident := ⟨#[0x7f, 0x45, 0x4c, 0x46, 2, 1, 1, 3, 0, 0, 0, 0, 0, 0, 0, 0], rfl⟩
    byteOrder := .little
    type := 3, machine := 62, version := 1, entry := 0, phoff := 64, shoff := 264, flags := 0
    ehsize := 64, phentsize := 56, phnum := 1, shentsize := 64, shnum := 3, shstrndx := 2 }
  sections := [
    { name := 0, type := 0, flags := 0, addr := 0, offset := 0, size := 0, link := 0, info := 0,
      addralign := 0, entsize := 0 },
    { name := 1, type := 6, flags := 3, addr := 0x1000, offset := 120, size := 112, link := 2,
      info := 0, addralign := 8, entsize := 16 },
    { name := 10, type := 3, flags := 2, addr := 0x2000, offset := 232, size := 27, link := 0,
      info := 0, addralign := 1, entsize := 0 }]
  names := ["", ".dynamic", ".dynstr"]
  segments := [
    { type := 3, flags := 4, offset := 259, vaddr := 0, paddr := 0, filesz := 4, memsz := 4,
      align := 1 }]
  linkage := {
    entries := [⟨1, 8⟩, ⟨14, 14⟩, ⟨1, 8⟩, ⟨5, 0x200a⟩, ⟨10, 17⟩, ⟨0, 0⟩]
    needed := ["é.so", "é.so"]
    soname := some "me" }
  interpreter := some "/ld"
  anomalies := []

/-- A file of that image.  The table of the dynamic section starts inside the section that also
holds the section names, and an entry that needs another library follows the null entry. -/
def linkedFile : Bytes :=
  linkedImage.header.encode ++ Record.encodeAll .little linkedImage.segments ++
    Record.encodeAll .little (linkedImage.linkage.entries ++ [⟨1, 14⟩]) ++
    Utf8.encode "\x00.dynamic\x00.dynstr\x00é.so\x00me\x00/ld\x00\x00" ++
    Record.encodeAll .little linkedImage.sections

theorem decode_linkedFile : decode linkedFile = .ok linkedImage := by
  rw [decode_eq_outcome]
  decide +kernel

theorem linkage_of_decode_sample :
    decode linkedFile = .ok linkedImage ∧
      ∃ d, dynamicSection? linkedImage.sections = some d ∧
        linkedImage.linkage.Traced linkedFile .little linkedImage.sections d :=
  ⟨decode_linkedFile, (linkage_of_decode linkedFile linkedImage decode_linkedFile).resolve_left
    fun h => absurd h.2 (by decide)⟩

end ElfAnatomy
