import ElfAnatomy.Proofs.Acceptance
import ElfAnatomy.Proofs.DynamicView
import ElfAnatomy.Proofs.Origins

/-!
# The strings beside rows

An image keeps one name, one search path of either kind and one path of an interpreter.  They come
from the last entry, or the first segment, of their kind, and every row of that kind shows them.  So
a row shows the string of its own record exactly if all records of its kind have the same string.

* `EntryText.unique`, `TextUpTo.unique` : a record has at most one string.
* `Table.stringLabel?`, `Linkage.kept?` : the entries whose strings share one place, and what is kept
  there.
* `OwnStringsShown`, `OwnPathsShown` : every row shows the string of its own record.
* `StringsShown` : what the rows show instead, and when that is their own string.
* `strings_shown` : **that is how the strings of every decoded file are shown.**
-/

namespace ElfAnatomy

variable {data : Bytes}

/-! ### One string at a place -/

/-- The bytes up to a NUL are the string that stands there. -/
theorem Bytes.untilNul?_of_slice? {text : String} {offset : Nat} (hnul : '\x00' ∉ text.toList)
    (h : data.slice? offset ((Utf8.encode text).length + 1) = some (Utf8.encode text ++ [0])) :
    untilNul? (data.drop offset) = some (Utf8.encode text) := by
  obtain ⟨-, htake⟩ := slice?_eq_some_iff.1 h
  refine untilNul?_eq_some_iff.2 ⟨fun hmem => hnul (Utf8.zero_mem_encode_iff.1 hmem), ?_⟩
  refine ⟨(data.drop offset).drop ((Utf8.encode text).length + 1), ?_⟩
  rw [List.append_cons, ← htake, List.take_append_drop]

/-- Only one string stands at an offset. -/
theorem Bytes.text_unique {s t : String} {offset : Nat} (hs : '\x00' ∉ s.toList)
    (ht : '\x00' ∉ t.toList)
    (hs' : data.slice? offset ((Utf8.encode s).length + 1) = some (Utf8.encode s ++ [0]))
    (ht' : data.slice? offset ((Utf8.encode t).length + 1) = some (Utf8.encode t ++ [0])) :
    s = t := by
  have heq := (untilNul?_of_slice? hs hs').symm.trans (untilNul?_of_slice? ht ht')
  exact Utf8.encode_inj.1 (Option.some.inj heq)

variable {sections : List SectionHeader} {entries : List DynamicEntry} {e : DynamicEntry}
  {s t : String}

theorem EntryText.unique (hs : EntryText data sections entries e s)
    (ht : EntryText data sections entries e t) : s = t := by
  obtain ⟨addr, place, haddr, hplace, hs⟩ := hs
  obtain ⟨_, _, haddr', hplace', ht⟩ := ht
  cases haddr.symm.trans haddr'
  cases hplace.symm.trans hplace'
  exact Bytes.text_unique hs.noNul ht.noNul hs.bytes ht.bytes

theorem TextUpTo.unique {offset stop stop' : Nat} (hs : TextUpTo data offset stop s)
    (ht : TextUpTo data offset stop' t) : s = t :=
  Bytes.text_unique hs.noNul ht.noNul hs.bytes ht.bytes

/-! ### Strings that are kept once -/

/-- What stands before the string in the row of an entry, if all entries of its kind share one
string. -/
def Table.stringLabel? : DynamicTag → Option String
  | .soName => some "Library soname: ["
  | .rPath => some "Library rpath: ["
  | .runPath => some "Library runpath: ["
  | _ => none

/-- The row of an entry with a string. -/
def Table.stringRow (label : String) (e : DynamicEntry) (text : String) : String :=
  dynamicLead e ++ (label ++ text ++ "]")

theorem Table.stringRow_inj {label : String} :
    stringRow label e s = stringRow label e t ↔ s = t := by
  rw [stringRow, stringRow, String.append_right_inj, String.append_left_inj,
    String.append_right_inj]

theorem Table.interpreterLine_inj : interpreterLine s = interpreterLine t ↔ s = t := by
  unfold interpreterLine
  simp only [String.append_left_inj, String.append_right_inj]

namespace Linkage

/-- The string that is kept for all entries with the tag. -/
def kept? (l : Linkage) : DynamicTag → Option String
  | .soName => l.soname
  | .rPath => l.rpath
  | .runPath => l.runpath
  | _ => none

variable {l : Linkage} {order : ByteOrder} {d : SectionHeader} {tag : DynamicTag} {label : String}

theorem dynamicValue_of_stringLabel? (hlabel : Table.stringLabel? e.tag = some label)
    (next : Option String) :
    Table.dynamicValue l next e = label ++ (l.kept? e.tag).getD "" ++ "]" := by
  unfold Table.dynamicValue
  generalize e.tag = tag at hlabel
  cases tag with
  | soName | rPath | runPath =>
    cases Option.some.inj hlabel
    rfl
  | _ => cases hlabel

/-- The last entry with the tag gives the string that is kept. -/
theorem Traced.rel_kept? (h : l.Traced data order sections d)
    (hlabel : Table.stringLabel? tag = some label) :
    Option.Rel (EntryText data sections l.entries)
      (l.entries.filter fun e => e.tag == tag).getLast? (l.kept? tag) := by
  cases tag <;> cases hlabel
  · exact h.soname
  · exact h.rpath
  · exact h.runpath

end Linkage

/-! ### Images -/

/-- The rows of the dynamic section, one for each entry. -/
def Image.dynamicRows (image : Image) : List String :=
  Table.dynamicRows image.linkage image.dependencies image.linkage.entries

/-- The lines of each segment. -/
def Image.segmentBlocks (image : Image) : List (List String) :=
  image.segments.map (Table.segmentLines image.interpreter)

/-- Every row of an entry with a name or a search path shows the string of that entry. -/
def OwnStringsShown (data : Bytes) (image : Image) : Prop :=
  ∀ (i : Nat) e label, image.linkage.entries[i]? = some e → Table.stringLabel? e.tag = some label →
    ∃ text, EntryText data image.sections image.linkage.entries e text ∧
      image.dynamicRows[i]? = some (Table.stringRow label e text)

/-- The path stands at the start of the segment. -/
def PathText (data : Bytes) (p : ProgramHeader) (path : String) : Prop :=
  TextUpTo data p.offset.toNat (p.offset.toNat + p.filesz.toNat) path

/-- The row of every interpreter segment is followed by the path of that segment. -/
def OwnPathsShown (data : Bytes) (image : Image) : Prop :=
  ∀ (i : Nat) p, image.segments[i]? = some p → p.type = SegmentType.interp →
    ∃ path, PathText data p path ∧
      image.segmentBlocks[i]? = some [Table.segmentRow p, Table.interpreterLine path]

/-- No two entries of a kind that shares one string have different ones. -/
def StringsAgree (data : Bytes) (image : Image) : Prop :=
  ∀ e ∈ image.linkage.entries, ∀ e' ∈ image.linkage.entries, e.tag = e'.tag →
    Table.stringLabel? e.tag ≠ none →
      ∀ text, EntryText data image.sections image.linkage.entries e text →
        EntryText data image.sections image.linkage.entries e' text

/-- No two interpreter segments have different paths. -/
def PathsAgree (data : Bytes) (image : Image) : Prop :=
  ∀ p ∈ image.segments, ∀ q ∈ image.segments, p.type = SegmentType.interp →
    q.type = SegmentType.interp → ∀ path, PathText data p path → PathText data q path

/-- How the rows of an image show the strings of a file. -/
structure StringsShown (data : Bytes) (image : Image) : Prop where
  /-- The dynamic view has the rows of the entries between the column titles and the list of
  needed libraries. -/
  dynamicView : ∀ s, dynamicSection? image.sections = some s →
    (Decoded.full image).render { dynamic := true } = Lines.text
      (Table.dynamicTitle s image.linkage.entries.length :: Table.dynamicColumns ::
        image.dynamicRows ++ "" :: Table.dependencyList image.dependencies)
  /-- The segment view has the lines of the segments after the column titles. -/
  segmentView : image.segments ≠ [] →
    (Decoded.full image).render { segments := true } = Lines.text
      ("Program Headers:" :: Table.segmentColumns :: image.segmentBlocks.flatten)
  /-- A row shows the string of the last entry with the same tag. -/
  last : ∀ (i : Nat) e label, image.linkage.entries[i]? = some e →
    Table.stringLabel? e.tag = some label → ∃ holder text,
      (image.linkage.entries.filter fun d => d.tag == e.tag).getLast? = some holder ∧
        EntryText data image.sections image.linkage.entries holder text ∧
        image.dynamicRows[i]? = some (Table.stringRow label e text)
  /-- The path of the first interpreter segment follows the row of each. -/
  first : ∀ (i : Nat) p, image.segments[i]? = some p → p.type = SegmentType.interp →
    ∃ holder path, (image.segments.find? fun q => q.type == SegmentType.interp) = some holder ∧
      PathText data holder path ∧
      image.segmentBlocks[i]? = some [Table.segmentRow p, Table.interpreterLine path]
  /-- So the rows show their own strings exactly if the entries of each kind agree, -/
  own_iff : OwnStringsShown data image ↔ StringsAgree data image
  /-- and the same holds of the paths. -/
  ownPaths_iff : OwnPathsShown data image ↔ PathsAgree data image

theorem Decoded.render_segments (image : Image) :
    (Decoded.full image).render { segments := true } = Lines.text (Table.segments image) :=
  render_of_tables rfl

theorem Table.segments_of_ne_nil {image : Image} (h : image.segments ≠ []) :
    segments image = "Program Headers:" :: segmentColumns :: image.segmentBlocks.flatten := by
  rw [segments, if_neg h, List.flatMap_def]
  rfl

variable {image : Image} {label : String}

/-! ### The dynamic section -/

theorem Image.getElem?_dynamicRows {i : Nat} (he : image.linkage.entries[i]? = some e)
    (hlabel : Table.stringLabel? e.tag = some label) :
    image.dynamicRows[i]? =
      some (Table.stringRow label e ((image.linkage.kept? e.tag).getD "")) := by
  obtain ⟨hlt, rfl⟩ := List.getElem?_eq_some_iff.1 he
  have hrow := Table.getElem?_dynamicRows image.linkage image.dependencies
    (image.linkage.entries.take i) image.linkage.entries[i] (image.linkage.entries.drop (i + 1))
  rw [List.getElem_cons_drop, List.take_append_drop, List.length_take_of_le hlt.le,
    Linkage.dynamicValue_of_stringLabel? hlabel] at hrow
  exact hrow

theorem exists_of_rel {α β : Type} {R : α → β → Prop} {a? : Option α} {b? : Option β}
    (h : Option.Rel R a? b?) (ha : a?.isSome) : ∃ a b, a? = some a ∧ b? = some b ∧ R a b := by
  cases h with
  | none => cases ha
  | some hab => exact ⟨_, _, rfl, rfl, hab⟩

/-- A string is kept for every entry of a kind that shares one. -/
theorem Linkage.exists_kept {order : ByteOrder} {l : Linkage}
    (hl : LinkageIn data order sections l) (he : e ∈ l.entries)
    (hlabel : Table.stringLabel? e.tag = some label) :
    ∃ holder text, (l.entries.filter fun d => d.tag == e.tag).getLast? = some holder ∧
      l.kept? e.tag = some text ∧ EntryText data sections l.entries holder text := by
  cases hs : dynamicSection? sections with
  | none =>
    rw [hl.eq_empty hs] at he
    cases he
  | some d =>
    refine exists_of_rel ((traced_of_linkageIn hl hs).rel_kept? hlabel) ?_
    exact List.getLast?_isSome.2 (List.ne_nil_of_mem (List.mem_filter.2 ⟨he, beq_self_eq_true _⟩))

/-- The row of an entry shows its own string if that is the one that is kept. -/
theorem ownStringsShown_iff_kept :
    OwnStringsShown data image ↔
      ∀ e ∈ image.linkage.entries, Table.stringLabel? e.tag ≠ none →
        EntryText data image.sections image.linkage.entries e
          ((image.linkage.kept? e.tag).getD "") := by
  constructor
  · intro hown e he hne
    obtain ⟨label, hlabel⟩ := Option.ne_none_iff_exists'.1 hne
    obtain ⟨i, hi⟩ := List.mem_iff_getElem?.1 he
    obtain ⟨text, htext, hrow⟩ := hown i e label hi hlabel
    rw [Image.getElem?_dynamicRows hi hlabel] at hrow
    rwa [Table.stringRow_inj.1 (Option.some.inj hrow)]
  · intro hkept i e label hi hlabel
    have htext := hkept e (List.mem_of_getElem? hi) (by simp [hlabel])
    exact ⟨_, htext, Image.getElem?_dynamicRows hi hlabel⟩

theorem ownStringsShown_iff {order : ByteOrder}
    (hl : LinkageIn data order image.sections image.linkage) :
    OwnStringsShown data image ↔ StringsAgree data image := by
  rw [ownStringsShown_iff_kept]
  constructor
  · intro hkept e he e' he' htag hne text htext
    rw [htext.unique (hkept e he hne), htag]
    exact hkept e' he' (htag ▸ hne)
  · intro hagree e he hne
    obtain ⟨label, hlabel⟩ := Option.ne_none_iff_exists'.1 hne
    obtain ⟨holder, text, hlast, hkept, htext⟩ := Linkage.exists_kept hl he hlabel
    obtain ⟨hholder, htag⟩ := List.mem_filter.1 (List.mem_of_getLast? hlast)
    rw [beq_iff_eq] at htag
    rw [hkept]
    exact hagree holder hholder e he htag (htag ▸ hne) text htext

/-! ### The segments -/

theorem Image.getElem?_segmentBlocks {i : Nat} {p : ProgramHeader}
    (hp : image.segments[i]? = some p) :
    image.segmentBlocks[i]? = some (Table.segmentLines image.interpreter p) := by
  rw [segmentBlocks, List.getElem?_map, hp]
  rfl

theorem Table.segmentLines_of_interp {p : ProgramHeader} (htype : p.type = SegmentType.interp)
    (path : String) : segmentLines (some path) p = [segmentRow p, interpreterLine path] := by
  rw [segmentLines, if_pos htype]
  rfl

/-- The first interpreter segment gives the path that is kept. -/
theorem InterpreterTraced.exists_first {segments : List ProgramHeader} {path? : Option String}
    (h : InterpreterTraced data segments path?) {p : ProgramHeader} (hp : p ∈ segments)
    (htype : p.type = SegmentType.interp) :
    ∃ holder path, (segments.find? fun q => q.type == SegmentType.interp) = some holder ∧
      path? = some path ∧ PathText data holder path :=
  exists_of_rel h.first (List.find?_isSome.2 ⟨p, hp, beq_iff_eq.2 htype⟩)

theorem ownPathsShown_iff (h : InterpreterTraced data image.segments image.interpreter) :
    OwnPathsShown data image ↔ PathsAgree data image := by
  constructor
  · intro hown p hp q hq hptype hqtype path hpath
    obtain ⟨_, kept, _, hkept, _⟩ := h.exists_first hp hptype
    -- both rows are followed by the path that is kept
    have hshown : ∀ r ∈ image.segments, r.type = SegmentType.interp → PathText data r kept := by
      intro r hr hrtype
      obtain ⟨i, hi⟩ := List.mem_iff_getElem?.1 hr
      obtain ⟨own, howntext, hblock⟩ := hown i r hi hrtype
      rw [Image.getElem?_segmentBlocks hi, hkept, Table.segmentLines_of_interp hrtype] at hblock
      simp only [Option.some.injEq, List.cons.injEq, and_true, true_and,
        Table.interpreterLine_inj] at hblock
      rwa [hblock]
    rw [hpath.unique (hshown p hp hptype)]
    exact hshown q hq hqtype
  · intro hagree i p hi htype
    have hp := List.mem_of_getElem? hi
    obtain ⟨holder, path, hholder, hkept, hpath⟩ := h.exists_first hp htype
    have htype' := List.find?_some hholder
    refine ⟨path, ?_, ?_⟩
    · exact hagree holder (List.mem_of_find?_eq_some hholder) p hp (beq_iff_eq.1 htype') htype path
        hpath
    · rw [Image.getElem?_segmentBlocks hi, hkept, Table.segmentLines_of_interp htype]

/-- **The strings of a kind are shown alike.**  Every row shows the string of the last entry with
its tag, and every interpreter segment the path of the first one. -/
theorem strings_shown (data : Bytes) (image : Image) (h : decode data = .ok image) :
    StringsShown data image := by
  have hin := imageIn_of_decode h
  have hpath := interpreterTraced_of_interpreterIn hin.interpreter
  exact {
    dynamicView := by
      intro s hs
      rw [Decoded.render_dynamic, Table.dynamic_of_section hs]
      rfl
    segmentView := by
      intro hne
      rw [Decoded.render_segments, Table.segments_of_ne_nil hne]
    last := by
      intro i e label hi hlabel
      obtain ⟨holder, text, hlast, hkept, htext⟩ :=
        Linkage.exists_kept hin.linkage (List.mem_of_getElem? hi) hlabel
      refine ⟨holder, text, hlast, htext, ?_⟩
      rw [Image.getElem?_dynamicRows hi hlabel, hkept]
      rfl
    first := by
      intro i p hi htype
      obtain ⟨holder, path, hholder, hkept, htext⟩ :=
        hpath.exists_first (List.mem_of_getElem? hi) htype
      refine ⟨holder, path, hholder, htext, ?_⟩
      rw [Image.getElem?_segmentBlocks hi, hkept, Table.segmentLines_of_interp htype]
    own_iff := ownStringsShown_iff hin.linkage
    ownPaths_iff := ownPathsShown_iff hpath }

/-- The image of a shared object with two names and two interpreters. -/
def doubledImage : Image where
  header := {
    ident := bareHeader.ident
    byteOrder := .little
    type := 3, machine := 62, version := 1, entry := 0, phoff := 64, shoff := 255, flags := 0
    ehsize := 64, phentsize := 56, phnum := 2, shentsize := 64, shnum := 3, shstrndx := 0 }
  sections := [
    { name := 0, type := 0, flags := 0, addr := 0, offset := 0, size := 0, link := 0, info := 0,
      addralign := 0, entsize := 0 },
    { name := 0, type := 6, flags := 3, addr := 0, offset := 176, size := 64, link := 2,
      info := 0, addralign := 8, entsize := 16 },
    { name := 0, type := 3, flags := 2, addr := 0x1000, offset := 240, size := 15, link := 0,
      info := 0, addralign := 1, entsize := 0 }]
  names := ["", "", ""]
  segments := [
    { type := 3, flags := 4, offset := 249, vaddr := 0, paddr := 0, filesz := 3, memsz := 3,
      align := 1 },
    { type := 3, flags := 4, offset := 252, vaddr := 0, paddr := 0, filesz := 3, memsz := 3,
      align := 1 }]
  linkage := {
    entries := [⟨14, 1⟩, ⟨14, 5⟩, ⟨5, 0x1000⟩, ⟨0, 0⟩]
    soname := some "two" }
  interpreter := some "/a"
  anomalies := []

/-- A file of that image: its names are `one` and `two`, its interpreters `/a` and `/b`. -/
def doubledFile : Bytes :=
  doubledImage.header.encode ++ Record.encodeAll .little doubledImage.segments ++
    Record.encodeAll .little doubledImage.linkage.entries ++
    Utf8.encode "\x00one\x00two\x00/a\x00/b\x00" ++
    Record.encodeAll .little doubledImage.sections

theorem decode_doubledFile : decode doubledFile = .ok doubledImage := by
  rw [decode_eq_outcome]
  decide +kernel

/-- The first entry of a name shows the string of the second one. -/
theorem strings_shown_doubled :
    decode doubledFile = .ok doubledImage ∧ StringsShown doubledFile doubledImage ∧
      doubledImage.dynamicRows[0]? =
        some "  0x000000000000000e (SONAME)             Library soname: [two]" := by
  refine ⟨decode_doubledFile, strings_shown doubledFile doubledImage decode_doubledFile, ?_⟩
  decide +kernel

/-- **Rows do not show the strings of their own records** if two records of a kind differ. -/
theorem not_ownStringsShown_doubled :
    decode doubledFile = .ok doubledImage ∧ ¬ OwnStringsShown doubledFile doubledImage ∧
      ¬ OwnPathsShown doubledFile doubledImage := by
  have hin := imageIn_of_decode decode_doubledFile
  have hplace : locateAddress? doubledImage.sections 0x1000 =
      some ⟨2, doubledImage.sections[2], 0⟩ := by decide
  have hone : EntryText doubledFile doubledImage.sections doubledImage.linkage.entries ⟨14, 1⟩
      "one" :=
    ⟨_, _, rfl, hplace, by decide, by decide +kernel, by decide +kernel, nofun⟩
  have htwo : EntryText doubledFile doubledImage.sections doubledImage.linkage.entries ⟨14, 5⟩
      "two" :=
    ⟨_, _, rfl, hplace, by decide, by decide +kernel, by decide +kernel, nofun⟩
  have ha : PathText doubledFile doubledImage.segments[0] "/a" :=
    ⟨by decide, by decide +kernel, by decide +kernel⟩
  have hb : PathText doubledFile doubledImage.segments[1] "/b" :=
    ⟨by decide, by decide +kernel, by decide +kernel⟩
  refine ⟨decode_doubledFile, fun hown => ?_, fun hown => ?_⟩
  · have hagree := (ownStringsShown_iff hin.linkage).1 hown
    have hsame := hagree ⟨14, 1⟩ (by decide) ⟨14, 5⟩ (by decide) rfl (by decide) "one" hone
    exact absurd (hsame.unique htwo) (by decide)
  · have hagree := (ownPathsShown_iff (interpreterTraced_of_interpreterIn hin.interpreter)).1 hown
    have hsame := hagree doubledImage.segments[0] (by decide) doubledImage.segments[1] (by decide)
      rfl rfl "/a" ha
    exact absurd (hsame.unique hb) (by decide)

end ElfAnatomy
