import ElfAnatomy.Proofs.RowStrings

/-!
# Rows as lines

A row is written as one line, with the names in it as they stand in the file.  So whoever reads the
text line by line finds the rows again only if no name has a line end inside; a name with one can
even look like the title of a list.

* `LinePerSection`, `LinePerDependency` : the lines that are read are the rows that were written.
* `Table.lacks_sectionRow` : a row has a line end inside exactly if its name has one.
* `linePerSection_iff`, `linePerDependency_iff` : when the rows are found again.
* `line_per_row` : **all rows are found again if no name has a line end**, for every image that is
  decoded.
-/

namespace ElfAnatomy

/-- The title of the key to the flag letters. -/
def Table.keyTitle : String := "Key to Flags:"

/-- The lines of the section view between the names of the columns and the key. -/
def Image.sectionLines (image : Image) : List String :=
  Lines.between Table.sectionColumns Table.keyTitle
    (Lines.split ((Decoded.full image).render { sections := true }))

/-- There is one line for each section, and it is the section's row. -/
structure LinePerSection (image : Image) : Prop where
  length : image.sectionLines.length = image.sections.length
  row : ∀ i s name, image.sections[i]? = some s → image.names[i]? = some name →
    image.sectionLines[i]? = some (Table.sectionRow i s name)

/-- The lines after the title of the needed libraries are their names, one on each line, and the
text ends after the last one. -/
def LinePerDependency (image : Image) : Prop :=
  Lines.after Table.dependencyTitle
      (Lines.split ((Decoded.full image).render { dynamic := true })) =
    (image.dependencies.map fun name => "  " ++ name) ++ [""]

/-! ### What a row is made of -/

namespace Table

theorem lacks_sectionType (code : UInt32) : Lacks '\n' (Names.sectionType code) :=
  Names.lacks_orHex outside_lineEnd (by simp [Names.sectionTypes, Lacks]) code

theorem lacks_dynamicTag (code : Int64) : Lacks '\n' (Names.dynamicTag code) :=
  Names.lacks_orHex outside_lineEnd (by simp [Names.dynamicTags, Lacks]) code

theorem lacks_sectionColumns : Lacks '\n' sectionColumns := by
  unfold sectionColumns
  simp only [lacks_append, Column.lacks_left outside_lineEnd, Column.lacks_right outside_lineEnd]
  simp [Lacks]

theorem lacks_dynamicColumns : Lacks '\n' dynamicColumns := by
  unfold dynamicColumns
  simp only [lacks_append, Column.lacks_left outside_lineEnd]
  simp [Lacks]

/-- Only the name can bring a line end into the row of a section. -/
theorem lacks_sectionRow {index : Nat} {s : SectionHeader} {name : String} :
    Lacks '\n' (sectionRow index s name) ↔ Lacks '\n' name := by
  have hflags : Lacks '\n' (Names.sectionFlags s.flags) :=
    Names.lacks_sectionFlags outside_lineEnd (by decide) s.flags
  unfold sectionRow
  simp only [lacks_append, Column.lacks_left outside_lineEnd, Column.lacks_right outside_lineEnd,
    lacks_sectionType, hflags, outside_lineEnd.lacks_repr, Hex.lacks_padded outside_lineEnd]
  simp [Lacks]

theorem lacks_dynamicLead (e : DynamicEntry) : Lacks '\n' (dynamicLead e) := by
  unfold dynamicLead
  simp only [lacks_append, Column.lacks_left outside_lineEnd, lacks_dynamicTag,
    Hex.lacks_wide outside_lineEnd]
  simp [Lacks]

theorem lacks_dynamicTitle (s : SectionHeader) (count : Nat) :
    Lacks '\n' (dynamicTitle s count) := by
  unfold dynamicTitle
  simp only [lacks_append, Hex.lacks_number outside_lineEnd, outside_lineEnd.lacks_repr]
  simp [Lacks]

/-! ### Rows and titles -/

theorem head?_keyTitle : keyTitle.toList.head? = some 'K' := by decide

theorem head?_dependencyTitle : dependencyTitle.toList.head? = some 'S' := by decide

theorem head?_sectionColumns : sectionColumns.toList.head? = some ' ' := by
  unfold sectionColumns
  simp

theorem head?_dynamicColumns : dynamicColumns.toList.head? = some ' ' := by
  unfold dynamicColumns
  simp

theorem head?_sectionRow (index : Nat) (s : SectionHeader) (name : String) :
    (sectionRow index s name).toList.head? = some ' ' := by
  unfold sectionRow
  simp

theorem head?_dynamicLead (e : DynamicEntry) (value : String) :
    (dynamicLead e ++ value).toList.head? = some ' ' := by
  unfold dynamicLead
  simp

end Table

/-! ### Sections -/

theorem Decoded.render_sections (image : Image) :
    (Decoded.full image).render { sections := true } = Lines.text (Table.sections image) :=
  render_of_tables rfl

variable {image : Image}

namespace Table

theorem length_sectionRows (hlength : image.names.length = image.sections.length) :
    (sectionRows image).length = image.sections.length := by
  simp [sectionRows, hlength]

theorem getElem?_sectionRows {i : Nat} {s : SectionHeader} {name : String}
    (hs : image.sections[i]? = some s) (hname : image.names[i]? = some name) :
    (sectionRows image)[i]? = some (sectionRow i s name) := by
  have hzip : (image.sections.zip image.names)[i]? = some (s, name) :=
    List.getElem?_zip_eq_some.2 ⟨hs, hname⟩
  simp [sectionRows, hzip]

theorem mem_sectionRows {row : String} (h : row ∈ sectionRows image) :
    ∃ index s name, name ∈ image.names ∧ row = sectionRow index s name := by
  obtain ⟨⟨⟨s, name⟩, index⟩, hp, rfl⟩ := List.mem_map.1 h
  have hmem := (List.of_mem_zip (List.fst_mem_of_mem_zipIdx hp)).2
  exact ⟨index, s, name, hmem, rfl⟩

end Table

/-- No line of the table has a line end inside if no name has one. -/
theorem Table.lacks_of_mem_sections (hne : image.sections ≠ [])
    (hnames : ∀ name ∈ image.names, Lacks '\n' name) :
    ∀ line ∈ sections image, Lacks '\n' line := by
  have htitle : Lacks '\n' "Section Headers:" := by simp [Lacks]
  have hrows : ∀ row ∈ sectionRows image, Lacks '\n' row := by
    intro row hrow
    obtain ⟨index, s, name, hname, rfl⟩ := mem_sectionRows hrow
    exact lacks_sectionRow.2 (hnames name hname)
  have hkey : ∀ line ∈ sectionKey, Lacks '\n' line := by simp [sectionKey, Lacks]
  rw [sections, if_neg hne]
  simp only [List.cons_append, List.forall_mem_cons, List.forall_mem_append]
  exact ⟨htitle, lacks_sectionColumns, hrows, hkey⟩

/-- The rows are read as they were written if no name has a line end. -/
theorem Image.sectionLines_eq (hne : image.sections ≠ [])
    (hnames : ∀ name ∈ image.names, Lacks '\n' name) :
    image.sectionLines = Table.sectionRows image := by
  have htitle : Table.sectionColumns ∉ ["Section Headers:"] := by
    have hhead : "Section Headers:".toList.head? = some 'S' := by decide
    rw [List.mem_singleton]
    exact ne_of_head? Table.head?_sectionColumns hhead (by decide)
  have hkey : Table.keyTitle ∉ Table.sectionRows image := by
    intro hmem
    obtain ⟨index, s, name, -, heq⟩ := Table.mem_sectionRows hmem
    exact ne_of_head? Table.head?_keyTitle (Table.head?_sectionRow index s name) (by decide) heq
  rw [sectionLines, Decoded.render_sections, Lines.split_text,
    Lines.flatMap_split_of_lacks (Table.lacks_of_mem_sections hne hnames), Table.sections,
    if_neg hne, List.append_assoc]
  exact Lines.between_append_cons htitle hkey (Table.sectionKey.tail ++ [""])

theorem linePerSection_iff (hne : image.sections ≠ [])
    (hlength : image.names.length = image.sections.length) :
    LinePerSection image ↔ ∀ name ∈ image.names, Lacks '\n' name := by
  constructor
  · intro h name hname
    obtain ⟨i, hi⟩ := List.mem_iff_getElem?.1 hname
    have hlt : i < image.sections.length := hlength ▸ (List.getElem?_eq_some_iff.1 hi).1
    have hrow := h.row i _ name (List.getElem?_eq_getElem hlt) hi
    -- a line that is read has no line end inside
    have hpiece := Lines.between_subset _ _ _ (List.mem_of_getElem? hrow)
    exact Table.lacks_sectionRow.1 (Lines.lacks_of_mem_split hpiece)
  · intro hnames
    have hlines := Image.sectionLines_eq hne hnames
    refine ⟨by rw [hlines, Table.length_sectionRows hlength], ?_⟩
    intro i s name hs hname
    rw [hlines, Table.getElem?_sectionRows hs hname]

/-! ### Needed libraries -/

/-- What is read of the dynamic view: everything before the title of the list, and the names. -/
theorem Lines.split_render_dynamic {s : SectionHeader}
    (hs : dynamicSection? image.sections = some s) (hne : image.dependencies ≠ []) :
    split ((Decoded.full image).render { dynamic := true }) =
      (Table.dynamicTitle s image.linkage.entries.length :: Table.dynamicColumns ::
        (image.dynamicRows.flatMap split ++ [""])) ++ Table.dependencyTitle ::
          ((image.dependencies.map fun name => "  " ++ name).flatMap split ++ [""]) := by
  have htitle := split_of_lacks (Table.lacks_dynamicTitle s image.linkage.entries.length)
  have hlist : Lacks '\n' Table.dependencyTitle := by decide
  have hempty : split "" = [""] := rfl
  rw [Decoded.render_dynamic, split_text, Table.dynamic_of_section hs, Table.dependencyList,
    if_neg hne]
  simp [htitle, split_of_lacks Table.lacks_dynamicColumns, split_of_lacks hlist, hempty,
    Image.dynamicRows]

/-- The title is the first one of its kind exactly if no row has it as a line. -/
theorem Lines.notMem_dynamic_iff (s : SectionHeader) (count : Nat) (rows : List String) :
    Table.dependencyTitle ∉ Table.dynamicTitle s count :: Table.dynamicColumns ::
        (rows.flatMap split ++ [""]) ↔
      ∀ row ∈ rows, Table.dependencyTitle ∉ split row := by
  have htitle : Table.dependencyTitle ≠ Table.dynamicTitle s count := by
    have hhead := Table.head?_dynamicTitle s count ""
    rw [String.append_empty] at hhead
    exact ne_of_head? Table.head?_dependencyTitle hhead (by decide)
  have hcolumns : Table.dependencyTitle ≠ Table.dynamicColumns :=
    ne_of_head? Table.head?_dependencyTitle Table.head?_dynamicColumns (by decide)
  have hempty : Table.dependencyTitle ≠ "" := by decide
  simp [htitle, hcolumns, hempty]

theorem lacks_indented {name : String} : Lacks '\n' ("  " ++ name) ↔ Lacks '\n' name := by
  have hblank : Lacks '\n' "  " := by decide
  rw [lacks_append, and_iff_right hblank]

theorem linePerDependency_iff {s : SectionHeader}
    (hs : dynamicSection? image.sections = some s) (hne : image.dependencies ≠ []) :
    LinePerDependency image ↔ (∀ name ∈ image.dependencies, Lacks '\n' name) ∧
      ∀ row ∈ image.dynamicRows, Table.dependencyTitle ∉ Lines.split row := by
  rw [LinePerDependency, Lines.split_render_dynamic hs hne, Lines.after_eq_iff,
    Lines.notMem_dynamic_iff, List.forall_mem_map, and_comm]
  simp only [lacks_indented]

/-- A row shows at most one of the names that are handed out. -/
theorem Table.exists_of_mem_dynamicRows {l : Linkage} {names : List String}
    {es : List DynamicEntry} {row : String} (h : row ∈ dynamicRows l names es) :
    ∃ e next, (∀ name ∈ next, name ∈ names) ∧ row = dynamicLead e ++ dynamicValue l next e := by
  induction es generalizing names with
  | nil => cases h
  | cons e es ih =>
    rw [dynamicRows] at h
    rcases List.mem_cons.1 h with rfl | h
    · exact ⟨e, names.head?, fun name hname => List.mem_of_head? hname, rfl⟩
    · obtain ⟨e', next, hnext, rfl⟩ := ih h
      refine ⟨e', next, fun name hname => ?_, rfl⟩
      have hmem := hnext name hname
      split at hmem
      · exact List.mem_of_mem_tail hmem
      · exact hmem

/-- Only a string of the file can bring a line end into the value of an entry. -/
theorem Table.lacks_dynamicValue {l : Linkage} {next : Option String} {e : DynamicEntry}
    (hnext : ∀ name ∈ next, Lacks '\n' name)
    (hkept : ∀ tag, ∀ text ∈ l.kept? tag, Lacks '\n' text) :
    Lacks '\n' (dynamicValue l next e) := by
  have hnumber := Hex.lacks_number outside_lineEnd e.value.toNat
  have hstring : ∀ label text, Lacks '\n' label → Lacks '\n' text →
      Lacks '\n' (label ++ text ++ "]") := by
    intro label text hlabel htext
    exact lacks_append.2 ⟨lacks_append.2 ⟨hlabel, htext⟩, by decide⟩
  have hgetD : ∀ tag, Lacks '\n' ((l.kept? tag).getD "") := by
    intro tag
    cases htext : l.kept? tag with
    | none => exact (by decide : Lacks '\n' "")
    | some text => exact hkept tag text htext
  unfold dynamicValue
  split
  · split
    · rename_i name
      exact hstring _ name (by decide) (hnext name rfl)
    · exact hnumber
  · exact hstring _ _ (by decide) (hgetD .soName)
  · exact hstring _ _ (by decide) (hgetD .rPath)
  · exact hstring _ _ (by decide) (hgetD .runPath)
  · exact lacks_append.2 ⟨outside_lineEnd.lacks_repr _, by decide⟩
  · exact hnumber

/-- Without a line end in any string of the dynamic section, no row looks like the title. -/
theorem Image.notMem_split_dynamicRows (hnames : ∀ name ∈ image.dependencies, Lacks '\n' name)
    (hkept : ∀ tag, ∀ text ∈ image.linkage.kept? tag, Lacks '\n' text) :
    ∀ row ∈ image.dynamicRows, Table.dependencyTitle ∉ Lines.split row := by
  intro row hrow
  obtain ⟨e, next, hnext, rfl⟩ := Table.exists_of_mem_dynamicRows hrow
  have hvalue := Table.lacks_dynamicValue (e := e) (fun name h => hnames name (hnext name h)) hkept
  rw [Lines.split_of_lacks (lacks_append.2 ⟨Table.lacks_dynamicLead e, hvalue⟩),
    List.mem_singleton]
  exact ne_of_head? Table.head?_dependencyTitle (Table.head?_dynamicLead e _) (by decide)

/-! ### Images -/

/-- **Rows are read as they were written** exactly if the names in them have no line end, for every
image that is decoded.  In the dynamic view it takes, besides, that no row has a line like the title
of the list, and that holds if no string of the dynamic section has a line end. -/
theorem line_per_row (d : Decoder) (image : Image) (h : d.decode.1 = .ok image) :
    (image.sections ≠ [] →
        (LinePerSection image ↔ ∀ name ∈ image.names, Lacks '\n' name)) ∧
      ((∃ s ∈ image.sections, s.type = SectionType.dynamic) → image.dependencies ≠ [] →
        (LinePerDependency image ↔ (∀ name ∈ image.dependencies, Lacks '\n' name) ∧
          ∀ row ∈ image.dynamicRows, Table.dependencyTitle ∉ Lines.split row) ∧
        ((∀ name ∈ image.dependencies, Lacks '\n' name) →
          (∀ tag, ∀ text ∈ image.linkage.kept? tag, Lacks '\n' text) →
            LinePerDependency image)) := by
  refine ⟨fun hne => linePerSection_iff hne (Decoder.length_names h), ?_⟩
  rintro ⟨s, hs, htype⟩ hne
  have hdynamic : dynamicSection? image.sections ≠ none := by
    rw [dynamicSection?, ne_eq, List.find?_eq_none]
    exact fun hno => hno s hs (beq_iff_eq.2 htype)
  obtain ⟨found, hfound⟩ := Option.ne_none_iff_exists'.1 hdynamic
  have hiff := linePerDependency_iff hfound hne
  refine ⟨hiff, fun hnames hkept => hiff.2 ⟨hnames, ?_⟩⟩
  exact Image.notMem_split_dynamicRows hnames hkept

/-- A program with three sections and two needed libraries, and no line end in any name. -/
theorem line_per_row_linked :
    (Decoder.decode { device := .ofBytes linkedFile }).1 = .ok linkedImage ∧
      LinePerSection linkedImage ∧ LinePerDependency linkedImage := by
  have hdecode : (Decoder.decode { device := .ofBytes linkedFile }).1 = .ok linkedImage :=
    decode_linkedFile
  obtain ⟨hsections, hdynamic⟩ :=
    line_per_row { device := .ofBytes linkedFile } linkedImage hdecode
  have hkept : ∀ tag, ∀ text ∈ linkedImage.linkage.kept? tag, Lacks '\n' text := by
    intro tag text htext
    cases tag <;> cases htext
    decide
  have hnames : ∀ name ∈ linkedImage.names, Lacks '\n' name := by
    simp [linkedImage, Lacks]
  have hneeded : ∀ name ∈ linkedImage.dependencies, Lacks '\n' name := by
    simp [linkedImage, Image.dependencies, Lacks]
  refine ⟨hdecode, (hsections (by decide)).2 hnames, ?_⟩
  exact (hdynamic ⟨linkedImage.sections[1], by decide, rfl⟩ (by decide)).2 hneeded hkept

/-- The image of a program in which the name of a section, and that of a needed library, has a line
end. -/
def forgedImage : Image where
  header := {
    ident := bareHeader.ident
    byteOrder := .little
    type := 3, machine := 62, version := 1, entry := 0, phoff := 0, shoff := 123, flags := 0
    ehsize := 64, phentsize := 56, phnum := 0, shentsize := 64, shnum := 3, shstrndx := 2 }
  sections := [
    { name := 0, type := 0, flags := 0, addr := 0, offset := 0, size := 0, link := 0, info := 0,
      addralign := 0, entsize := 0 },
    { name := 1, type := 6, flags := 3, addr := 0, offset := 64, size := 48, link := 2,
      info := 0, addralign := 8, entsize := 16 },
    { name := 0, type := 3, flags := 2, addr := 0x1000, offset := 112, size := 11, link := 0,
      info := 0, addralign := 1, entsize := 0 }]
  names := ["", "a\nb", ""]
  segments := []
  linkage := {
    entries := [⟨1, 5⟩, ⟨5, 0x1000⟩, ⟨0, 0⟩]
    needed := ["c\n  d"] }
  interpreter := none
  anomalies := []

/-- A file of that image. -/
def forgedFile : Bytes :=
  forgedImage.header.encode ++ Record.encodeAll .little forgedImage.linkage.entries ++
    Utf8.encode "\x00a\nb\x00c\n  d\x00" ++ Record.encodeAll .little forgedImage.sections

theorem decode_forgedFile : decode forgedFile = .ok forgedImage := by
  rw [decode_eq_outcome]
  decide +kernel

/-- **A name can forge a line**: the lines that are read are neither the rows of the sections nor
the names of the libraries. -/
theorem not_linePer_forged :
    decode forgedFile = .ok forgedImage ∧ forgedImage.sections ≠ [] ∧
      ¬ LinePerSection forgedImage ∧
      dynamicSection? forgedImage.sections = some forgedImage.sections[1] ∧
      forgedImage.dependencies ≠ [] ∧ ¬ LinePerDependency forgedImage := by
  have hsections : forgedImage.sections ≠ [] := by decide
  have hdependencies : forgedImage.dependencies ≠ [] := by decide
  refine ⟨decode_forgedFile, hsections, fun hlines => ?_, rfl, hdependencies, fun hlines => ?_⟩
  · have hnames := (linePerSection_iff hsections rfl).1 hlines
    exact absurd (hnames "a\nb" (by decide)) (by decide)
  · have hnames := ((linePerDependency_iff rfl hdependencies).1 hlines).1
    exact absurd (hnames "c\n  d" (by decide)) (by decide)

end ElfAnatomy
