import ElfAnatomy.Proofs.Measured
import ElfAnatomy.Proofs.ReportReading
import ElfAnatomy.Proofs.TextLines

/-!
# The needed libraries in the dynamic view

The names of needed libraries are handed out to their entries while the rows are written.  A decoded
file has one name for each of these entries, so every entry gets its own name, and the hand-out ends
with the last one.

* `Table.namesLeft` : the names that are left after some entries have taken theirs.
* `Table.dynamicRows_append` : a table is written entry by entry, with the names that are left.
* `DependenciesShown` : how the dynamic view and the report show the needed libraries.
* `dependencies_shown` : **they are shown alike**, for every image that is decoded.
-/

namespace ElfAnatomy

namespace Table

/-! ### The hand-out of names -/

/-- How many of the entries name a needed library. -/
def neededCount (es : List DynamicEntry) : Nat := es.countP fun e => e.tag == .needed

/-- The names that are left after the entries have taken theirs. -/
def namesLeft : List String → List DynamicEntry → List String
  | names, [] => names
  | names, e :: es => namesLeft (if e.tag = .needed then names.tail else names) es

variable {l : Linkage} {names : List String} {e : DynamicEntry}

theorem namesLeft_eq_drop (names : List String) (es : List DynamicEntry) :
    namesLeft names es = names.drop (neededCount es) := by
  induction es generalizing names with
  | nil => rfl
  | cons e es ih =>
    rw [namesLeft, ih, neededCount, neededCount, List.countP_cons]
    by_cases he : e.tag = .needed
    · simp [he, Nat.add_comm]
    · simp [he]

theorem length_dynamicRows (l : Linkage) (names : List String) (es : List DynamicEntry) :
    (dynamicRows l names es).length = es.length := by
  induction es generalizing names with
  | nil => rfl
  | cons e es ih => rw [dynamicRows, List.length_cons, ih, List.length_cons]

/-- **A table goes on with the names that are left.** -/
theorem dynamicRows_append (l : Linkage) (names : List String) (es later : List DynamicEntry) :
    dynamicRows l names (es ++ later) =
      dynamicRows l names es ++ dynamicRows l (namesLeft names es) later := by
  induction es generalizing names with
  | nil => rfl
  | cons e es ih => rw [List.cons_append, dynamicRows, ih, dynamicRows, namesLeft, List.cons_append]

/-- The row of an entry shows, if anything, the name of the same rank. -/
theorem getElem?_dynamicRows (l : Linkage) (names : List String) (before : List DynamicEntry)
    (e : DynamicEntry) (later : List DynamicEntry) :
    (dynamicRows l names (before ++ e :: later))[before.length]? =
      some (dynamicLead e ++ dynamicValue l names[neededCount before]? e) := by
  have hrow : before.length - (dynamicRows l names before).length = 0 := by
    rw [length_dynamicRows, Nat.sub_self]
  rw [dynamicRows_append, List.getElem?_append_right (length_dynamicRows l names before).le, hrow,
    dynamicRows, List.getElem?_cons_zero, namesLeft_eq_drop, List.head?_drop]

/-- Only the entries of needed libraries show a name that is handed out. -/
theorem dynamicValue_of_ne_needed (he : e.tag ≠ .needed) (next : Option String) :
    dynamicValue l next e = dynamicValue l none e := by
  unfold dynamicValue
  split
  · exact absurd ‹_› he
  all_goals rfl

/-! ### The text -/

/-- The title of the dynamic view. -/
def dynamicTitle (s : SectionHeader) (count : Nat) : String :=
  "Dynamic section at offset " ++ Hex.number s.offset.toNat ++ " contains " ++ count.repr
    ++ " entries:"

/-- The title of the list of needed libraries. -/
def dependencyTitle : String := "Shared library dependencies:"

/-- What is shown of the needed libraries after the rows. -/
def dependencyList (names : List String) : List String :=
  if names = [] then ["No shared library dependencies."]
  else dependencyTitle :: names.map fun name => "  " ++ name

/-- What is shown of a file without a dynamic section. -/
def noDynamicSection : String := "There is no dynamic section in this file."

theorem dynamic_of_section {image : Image} {s : SectionHeader}
    (hs : dynamicSection? image.sections = some s) :
    dynamic image = dynamicTitle s image.linkage.entries.length :: dynamicColumns ::
      dynamicRows image.linkage image.dependencies image.linkage.entries ++
      "" :: dependencyList image.dependencies := by
  rw [← Linkage.map_snd_section?, Option.map_eq_some_iff] at hs
  obtain ⟨⟨index, _⟩, hs, rfl⟩ := hs
  rw [dynamic, hs]
  rfl

theorem dynamic_of_no_section {image : Image} (hno : dynamicSection? image.sections = none) :
    dynamic image = [noDynamicSection] := by
  rw [← Linkage.map_snd_section?, Option.map_eq_none_iff] at hno
  rw [dynamic, hno]
  rfl

end Table

theorem Decoded.render_dynamic (image : Image) :
    (Decoded.full image).render { dynamic := true } = Lines.text (Table.dynamic image) :=
  render_of_tables rfl

/-! ### Images -/

/-- How the dynamic view of an image, whose dynamic section is `s`, shows the needed libraries: the
view has a title, these rows, and a list of the libraries. -/
structure DependenciesShown (image : Image) (s : SectionHeader) (rows : List String) : Prop where
  /-- The title announces all entries, and the list after the rows has all needed libraries. -/
  view : (Decoded.full image).render { dynamic := true } = Lines.text
    (Table.dynamicTitle s image.linkage.entries.length :: Table.dynamicColumns :: rows ++
      "" :: Table.dependencyList image.dependencies)
  /-- There is a row for each entry. -/
  length : rows.length = image.linkage.entries.length
  /-- The row of an entry of a needed library shows the name of the same rank, -/
  needed : ∀ before e later, image.linkage.entries = before ++ e :: later → e.tag = .needed →
    ∃ name, image.dependencies[Table.neededCount before]? = some name ∧
      rows[before.length]? = some (Table.dynamicLead e ++ ("Shared library: [" ++ name ++ "]"))
  /-- and the row of any other entry shows none of the names. -/
  others : ∀ before e later, image.linkage.entries = before ++ e :: later → e.tag ≠ .needed →
    rows[before.length]? =
      some (Table.dynamicLead e ++ Table.dynamicValue image.linkage none e)
  /-- There are as many names as these entries, so none is left at the end. -/
  count : image.dependencies.length = Table.neededCount image.linkage.entries
  left : Table.namesLeft image.dependencies image.linkage.entries = []
  /-- The report has a list of the same names, whoever writes it. -/
  report : ∀ write, Json.Writes write → ∀ path views document, views.dynamic = true →
    Json.Document (Report.writtenBy write path (.full image) views) document →
      ((document.field? "dynamic").bind fun j => j.required? "needed" (Json.list? Json.text?)) =
        some image.dependencies

/-- There is one name for each entry of a needed library. -/
theorem LinkageIn.length_needed {data : Bytes} {order : ByteOrder} {sections : List SectionHeader}
    {l : Linkage} (h : LinkageIn data order sections l) :
    l.needed.length = Table.neededCount l.entries := by
  cases hs : dynamicSection? sections with
  | none =>
    rw [h.eq_empty hs]
    rfl
  | some s =>
    have htraced := Linkage.traced_of_linkageIn h hs
    rw [Table.neededCount, List.countP_eq_length_filter, htraced.needed.length_eq]

theorem Decoder.length_dependencies {d : Decoder} {image : Image} (h : d.decode.1 = .ok image) :
    image.dependencies.length = Table.neededCount image.linkage.entries := by
  obtain ⟨whole, hwhole⟩ := exists_decode_of_ok h
  exact (imageIn_of_decode hwhole).linkage.length_needed

/-- The list of needed libraries in a report. -/
theorem Report.needed_of_document {write : Json → String} (hwrite : Json.Writes write)
    {image : Image} {path : String} {views : Views} {document : Json} (hview : views.dynamic = true)
    (hdocument : Json.Document (writtenBy write path (.full image) views) document) :
    ((document.field? "dynamic").bind fun j => j.required? "needed" (Json.list? Json.text?)) =
      some image.dependencies := by
  rw [hdocument.unique (hwrite _), field?_dynamic, Decoded.inView, if_pos hview]
  exact Json.list?_text image.dependencies

theorem dependenciesShown_of_length {image : Image} {s : SectionHeader}
    (hs : dynamicSection? image.sections = some s)
    (hlength : image.dependencies.length = Table.neededCount image.linkage.entries) :
    DependenciesShown image s
      (Table.dynamicRows image.linkage image.dependencies image.linkage.entries) where
  view := by rw [Decoded.render_dynamic, Table.dynamic_of_section hs]
  length := Table.length_dynamicRows ..
  needed := by
    intro before e later hentries he
    have hrank : Table.neededCount before < image.dependencies.length := by
      rw [hlength, hentries, Table.neededCount, Table.neededCount, List.countP_append,
        List.countP_cons_of_pos (by simp [he])]
      omega
    refine ⟨image.dependencies[Table.neededCount before], List.getElem?_eq_getElem hrank, ?_⟩
    rw [hentries, Table.getElem?_dynamicRows, List.getElem?_eq_getElem hrank, Table.dynamicValue, he]
  others := by
    intro before e later hentries he
    rw [hentries, Table.getElem?_dynamicRows, Table.dynamicValue_of_ne_needed he]
  count := hlength
  left := by rw [Table.namesLeft_eq_drop, ← hlength, List.drop_length]
  report := fun _ hwrite _ _ _ => Report.needed_of_document hwrite

theorem Table.head?_dynamicTitle (s : SectionHeader) (count : Nat) (rest : String) :
    (dynamicTitle s count ++ rest).toList.head? = some 'D' := by
  have hword : "Dynamic section at offset ".toList.head? = some 'D' := by decide
  unfold dynamicTitle
  simp only [String.toList_append, List.head?_append, hword, Option.some_or]

/-- A view says from its first character on whether there is a dynamic section. -/
theorem Decoded.render_dynamic_eq_iff (image : Image) :
    (Decoded.full image).render { dynamic := true } = Table.noDynamicSection ++ "\n" ↔
      dynamicSection? image.sections = none := by
  rw [render_dynamic]
  cases hs : dynamicSection? image.sections with
  | none =>
    have htext : Lines.text (Table.dynamic image) = Table.noDynamicSection ++ "\n" := by
      rw [Table.dynamic_of_no_section hs, Lines.text_singleton]
    exact iff_of_true htext rfl
  | some s =>
    rw [Table.dynamic_of_section hs, List.cons_append, Lines.text_cons, String.append_assoc]
    have hword : (Table.noDynamicSection ++ "\n").toList.head? = some 'T' := by decide
    refine iff_of_false ?_ (by simp)
    exact ne_of_head? (Table.head?_dynamicTitle s image.linkage.entries.length _) hword (by decide)

/-- **The needed libraries are shown alike**, in the rows of their entries, in the list after the
rows and in the report, for every image that is decoded.  Without a dynamic section the view says
so, and there are no libraries. -/
theorem dependencies_shown (d : Decoder) (image : Image) (h : d.decode.1 = .ok image) :
    ((Decoded.full image).render { dynamic := true } = Table.noDynamicSection ++ "\n" ↔
        ∀ s ∈ image.sections, s.type ≠ SectionType.dynamic) ∧
      ((∀ s ∈ image.sections, s.type ≠ SectionType.dynamic) →
        image.linkage.entries = [] ∧ image.dependencies = []) ∧
      ∀ s, dynamicSection? image.sections = some s → ∃ rows, DependenciesShown image s rows := by
  have hnone : dynamicSection? image.sections = none ↔
      ∀ s ∈ image.sections, s.type ≠ SectionType.dynamic := by
    simp [dynamicSection?]
  refine ⟨(Decoded.render_dynamic_eq_iff image).trans hnone, ?_, ?_⟩
  · intro hno
    obtain ⟨whole, hwhole⟩ := Decoder.exists_decode_of_ok h
    have hempty := (imageIn_of_decode hwhole).linkage.eq_empty (hnone.2 hno)
    rw [Image.dependencies, hempty]
    exact ⟨rfl, rfl⟩
  · intro s hs
    exact ⟨_, dependenciesShown_of_length hs (Decoder.length_dependencies h)⟩

/-- A program that needs one library twice, and has a name of its own between the two entries. -/
theorem dependencies_shown_sample :
    (Decoder.decode { device := .ofBytes linkedFile }).1 = .ok linkedImage ∧
      ∃ s rows, dynamicSection? linkedImage.sections = some s ∧
        DependenciesShown linkedImage s rows ∧
        rows[2]? = some "  0x0000000000000001 (NEEDED)             Shared library: [é.so]" := by
  have hdecode : (Decoder.decode { device := .ofBytes linkedFile }).1 = .ok linkedImage :=
    decode_linkedFile
  obtain ⟨rows, hrows⟩ := (dependencies_shown { device := .ofBytes linkedFile } linkedImage
    hdecode).2.2 linkedImage.sections[1] rfl
  refine ⟨hdecode, _, rows, rfl, hrows, ?_⟩
  obtain ⟨name, hname, hrow⟩ := hrows.needed [⟨1, 8⟩, ⟨14, 14⟩] ⟨1, 8⟩
    [⟨5, 0x200a⟩, ⟨10, 17⟩, ⟨0, 0⟩] rfl rfl
  cases hname
  refine hrow.trans ?_
  decide +kernel

end ElfAnatomy
