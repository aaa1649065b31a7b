import ElfAnatomy.Proofs.Dependencies

/-!
# Where section names and the interpreter path come from

Every name that an image gives a section, and the path of its interpreter, stand in the file with a
NUL after them: the names in the section that holds names, the path at the start of its segment.

* `TextUpTo` : a string in the file, with the offset that it must not run past.
* `NamedFrom` : the name of a section, in the section that holds names.
* `NamesTraced`, `InterpreterTraced` : where the strings of an image come from.
* `strings_traced` : **the strings of every decoded file are traced like that.**

The strings of the dynamic section are traced in `ElfAnatomy.Proofs.Dependencies`.
-/

namespace ElfAnatomy

variable {data : Bytes} {sections : List SectionHeader} {segments : List ProgramHeader}

/-- The text stands in the file at `offset`: its bytes and a NUL, all of them before `stop`. -/
structure TextUpTo (data : Bytes) (offset stop : Nat) (text : String) : Prop where
  noNul : '\x00' ∉ text.toList
  bytes : data.slice? offset ((Utf8.encode text).length + 1) = some (Utf8.encode text ++ [0])
  inside : offset + (Utf8.encode text).length + 1 ≤ stop

/-- The name of the section stands in `holder`, at the offset that the section gives.  An inactive
entry without a name has the empty one. -/
def NamedFrom (data : Bytes) (holder s : SectionHeader) (name : String) : Prop :=
  if s.type = SectionType.null ∧ s.name = 0 then name = ""
  else TextUpTo data (holder.offset.toNat + s.name.toNat)
    (holder.offset.toNat + holder.size.toNat) name

/-- Every section has its name from the section with index `k`, or the empty one if `k` is zero. -/
structure NamesTraced (data : Bytes) (sections : List SectionHeader) (k : Nat)
    (names : List String) : Prop where
  length : names.length = sections.length
  unnamed : k = 0 → ∀ name ∈ names, name = ""
  named : k ≠ 0 → ∃ hk : k < sections.length,
    List.Forall₂ (NamedFrom data sections[k]) sections names

/-- The path of the interpreter stands at the start of the first segment that is to hold one. -/
structure InterpreterTraced (data : Bytes) (segments : List ProgramHeader)
    (path? : Option String) : Prop where
  isSome_iff : path?.isSome ↔ ∃ p ∈ segments, p.type = SegmentType.interp
  first : Option.Rel
    (fun (p : ProgramHeader) path => TextUpTo data p.offset.toNat
      (p.offset.toNat + p.filesz.toNat) path)
    (segments.find? fun p => p.type == SegmentType.interp) path?

/-! ### From a table to the file -/

/-- A string of a table that has been cut out of the file stands in that part of the file. -/
theorem textUpTo_of_holds {start size offset : Nat} {text : String}
    (h : StringTable.Holds ⟨(data.drop start).take size⟩ offset text) :
    TextUpTo data (start + offset) (start + size) text := by
  obtain ⟨hle, hslice⟩ := Bytes.slice?_of_take h.slice?
  refine ⟨fun hnul => h.1 (Utf8.zero_mem_encode_iff.2 hnul), ?_, by omega⟩
  exact Bytes.slice?_of_drop (Nat.succ_pos _) hslice

/-- A section without bytes in the file holds no string, not even the empty one. -/
theorem StringTable.not_holds_nil (offset : Nat) (text : String) : ¬ Holds ⟨[]⟩ offset text := by
  rintro ⟨-, before, after, -, hbytes⟩
  simp at hbytes

theorem namedFrom_of_nameOf {holder s : SectionHeader} {name : String}
    (h : NameOf ⟨holder.bytesIn data⟩ s name) : NamedFrom data holder s name := by
  obtain ⟨htype, hname⟩ | ⟨_, hs, htext⟩ := h
  · rw [NamedFrom, if_pos ⟨htype, hname⟩]
  · rw [NamedFrom, if_neg hs]
    unfold SectionHeader.bytesIn at htext
    split at htext
    · exact textUpTo_of_holds htext
    · exact absurd htext (StringTable.not_holds_nil _ _)

/-! ### Images -/

theorem namesTraced_of_namesIn {k : Nat} {names : List String}
    (h : NamesIn data sections k names) : NamesTraced data sections k names := by
  obtain hk | ⟨hk, holder, hh, _, hnames⟩ := h
  · exact {
      length := List.length_map _
      unnamed := by simp
      named := fun hne => absurd hk hne }
  · obtain ⟨hlt, rfl⟩ := List.getElem?_eq_some_iff.1 hh
    exact {
      length := hnames.length_eq.symm
      unnamed := fun hzero => absurd hzero hk
      named := fun _ => ⟨hlt, hnames.imp fun _ _ => namedFrom_of_nameOf⟩ }

theorem interpreterTraced_of_interpreterIn {path? : Option String}
    (h : InterpreterIn data segments path?) : InterpreterTraced data segments path? := by
  obtain hno | ⟨p, hp, -, path, hpath⟩ := h
  · have hnone : (segments.find? fun p => p.type == SegmentType.interp) = none := by
      simpa using hno
    refine ⟨?_, ?_⟩
    · simpa using hno
    · rw [hnone]
      exact .none
  · have htype := List.find?_some hp
    refine ⟨?_, ?_⟩
    · simp only [Option.isSome_some, true_iff]
      exact ⟨p, List.mem_of_find?_eq_some hp, beq_iff_eq.1 htype⟩
    · rw [hp]
      exact .some (textUpTo_of_holds hpath)

/-- **Section names and the interpreter path have their place in the file.**  The index of the
section that holds the names is the one that the file header gives, or leaves to the first section
header. -/
theorem strings_traced (data : Bytes) (image : Image) (h : decode data = .ok image) :
    ∃ k, NamesIndex data image.header k ∧ NamesTraced data image.sections k image.names ∧
      InterpreterTraced data image.segments image.interpreter := by
  have hin := imageIn_of_decode h
  obtain ⟨k, hindex, hnames⟩ := hin.names
  exact ⟨k, hindex, namesTraced_of_namesIn hnames,
    interpreterTraced_of_interpreterIn hin.interpreter⟩

/-- Three sections, two of them with names, and an interpreter. -/
theorem strings_traced_sample :
    decode linkedFile = .ok linkedImage ∧
      ∃ k, NamesIndex linkedFile linkedImage.header k ∧
        NamesTraced linkedFile linkedImage.sections k ["", ".dynamic", ".dynstr"] ∧
        InterpreterTraced linkedFile linkedImage.segments (some "/ld") :=
  ⟨decode_linkedFile, strings_traced linkedFile linkedImage decode_linkedFile⟩

end ElfAnatomy
