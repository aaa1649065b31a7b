import ElfAnatomy.Proofs.Kinds

/-!
# Fields inside their records

A field is read at a fixed place of its record, so the bytes must be long enough.  They always
are: no run ends since a field was asked for outside its record, whatever the device does.  The
plans of the library fail in other ways only, and those that follow the header in fewer ones than
the header.

* `Plan.Ends` : what holds of every end of a plan, whatever the answers to its questions are.
* `Plan.FailsIn` : the kinds of the causes at these ends.
* `FileHeader.failsIn_readStaged`, `Image.failsIn_read` and so on : **the kinds for every plan of
  the library**.
* `StaysInside` : a result that no field outside its record has led to (`Plan.staysInside_run`).
* `Image.length_names_of_run` : an image has as many names as sections, whatever it was read from.
-/

namespace ElfAnatomy

/-! ### Ends of a plan -/

namespace Plan

variable {α β : Type} {P : Except DecodeError α → Prop} {p : Plan α}

/-- Every end of the plan satisfies `P`, whatever the answers to its questions are. -/
def Ends (P : Except DecodeError α → Prop) : Plan α → Prop
  | done result => P result
  | askLength next => ∀ n, (next n).Ends P
  | fetch _ next => ∀ bytes, (next bytes).Ends P
  | reach _ next => next.Ends P

theorem ends_of_forall (h : ∀ result, P result) (p : Plan α) : p.Ends P := by
  induction p with
  | done result => exact h result
  | askLength next ih => exact ih
  | fetch region next ih => exact ih
  | reach stage next ih => exact ih

theorem Ends.mono {Q : Except DecodeError α → Prop} (h : p.Ends P)
    (hPQ : ∀ result, P result → Q result) : p.Ends Q := by
  induction p with
  | done result => exact hPQ result h
  | askLength next ih => exact fun n => ih n (h n)
  | fetch region next ih => exact fun bytes => ih bytes (h bytes)
  | reach stage next ih => exact ih h

/-- The ends of two plans, one after the other, are those of the second one and the failures of
the first one. -/
theorem Ends.bind {f : α → Plan β} {Q : Except DecodeError β → Prop} (h : p.Ends P)
    (hok : ∀ a, P (.ok a) → (f a).Ends Q) (herror : ∀ e, P (.error e) → Q (.error e)) :
    (p.bind f).Ends Q := by
  induction p with
  | done result =>
    cases result with
    | ok a => exact hok a h
    | error e => exact herror e h
  | askLength next ih => exact fun n => ih n (h n)
  | fetch region next ih => exact fun bytes => ih bytes (h bytes)
  | reach stage next ih => exact ih h

/-- A result of two plans, one after the other, is a result of the second one. -/
theorem ends_bind_of_forall {f : α → Plan β} {Q : β → Prop}
    (hf : ∀ a, (f a).Ends fun result => ∀ b, result = .ok b → Q b) :
    (p.bind f).Ends fun result => ∀ b, result = .ok b → Q b :=
  (ends_of_forall (P := fun _ => True) (fun _ => trivial) p).bind (fun a _ => hf a)
    fun _ _ => nofun

/-- A run gives an end of the plan, or fails as one of its regions does. -/
theorem run_of_ends (h : p.Ends P) (now : Progress) :
    P (p.run now).1 ∨ ∃ (s : Source) (r : Region) (e : DecodeError),
      (s.fetch r).1 = .error e ∧ (p.run now).1 = .error e := by
  induction p generalizing now with
  | done result => exact .inl h
  | askLength next ih => exact ih _ (h _) now
  | fetch region next ih =>
    unfold run
    split
    · rename_i e after hf
      exact .inr ⟨_, region, e, congrArg Prod.fst hf, rfl⟩
    · exact ih _ (h _) _
  | reach stage next ih => exact ih h _

end Plan

/-! ### Kinds of causes at the ends -/

namespace Plan

variable {α β : Type} {p : Plan α} {kinds : List CauseKind}

/-- The causes that the plan finds, whatever the answers to its questions are, are of these kinds.
A region that is not delivered ends a run, too, but it is not the plan that finds this out. -/
def FailsIn (kinds : List CauseKind) (p : Plan α) : Prop := p.Ends (Gives (fun _ => True) kinds)

theorem FailsIn.bind {f : α → Plan β} (hp : p.FailsIn kinds) (hf : ∀ a, (f a).FailsIn kinds) :
    (p.bind f).FailsIn kinds :=
  Ends.bind hp (fun a _ => hf a) fun _ => id

theorem FailsIn.of_subset {kinds' : List CauseKind} (hp : p.FailsIn kinds)
    (hkinds : kinds ⊆ kinds') : p.FailsIn kinds' :=
  Ends.mono hp fun _ h => h.of_subset hkinds

/-- A step without questions. -/
theorem failsIn_done {A : α → Prop} {kinds' : List CauseKind} {x : Except DecodeError α}
    (h : Gives A kinds x) (hkinds : kinds ⊆ kinds') : (done x).FailsIn kinds' :=
  h.mono (fun _ _ => trivial) hkinds

theorem failsIn_ok (a : α) : (done (.ok a)).FailsIn kinds := trivial

theorem failsIn_length : length.FailsIn kinds := fun _ => trivial

theorem failsIn_read (r : Region) : (read r).FailsIn kinds := fun _ => trivial

theorem failsIn_reached (stage : Stage) : (reached stage).FailsIn kinds := trivial

theorem failsIn_leading (max : Nat) : (leading max).FailsIn kinds :=
  failsIn_length.bind fun _ => failsIn_read _

/-- The bytes of a table are taken in whole blocks, so no field of a record is missing. -/
theorem failsIn_table (α : Type) [Record α] [LawfulRecord α] (order : ByteOrder)
    (offset count entrySize : UInt64) :
    (table α order offset count entrySize).FailsIn CauseKind.malformed := by
  have hkind : [CauseKind.layoutMismatch (Record.kind α)] ⊆ CauseKind.malformed := by
    cases Record.kind α <;> decide
  refine (failsIn_done gives_require hkind).bind fun _ => ?_
  refine failsIn_length.bind fun length => ?_
  refine (failsIn_done (Region.gives_table ..) (by decide)).bind fun region => ?_
  refine (failsIn_read _).bind fun bytes => ?_
  exact failsIn_done (gives_parseAll? order bytes []) (by simp)

end Plan

open Plan

/-! ### The header -/

namespace FileHeader

/-- Reading the header at once. -/
theorem failsIn_read : read.FailsIn (CauseKind.foreign ++ CauseKind.malformed) := by
  refine (failsIn_leading _).bind fun start => ?_
  refine (failsIn_done (gives_parse start) (by decide)).bind fun header => ?_
  refine failsIn_length.bind fun length => ?_
  refine (failsIn_done (gives_checkTables header length) (by decide)).bind fun _ => ?_
  exact failsIn_ok _

theorem failsIn_readStaged : readStaged.FailsIn (CauseKind.foreign ++ CauseKind.malformed) := by
  refine (failsIn_leading _).bind fun start => ?_
  refine (failsIn_done (gives_checkSignature start) (by decide)).bind fun _ => ?_
  refine (failsIn_reached _).bind fun _ => ?_
  refine (failsIn_done (FileClass.gives_ofStart start) (by decide)).bind fun c => ?_
  refine (failsIn_done c.gives_require64 (by decide)).bind fun _ => ?_
  refine (failsIn_reached _).bind fun _ => ?_
  refine (failsIn_done (gives_parseFields start) (by decide)).bind fun header => ?_
  refine failsIn_length.bind fun length => ?_
  refine (failsIn_done (gives_checkTables header length) (by decide)).bind fun _ => ?_
  exact (failsIn_reached _).bind fun _ => failsIn_ok _

end FileHeader

/-! ### Whatever comes after the header -/

theorem SectionHeader.failsIn_contents {kinds : List CauseKind} (s : SectionHeader) :
    s.contents.FailsIn kinds := by
  unfold contents
  split
  · exact failsIn_read _
  · exact failsIn_ok _

namespace SectionTable

theorem failsIn_readFirst (h : FileHeader) : (readFirst h).FailsIn CauseKind.malformed := by
  unfold readFirst
  split
  · exact (failsIn_table ..).bind fun _ => failsIn_ok _
  · exact failsIn_ok _

theorem failsIn_read (h : FileHeader) : (read h).FailsIn CauseKind.malformed := by
  unfold read
  split
  · refine (failsIn_readFirst h).bind fun first? => ?_
    exact (failsIn_table ..).bind fun _ => failsIn_ok _
  · exact failsIn_ok _

theorem failsIn_readNames (t : SectionTable) : t.readNames.FailsIn CauseKind.malformed := by
  unfold readNames
  split
  · exact failsIn_ok _
  · split
    · simp [FailsIn, Ends, CauseKind.malformed]
    · refine (SectionHeader.failsIn_contents _).bind fun bytes => ?_
      exact failsIn_done (gives_mapM t.headers fun s => gives_nameOf ⟨bytes⟩ s)
        CauseKind.strings_subset_malformed

end SectionTable

namespace Linkage

theorem failsIn_readEntries (order : ByteOrder) (s : SectionHeader) :
    (readEntries order s).FailsIn CauseKind.malformed := by
  refine (failsIn_done gives_require (by simp [CauseKind.malformed])).bind fun _ => ?_
  refine failsIn_length.bind fun _ => ?_
  refine (failsIn_done gives_require (by simp [CauseKind.malformed])).bind fun _ => ?_
  exact (failsIn_table ..).bind fun _ => failsIn_ok _

theorem failsIn_readStrings (sections : List SectionHeader) (entries : List DynamicEntry) :
    (readStrings sections entries).FailsIn CauseKind.malformed := by
  unfold readStrings
  split
  · simp [FailsIn, Ends, CauseKind.malformed]
  · split
    · simp [FailsIn, Ends, CauseKind.malformed]
    · exact (SectionHeader.failsIn_contents _).bind fun _ => failsIn_ok _

theorem failsIn_read (order : ByteOrder) (sections : List SectionHeader) :
    (read order sections).FailsIn CauseKind.malformed := by
  unfold read
  split
  · exact failsIn_ok _
  · refine (failsIn_readEntries order _).bind fun entries => ?_
    split
    · refine (failsIn_readStrings sections entries).bind fun strings => ?_
      have hstrings := gives_resolveAll strings entries
      refine (failsIn_done hstrings CauseKind.strings_subset_malformed).bind fun _ => ?_
      exact failsIn_ok _
    · exact failsIn_ok _

end Linkage

namespace Image

theorem failsIn_readSegments (h : FileHeader) (sections : List SectionHeader) :
    (readSegments h sections).FailsIn CauseKind.malformed := by
  simp only [readSegments]
  split
  · exact failsIn_ok _
  · exact failsIn_table ..

theorem failsIn_readInterpreter (segments : List ProgramHeader) :
    (readInterpreter segments).FailsIn CauseKind.malformed := by
  unfold readInterpreter
  split
  · exact failsIn_ok _
  · refine (Plan.failsIn_read _).bind fun bytes => ?_
    have hpath := StringTable.gives_resolve ⟨bytes⟩ 0
    refine (failsIn_done hpath CauseKind.strings_subset_malformed).bind fun _ => ?_
    exact failsIn_ok _

/-- **Decoding everything goes on after the header, and finds malformed files only.** -/
theorem exists_failsIn_read :
    ∃ rest : FileHeader → Plan Image, read = FileHeader.readStaged.bind rest ∧
      ∀ h, (rest h).FailsIn CauseKind.malformed := by
  refine ⟨_, rfl, fun h => ?_⟩
  refine (SectionTable.failsIn_read h).bind fun table => ?_
  refine (failsIn_readSegments h table.headers).bind fun segments => ?_
  refine failsIn_length.bind fun length => ?_
  refine (failsIn_done (gives_checkSections _ length) (by decide)).bind fun _ => ?_
  refine (failsIn_reached _).bind fun _ => ?_
  refine table.failsIn_readNames.bind fun names => ?_
  refine (failsIn_reached _).bind fun _ => ?_
  refine (failsIn_readInterpreter segments).bind fun interpreter => ?_
  refine (Linkage.failsIn_read _ _).bind fun linkage => ?_
  exact (failsIn_reached _).bind fun _ => failsIn_ok _

theorem failsIn_read : read.FailsIn (CauseKind.foreign ++ CauseKind.malformed) := by
  obtain ⟨rest, hread, hrest⟩ := exists_failsIn_read
  rw [hread]
  exact FileHeader.failsIn_readStaged.bind fun h =>
    (hrest h).of_subset (List.subset_append_right _ _)

end Image

/-! ### Fields -/

/-- No field was asked for outside its record. -/
def StaysInside {α : Type} (result : Except DecodeError α) : Prop := result ≠ .error .fieldOutside

theorem Source.fetch_staysInside (s : Source) (r : Region) : StaysInside (s.fetch r).1 := by
  unfold fetch StaysInside
  split
  · rename_i hcheck
    obtain ⟨-, rfl⟩ := Region.check_eq_error_iff.1 hcheck
    simp
  · split
    · simp
    · split <;> simp

theorem StaysInside.map {α β : Type} {x : Except DecodeError α} {f : α → β} (hx : StaysInside x) :
    StaysInside (x.map f) := fun h => hx (map_eq_error_iff.1 h)

namespace Plan

variable {α : Type} {p : Plan α}

/-- None of the kinds that the library knows is that of a field outside its record. -/
theorem FailsIn.staysInside (hp : p.FailsIn (CauseKind.foreign ++ CauseKind.malformed)) :
    p.Ends StaysInside := by
  refine hp.mono ?_
  rintro _ hgives rfl
  exact CauseKind.fieldOutside_notMem hgives

/-- A run of a plan that stays inside does so on every source. -/
theorem staysInside_run (hp : p.Ends StaysInside) (now : Progress) :
    StaysInside (p.run now).1 := by
  rcases run_of_ends hp now with h | ⟨s, r, e, hf, h⟩
  · exact h
  · rw [h]
    intro heq
    cases heq
    exact s.fetch_staysInside r hf

end Plan

namespace Image

/-! ### Names -/

/-- There are as many names as sections, if the names are read at all. -/
theorem length_readNames (t : SectionTable) :
    t.readNames.Ends fun result => ∀ names, result = .ok names →
      names.length = t.headers.length := by
  unfold SectionTable.readNames
  split
  · rintro _ ⟨⟩
    rw [List.length_map]
  · split
    · nofun
    · refine (ends_of_forall (P := fun _ => True) (fun _ => trivial) _).bind (fun bytes _ => ?_)
        fun _ _ => nofun
      intro names h
      exact (mapM_eq_ok_iff.1 h).length_eq.symm

/-- An image has as many names as sections. -/
theorem length_names :
    read.Ends fun result => ∀ image, result = .ok image →
      image.names.length = image.sections.length := by
  -- only the reading of the names has a say in how many there are
  refine ends_bind_of_forall fun header => ends_bind_of_forall fun table =>
    ends_bind_of_forall fun segments => ends_bind_of_forall fun length =>
    ends_bind_of_forall fun _ => ends_bind_of_forall fun _ => ?_
  refine (length_readNames table).bind (fun names hnames => ?_) fun _ _ => nofun
  refine ends_bind_of_forall fun _ => ends_bind_of_forall fun interpreter =>
    ends_bind_of_forall fun linkage => ends_bind_of_forall fun _ => ?_
  rintro _ ⟨⟩
  exact hnames names rfl

/-- **An image that any run has read has as many names as sections.** -/
theorem length_names_of_run {now : Progress} {image : Image} (h : (read.run now).1 = .ok image) :
    image.names.length = image.sections.length := by
  rcases run_of_ends length_names now with hend | ⟨_, _, e, -, he⟩
  · exact hend image h
  · rw [h] at he
    cases he

end Image

end ElfAnatomy
