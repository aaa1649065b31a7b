import ElfAnatomy.Proofs.Causes
import ElfAnatomy.Proofs.Depths

/-!
# Which causes a run can fail with at a stage

A run notes the stages that it completes, so the stage at which it stops tells what it was about
to do.  That leaves few causes, and the fewer since each stage has made sure of something for the
stages after it.

* `Stage.kinds` : the kinds of causes at each stage.
* `Plan.Explained` : a run fits the stage at which it ends.
* `FileHeader.explained_readStaged`, `Image.explained_read` : the runs at either depth.
* `Image.readSections`, `Image.readTables` : the parts of a run that read the tables.
* `TablesRefused`, `exists_tablesRefused` : which of these parts has failed.
* `FitsStage`, `fitsStage_of_error` : **a failed run fits its stage**.
-/

namespace ElfAnatomy

/-- The kinds of causes with which a run can fail, given the stage that it completed last. -/
def Stage.kinds : Stage → List CauseKind
  | unopened => [.notElf, .device]
  | magicChecked => [.unsupportedClass, .truncatedTable]
  | classChecked => [.truncatedTable, .unsupportedEncoding, .layoutMismatch .programHeader,
      .layoutMismatch .sectionHeader]
  | headerDecoded => [.truncatedTable, .badSectionIndex, .device]
  | tablesDecoded => [.badSectionIndex, .offsetOutOfRange, .unterminatedString, .invalidUtf8,
      .device]
  | namesResolved => [.truncatedTable, .layoutMismatch .dynamicEntry, .offsetOutOfRange,
      .unterminatedString, .invalidUtf8, .unresolvedStringTable, .device]
  | complete => []

namespace Plan

variable {α β : Type} {n : Nat} {s start final : Stage} {p : Plan α} {f : α → Plan β}
  {A : α → Prop} {B : β → Prop} {kinds : List CauseKind}

/-- On a source of `n` bytes, a run from the stage `start` on ends at `s`: with a result in `A` at
the stage `final`, or with a cause that can arise at the stage where it stops. -/
structure Explained (n : Nat) (start final : Stage) (A : α → Prop) (s : Stage)
    (result : Except DecodeError α) : Prop where
  start_le : start ≤ s
  ok : ∀ a, result = .ok a → s = final ∧ A a
  kind : ∀ e, result = .error e → e.kind ∈ s.kinds
  /-- A file is found too short for its class byte only if it has as many bytes as a signature. -/
  short : ∀ e, result = .error e → s = .magicChecked → e.kind = .truncatedTable → n = 4

theorem explained_ok {a : α} (hs : start ≤ final) (ha : A a) :
    Explained n start final A final (.ok a) where
  start_le := hs
  ok := by
    rintro _ ⟨⟩
    exact ⟨rfl, ha⟩
  kind := nofun
  short := nofun

theorem explained_error {e : DecodeError} (hs : start ≤ s) (hkind : e.kind ∈ s.kinds)
    (hshort : s = .magicChecked → e.kind = .truncatedTable → n = 4) :
    Explained n start final A s (.error e) where
  start_le := hs
  ok := nofun
  kind := by
    rintro _ ⟨⟩
    exact hkind
  short := by
    rintro _ ⟨⟩
    exact hshort

/-- A part that notes no stage may come first if its causes can arise where the run stands. -/
theorem Yields.explained_bind (h : p.Yields n A kinds) (hs : start ≤ s) (hk : kinds ⊆ s.kinds)
    (hshort : s = .magicChecked → .truncatedTable ∈ kinds → n = 4)
    (hf : ∀ a, A a → EndsOn n (Explained n start final B) s (f a)) :
    EndsOn n (Explained n start final B) s (p.bind f) := by
  refine (h s).bind ?_ ?_
  · rintro t a ⟨rfl, ha⟩
    exact hf a ha
  · rintro t e ⟨rfl, he⟩
    refine explained_error hs (hk he) ?_
    intro hm htrunc
    exact hshort hm (htrunc ▸ he)

/-- A part that comes to the stage `middle` may come first, too. -/
theorem explained_bind {middle : Stage} (h : EndsOn n (Explained n start middle A) s p)
    (hf : ∀ a, A a → EndsOn n (Explained n start final B) middle (f a)) :
    EndsOn n (Explained n start final B) s (p.bind f) := by
  refine h.bind ?_ ?_
  · intro t a ha
    obtain ⟨rfl, hA⟩ := ha.ok a rfl
    exact hf a hA
  · intro t e he
    exact explained_error he.start_le (he.kind e rfl) (he.short e rfl)

end Plan

open Plan

/-! ### The header -/

/-- After the signature, the class byte is missing only if there is nothing at all. -/
theorem FileClass.gives_ofStart_of_signature {bs : Bytes} (hsig : bs.take 4 = signature) :
    Gives (fun _ => True)
      (if bs.length = 4 then [.unsupportedClass, .truncatedTable] else [.unsupportedClass])
      (ofStart bs) := by
  have hfour : 4 ≤ bs.length := by
    have hlen := congrArg List.length hsig
    rw [List.length_take] at hlen
    change _ = 4 at hlen
    omega
  have hcheck : checkSignature bs = .ok () := require_eq_ok_iff.2 hsig
  rw [ofStart, hcheck]
  cases hbyte : bs[4]? with
  | none =>
    have hle := List.getElem?_eq_none_iff.1 hbyte
    rw [if_pos (by omega)]
    show Gives _ _ (.error (.truncatedTable 4 1 bs.length))
    simp
  | some byte =>
    have hlt := (List.getElem?_eq_some_iff.1 hbyte).1
    rw [if_neg (by omega)]
    exact gives_ofByte byte

namespace FileHeader

theorem explained_readStaged (n : Nat) :
    EndsOn n (Explained n .unopened .headerDecoded fun h => h.checkTables n = .ok ()) .unopened
      readStaged := by
  unfold readStaged
  refine (yields_leading (by decide)).explained_bind (by decide) (by decide) (by simp) ?_
  intro start hlength
  have hsignature := yields_done (n := n) (gives_checkSignature start)
  refine hsignature.explained_bind (by decide) (by decide) (by simp) ?_
  intro _ hsig
  show EndsOn n _ .magicChecked _
  refine (yields_done (FileClass.gives_ofStart_of_signature hsig)).explained_bind (by decide) ?_ ?_ ?_
  · split
    · decide
    · decide
  · intro _ htrunc
    split at htrunc
    · rename_i hfour
      rw [hlength, size] at hfour
      omega
    · simp at htrunc
  intro c _
  refine (yields_done gives_require).explained_bind (by decide) ?_ ?_ ?_
  · simp [Stage.kinds]
  · simp
  intro _ _
  show EndsOn n _ .classChecked _
  have hfields := yields_done (n := n) (gives_parseFields start)
  refine hfields.explained_bind (by decide) (by decide) (by simp) ?_
  intro header _
  have hcheck := yields_done (n := n) (gives_checkTables header n).eq_ok
  refine hcheck.explained_bind (by decide) (by decide) (by simp) ?_
  intro _ htables
  exact explained_ok (by decide) htables

end FileHeader

/-! ### Parts of a run -/

namespace Image

/-- The header and the section table. -/
def readSections : Plan (FileHeader × SectionTable) := do
  let header ← FileHeader.readStaged
  let table ← SectionTable.read header
  return (header, table)

/-- The header and both tables. -/
def readTables : Plan (FileHeader × SectionTable × List ProgramHeader) := do
  let (header, table) ← readSections
  let segments ← readSegments header table.headers
  return (header, table, segments)

/-- Everything that follows once the tables are known to be sound. -/
def resolve (header : FileHeader) (table : SectionTable) (segments : List ProgramHeader) :
    Plan Image := do
  Plan.reached .tablesDecoded
  let names ← table.readNames
  Plan.reached .namesResolved
  let interpreter ← readInterpreter segments
  let linkage ← Linkage.read header.byteOrder table.headers
  Plan.reached .complete
  return {
    header, sections := table.headers, names, segments, linkage, interpreter,
    anomalies := Anomaly.ofSegments segments }

/-- Decoding everything reads the tables, checks the sections, and goes on from there. -/
theorem read_eq :
    read = readTables.bind fun tables =>
      Plan.length.bind fun length =>
        (Plan.done (checkSections tables.2.1.headers length)).bind fun _ =>
          resolve tables.1 tables.2.1 tables.2.2 := by
  simp only [read, readTables, readSections, Plan.bind_eq, Plan.bind_assoc]
  rfl

theorem explained_resolve {n : Nat} {s start : Stage} (hstart : start ≤ .tablesDecoded)
    (header : FileHeader) {table : SectionTable} (segments : List ProgramHeader)
    (hsound : ∀ s ∈ table.headers, s.Sound table.headers.length n) :
    EndsOn n (Explained n start .complete fun _ => True) s (resolve header table segments) := by
  have hnamed : start ≤ .namesResolved := Nat.le_trans hstart (by decide)
  show EndsOn n _ .tablesDecoded _
  refine (SectionTable.yields_readNames hsound).explained_bind hstart (by decide) nofun ?_
  intro names _
  show EndsOn n _ .namesResolved _
  refine (yields_readInterpreter segments).explained_bind hnamed (by decide) nofun ?_
  intro interpreter _
  refine (Linkage.yields_read _ hsound).explained_bind hnamed (by decide) nofun ?_
  intro linkage _
  exact explained_ok (Nat.le_trans hnamed (by decide)) trivial

theorem explained_read (n : Nat) :
    EndsOn n (Explained n .unopened .complete fun _ => True) .unopened read := by
  refine explained_bind (FileHeader.explained_readStaged n) ?_
  intro header hcheck
  obtain ⟨hsegments, hsections⟩ := FileHeader.checkTables_eq_ok_iff.1 hcheck
  have hdeferred : ∀ {p : Prop} [Decidable p],
      (if p then [CauseKind.truncatedTable, .device] else [.device]) ⊆
        Stage.headerDecoded.kinds := by
    intro p _
    split
    · decide
    · decide
  refine (SectionTable.yields_read hsections).explained_bind (by decide) hdeferred nofun ?_
  intro table _
  have hsegments := yields_readSegments table.headers hsegments
  refine hsegments.explained_bind (by decide) hdeferred nofun ?_
  intro segments _
  have hcheck := yields_done (n := n) (gives_checkSections table.headers n)
  show EndsOn n _ _ ((done (checkSections table.headers n)).bind fun _ =>
    resolve header table segments)
  refine hcheck.explained_bind (by decide) (by decide) nofun ?_
  intro _ hsound
  exact explained_resolve (by decide) header segments (checkSections_eq_ok_iff.1 hsound)

end Image

/-! ### Runs -/

namespace Decoder

variable {α β : Type} {p : Plan α} {f : α → Plan β} {d : Decoder}

/-- A run ends as its plan does on sources of the length that the device reports; it may also fail
since the device cannot be measured. -/
theorem run_of_endsOn {P : Stage → Except DecodeError α → Prop}
    (hp : EndsOn d.device.length P .unopened p)
    (hfail : ∀ cause, P .unopened (.error (.device cause))) : P (d.run p).2.stage (d.run p).1 := by
  rcases ha : Source.attach d.device with ⟨e | source, device⟩
  · rw [run_of_attach_error ha, Source.of_attach_error ha]
    exact hfail _
  · rw [run_of_attach_ok ha rfl]
    refine Plan.run_of_endsOn ⟨source, .unopened⟩ ?_
    rw [(Source.of_attach ha).1]
    exact hp

/-- A run that has come through the first of two plans ends as the second one does. -/
theorem run_bind_of_endsOn {P : Stage → Except DecodeError β → Prop} {a : α}
    (h : (d.run p).1 = .ok a) (hf : EndsOn d.device.length P (d.run p).2.stage (f a)) :
    P (d.run (p.bind f)).2.stage (d.run (p.bind f)).1 := by
  rcases ha : Source.attach d.device with ⟨e | source, device⟩
  · rw [run_of_attach_error ha] at h
    cases h
  · have hlen := p.length_run ⟨source, .unopened⟩
    rcases hrun : p.run ⟨source, .unopened⟩ with ⟨result, now⟩
    rw [hrun] at hlen
    rw [run_of_attach_ok ha hrun] at h hf
    cases h
    have hboth : (p.bind f).run ⟨source, .unopened⟩ = (f a).run now := by
      rw [Plan.run_bind, hrun]
    rw [run_of_attach_ok ha rfl, hboth]
    refine Plan.run_of_endsOn now ?_
    rw [show now.source.length = d.device.length from hlen.trans (Source.of_attach ha).1]
    exact hf

/-- The same for a second plan that notes no stage. -/
theorem run_bind_of_yields {A : β → Prop} {kinds : List CauseKind} {a : α}
    (h : (d.run p).1 = .ok a) (hf : (f a).Yields d.device.length A kinds) :
    Gives A kinds (d.run (p.bind f)).1 :=
  (run_bind_of_endsOn h (hf _)).2

end Decoder

variable {d : Decoder} {h : FileHeader}

theorem FileHeader.explained_decodeHeader (d : Decoder) :
    Explained d.device.length .unopened .headerDecoded
      (fun h => h.checkTables d.device.length = .ok ())
      d.decodeHeader.2.stage d.decodeHeader.1 := by
  refine Decoder.run_of_endsOn (explained_readStaged _) ?_
  intro cause
  exact explained_error (by decide) (by simp [Stage.kinds]) nofun

namespace Image

theorem explained_decode (d : Decoder) :
    Explained d.device.length .unopened .complete (fun _ => True) d.decode.2.stage d.decode.1 := by
  refine Decoder.run_of_endsOn (explained_read _) ?_
  intro cause
  exact explained_error (by decide) (by simp [Stage.kinds]) nofun

theorem gives_readSections (hheader : d.decodeHeader.1 = .ok h) :
    Gives (fun found => found.1 = h)
      (if h.shnum = 0 then [.truncatedTable, .device] else [.device]) (d.run readSections).1 := by
  obtain ⟨-, hcheck⟩ := (FileHeader.explained_decodeHeader d).ok h hheader
  have htable := SectionTable.yields_read (FileHeader.checkTables_eq_ok_iff.1 hcheck).2
  refine Decoder.run_bind_of_yields hheader ?_
  exact htable.bind fun table _ => yields_done (x := .ok (h, table)) rfl

theorem gives_readTables {table : SectionTable} (hheader : d.decodeHeader.1 = .ok h)
    (hsections : (d.run readSections).1 = .ok (h, table)) :
    Gives (fun found => found.1 = h ∧ found.2.1 = table)
      (if h.phnum = 0xffff then [.truncatedTable, .device] else [.device])
      (d.run readTables).1 := by
  obtain ⟨-, hcheck⟩ := (FileHeader.explained_decodeHeader d).ok h hheader
  have hsegments := yields_readSegments table.headers (FileHeader.checkTables_eq_ok_iff.1 hcheck).1
  refine Decoder.run_bind_of_yields hsections ?_
  exact hsegments.bind fun segments _ => yields_done (x := .ok (h, table, segments)) ⟨rfl, rfl⟩

end Image

/-- Which part of the work on the tables has failed, and when that part can fail.  These parts come
one after the other in every run (`Image.read_eq`). -/
inductive TablesRefused (d : Decoder) (h : FileHeader) (e : DecodeError) : Prop
  /-- The section table cannot be read.  It lies in the file if the header gives its length. -/
  | sections (hrun : (d.run Image.readSections).1 = .error e)
      (hdeferred : e.kind = .truncatedTable → h.shnum = 0)
  /-- The program header table cannot be read.  It too lies in the file if the header gives its
  length. -/
  | segments (table : SectionTable) (hsections : (d.run Image.readSections).1 = .ok (h, table))
      (hrun : (d.run Image.readTables).1 = .error e)
      (hdeferred : e.kind = .truncatedTable → h.phnum = 0xffff)
  /-- Both tables can be read, but a section is refused. -/
  | check (table : SectionTable) (segments : List ProgramHeader)
      (hrun : (d.run Image.readTables).1 = .ok (h, table, segments)) (s : SectionHeader)
      (hs : s ∈ table.headers)
      (hcheck : s.check table.headers.length d.device.length = .error e)

namespace TablesRefused

variable {e cause : DecodeError} {table : SectionTable} {segments : List ProgramHeader}

/-- A table that has to lie in the source unless its length is deferred. -/
theorem deferred_of_gives {α : Type} {A : α → Prop} {deferred : Prop} [Decidable deferred]
    (h : Gives A (if deferred then [.truncatedTable, .device] else [.device]) (.error e))
    (htrunc : e.kind = .truncatedTable) : deferred := by
  by_contra hd
  rw [if_neg hd, gives_error, htrunc] at h
  simp at h

theorem of_sections (hheader : d.decodeHeader.1 = .ok h)
    (hsections : (d.run Image.readSections).1 = .error cause) (he : d.decode.1 = .error e) :
    TablesRefused d h e := by
  have htables : (d.run Image.readTables).1 = .error cause :=
    congrArg Prod.fst (Decoder.run_bind_of_error hsections)
  rw [Decoder.decode, Image.read_eq, Decoder.run_bind_of_error htables] at he
  cases he
  have hgives := Image.gives_readSections hheader
  rw [hsections] at hgives
  exact .sections hsections (deferred_of_gives hgives)

theorem of_segments (hheader : d.decodeHeader.1 = .ok h)
    (hsections : (d.run Image.readSections).1 = .ok (h, table))
    (htables : (d.run Image.readTables).1 = .error cause) (he : d.decode.1 = .error e) :
    TablesRefused d h e := by
  rw [Decoder.decode, Image.read_eq, Decoder.run_bind_of_error htables] at he
  cases he
  have hgives := Image.gives_readTables hheader hsections
  rw [htables] at hgives
  exact .segments table hsections htables (deferred_of_gives hgives)

/-- Once both tables are read, a run that stops before its next stage has refused a section. -/
theorem of_check (htables : (d.run Image.readTables).1 = .ok (h, table, segments))
    (he : d.decode.1 = .error e) (hstop : d.decode.2.stage = .headerDecoded) :
    TablesRefused d h e := by
  cases hcheck : checkSections table.headers d.device.length with
  | error cause =>
    have hend : d.decode.1 = .error cause := by
      rw [Decoder.decode, Image.read_eq]
      refine Decoder.run_bind_of_endsOn (P := fun _ result => result = .error cause) htables ?_
      show EndsOn _ _ _ ((done (checkSections table.headers d.device.length)).bind _)
      rw [hcheck]
      exact rfl
    rw [hend] at he
    cases he
    obtain ⟨s, hs, hrefused⟩ := exists_of_forM_eq_error hcheck
    exact .check table segments htables s hs hrefused
  | ok u =>
    -- the sections are sound, so the run stops at a later stage
    have hend : Explained d.device.length .tablesDecoded .complete (fun _ => True)
        d.decode.2.stage d.decode.1 := by
      rw [Decoder.decode, Image.read_eq]
      refine Decoder.run_bind_of_endsOn htables ?_
      show EndsOn _ _ _ ((done (checkSections table.headers d.device.length)).bind _)
      rw [hcheck]
      exact Image.explained_resolve (Nat.le_refl _) _ _ (checkSections_eq_ok_iff.1 hcheck)
    have hle := hend.start_le
    rw [hstop] at hle
    exact absurd hle (by decide)

end TablesRefused

/-- A run that stops at the stage of a decoded header has decoded it, and fails on the tables. -/
theorem exists_tablesRefused {e : DecodeError} (he : d.decode.1 = .error e)
    (hstop : d.decode.2.stage = .headerDecoded) :
    ∃ h, d.decodeHeader.1 = .ok h ∧ TablesRefused d h e := by
  -- the parts of the run: header, section table, program header table, everything else
  cases hheader : d.decodeHeader.1 with
  | error cause =>
    have hlt : d.decodeHeader.2.stage < .headerDecoded :=
      Decoder.stage_lt_of_error (by decide) FileHeader.endsAt_readStaged hheader
    have hdecode : d.decode = (.error cause, d.decodeHeader.2) :=
      Decoder.run_bind_of_error hheader
    rw [hdecode] at hstop
    change d.decodeHeader.2.stage = _ at hstop
    rw [hstop] at hlt
    exact absurd hlt (by decide)
  | ok h =>
    refine ⟨h, rfl, ?_⟩
    have hfound := Image.gives_readSections hheader
    cases hsections : (d.run Image.readSections).1 with
    | error cause => exact .of_sections hheader hsections he
    | ok found =>
      obtain ⟨header, table⟩ := found
      rw [hsections, gives_ok] at hfound
      subst hfound
      have hfound := Image.gives_readTables hheader hsections
      cases htables : (d.run Image.readTables).1 with
      | error cause => exact .of_segments hheader hsections htables he
      | ok tables =>
        obtain ⟨header, found, segments⟩ := tables
        rw [htables, gives_ok] at hfound
        obtain ⟨rfl, rfl⟩ := hfound
        exact .of_check htables he hstop

/-- The cause of a failed run fits the stage at which the run has stopped. -/
structure FitsStage (d : Decoder) (e : DecodeError) : Prop where
  kind : e.kind ∈ d.decode.2.stage.kinds
  not_complete : d.decode.2.stage ≠ .complete
  /-- A file is found too short for its class byte only if it has four bytes. -/
  short : d.decode.2.stage = .magicChecked → e.kind = .truncatedTable → d.device.length = 4
  tables : d.decode.2.stage = .headerDecoded →
    ∃ h, d.decodeHeader.1 = .ok h ∧ TablesRefused d h e

/-- **The cause of every failed run fits the stage at which the run has stopped**, whatever the
device holds, reports and refuses. -/
theorem fitsStage_of_error (d : Decoder) (e : DecodeError) (he : d.decode.1 = .error e) :
    FitsStage d e := by
  have hexplained := Image.explained_decode d
  have hkind := hexplained.kind e he
  refine ⟨hkind, ?_, hexplained.short e he, exists_tablesRefused he⟩
  intro hcomplete
  rw [hcomplete] at hkind
  exact List.not_mem_nil hkind

/-- A file that ends behind its signature, and a device that refuses the second read call. -/
theorem fitsStage_of_error_sample :
    ((Decoder.decode { device := .ofBytes signature }).1 = .error (.truncatedTable 4 1 4) ∧
      FitsStage { device := .ofBytes signature } (.truncatedTable 4 1 4)) ∧
    (Decoder.decode { device := { content := sampleFile, faults := { failRead := some 1 } } }).1 =
        .error (.device .readRefused) ∧
      FitsStage { device := { content := sampleFile, faults := { failRead := some 1 } } }
        (.device .readRefused) := by
  have hcut : (Decoder.decode { device := .ofBytes signature }).1 =
      .error (.truncatedTable 4 1 4) := by
    decide +kernel
  have hrefused : (Decoder.decode
      { device := { content := sampleFile, faults := { failRead := some 1 } } }).1 =
        .error (.device .readRefused) := by
    decide +kernel
  exact ⟨⟨hcut, fitsStage_of_error _ _ hcut⟩, hrefused, fitsStage_of_error _ _ hrefused⟩

end ElfAnatomy
