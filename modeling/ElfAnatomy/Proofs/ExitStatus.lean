import ElfAnatomy.Inspection
import ElfAnatomy.Proofs.Domains
import ElfAnatomy.Proofs.Extension

/-!
# The exit status

An inspection that finds its file ends with one of three statuses: zero if the file is decoded, two
if it is no 64-bit ELF file of a known byte order, and three if it is one that is malformed.

* `Foreign` : the files of another kind, in terms of their bytes.
* `Decided` : a result that has found out of which kind a file is.
* `FileHeader.decided_parse` : the header alone tells whether a file is of another kind.
* `Plan.outcome_of_ends`, `decode_eq_bind` : whatever comes after the header finds malformed files
  only.
* `decided_decodeHeader`, `decided_decode` : the results at either depth.
* `classified_inspect` : **the exit status classifies the file**, and both depths agree on it.

How the arguments are read and which file is at a path is up to the host.
-/

namespace ElfAnatomy

/-- The file is no 64-bit ELF file of a known byte order.  A byte that is missing does not make it
one of another kind. -/
def Foreign (content : Bytes) : Prop :=
  content.take 4 ≠ [0x7f, 0x45, 0x4c, 0x46] ∨
    (5 ≤ content.length ∧ content[4]? ≠ some 2) ∨
    (64 ≤ content.length ∧ content[5]? ≠ some 1 ∧ content[5]? ≠ some 2)

theorem foreign_take_iff (content : Bytes) : Foreign (content.take 64) ↔ Foreign content := by
  have hlength : ∀ n ≤ 64, n ≤ (content.take 64).length ↔ n ≤ content.length := by
    intro n hn
    rw [List.length_take]
    omega
  simp only [Foreign, List.take_take, hlength 5 (by decide), hlength 64 (by decide),
    List.getElem?_take_of_lt (by decide : 4 < 64), List.getElem?_take_of_lt (by decide : 5 < 64)]
  rfl

/-! ### Statuses of results -/

/-- The exit status for a result: zero if there is one, or else that of the cause. -/
def exitStatus {α : Type} : Except DecodeError α → UInt8
  | .ok _ => 0
  | .error e => e.status

theorem exitStatus_map {α β : Type} (f : α → β) (x : Except DecodeError α) :
    exitStatus (x.map f) = exitStatus x := by
  cases x <;> rfl

theorem DecodeError.status_eq_three {e : DecodeError} (h : e.kind ∈ CauseKind.malformed) :
    e.status = 3 := by
  cases e <;> simp_all [status, CauseKind.malformed]

/-- The cause, if there is one, is that of a malformed file. -/
abbrev Malformed {α : Type} (result : Except DecodeError α) : Prop :=
  Plan.Gives (fun _ => True) CauseKind.malformed result

/-- What a result tells about a file: it is foreign, or malformed, or neither. -/
inductive Decided {α : Type} (foreign : Prop) : Except DecodeError α → Prop
  | foreign {e : DecodeError} (hforeign : foreign) (hstatus : e.status = 2) :
      Decided foreign (.error e)
  | malformed {e : DecodeError} (hforeign : ¬foreign) (hkind : e.kind ∈ CauseKind.malformed) :
      Decided foreign (.error e)
  | decoded {a : α} (hforeign : ¬foreign) : Decided foreign (.ok a)

namespace Decided

variable {α β : Type} {foreign : Prop} {x : Except DecodeError α}

theorem of_malformed (hforeign : ¬foreign) (h : Malformed x) : Decided foreign x := by
  cases x with
  | ok a => exact .decoded hforeign
  | error e => exact .malformed hforeign h

/-- What comes later finds malformed files only. -/
theorem bind {f : α → Except DecodeError β} (h : Decided foreign x) (hf : ∀ a, Malformed (f a)) :
    Decided foreign (x >>= f) := by
  cases h with
  | foreign hforeign hstatus => exact .foreign hforeign hstatus
  | malformed hforeign hkind => exact .malformed hforeign hkind
  | decoded hforeign => exact of_malformed hforeign (hf _)

theorem status_eq_two_iff (h : Decided foreign x) : exitStatus x = 2 ↔ foreign := by
  cases h with
  | foreign hforeign hstatus => exact iff_of_true hstatus hforeign
  | malformed hforeign hkind =>
    refine iff_of_false ?_ hforeign
    rw [exitStatus, DecodeError.status_eq_three hkind]
    decide
  | decoded hforeign => exact iff_of_false (by simp [exitStatus]) hforeign

theorem status_eq_zero_iff (h : Decided foreign x) : exitStatus x = 0 ↔ ∃ a, x = .ok a := by
  cases h with
  | foreign hforeign hstatus => simp [exitStatus, hstatus]
  | malformed hforeign hkind => simp [exitStatus, DecodeError.status_eq_three hkind]
  | decoded hforeign => simp [exitStatus]

theorem status_eq_three_iff (h : Decided foreign x) :
    exitStatus x = 3 ↔ ¬foreign ∧ ¬∃ a, x = .ok a := by
  cases h with
  | foreign hforeign hstatus => simp [exitStatus, hstatus, hforeign]
  | malformed hforeign hkind => simp [exitStatus, DecodeError.status_eq_three hkind, hforeign]
  | decoded hforeign => simp [exitStatus]

end Decided

/-! ### The header -/

namespace FileHeader

/-- Once signature and class are right, the byte order decides, if all 64 bytes are there. -/
theorem decided_parseFields {bs : Bytes} (hsig : bs.take 4 = signature) (hclass : bs[4]? = some 2) :
    Decided (Foreign bs) (parseFields bs) := by
  by_cases hlong : 64 ≤ bs.length
  · have h5 : 5 < bs.length := Nat.lt_of_lt_of_le (by decide) hlong
    have hread : parseFields bs =
        ByteOrder.ofByte bs[5] >>= fun order => inside (fields? order bs) := by
      have hsize : require (size ≤ bs.length) (.truncatedTable 0 64 bs.length) = .ok () :=
        require_eq_ok_iff.2 hlong
      rw [parseFields, hsize, List.getElem?_eq_getElem h5]
      rfl
    rw [hread]
    cases horder : ByteOrder.ofByte bs[5] with
    | error e =>
      obtain ⟨hne, rfl⟩ := ByteOrder.ofByte_eq_error_iff.1 horder
      refine .foreign (.inr (.inr ⟨hlong, ?_, ?_⟩)) rfl
      · rw [List.getElem?_eq_getElem h5]
        exact fun h => hne .little (Option.some.inj h)
      · rw [List.getElem?_eq_getElem h5]
        exact fun h => hne .big (Option.some.inj h)
    | ok order =>
      obtain ⟨h, hfields⟩ := Option.isSome_iff_exists.1 (isSome_fields? order hlong)
      refine Decided.of_malformed ?_ (by simp [hfields, inside, bind, Except.bind])
      have hbyte := ByteOrder.ofByte_eq_ok_iff.1 horder
      rintro (hne | ⟨-, hne⟩ | ⟨-, hlittle, hbig⟩)
      · exact hne hsig
      · exact hne hclass
      · rw [List.getElem?_eq_getElem h5, hbyte] at hlittle hbig
        cases order with
        | little => exact hlittle rfl
        | big => exact hbig rfl
  · -- nothing is said about the byte order of a file that is too short
    have hshort : parseFields bs = .error (.truncatedTable 0 64 bs.length) := by
      have hsize : require (size ≤ bs.length) (.truncatedTable 0 64 bs.length) =
          .error (.truncatedTable 0 64 bs.length) := require_eq_error_iff.2 ⟨hlong, rfl⟩
      rw [parseFields, hsize]
      rfl
    rw [hshort]
    refine .malformed ?_ (by simp [CauseKind.malformed])
    rintro (hne | ⟨-, hne⟩ | ⟨hlong', -⟩)
    · exact hne hsig
    · exact hne hclass
    · exact hlong hlong'

/-- **The first 64 bytes tell whether a file is of another kind.** -/
theorem decided_parse (bs : Bytes) : Decided (Foreign bs) (parse bs) := by
  by_cases hsig : bs.take 4 = signature
  · have hcheck : checkSignature bs = .ok () := require_eq_ok_iff.2 hsig
    cases hclass : bs[4]? with
    | none =>
      -- just the signature is there
      have hmissing : parse bs = .error (.truncatedTable 4 1 bs.length) := by
        rw [parse, FileClass.ofStart, hcheck, hclass]
        rfl
      have hshort := List.getElem?_eq_none_iff.1 hclass
      rw [hmissing]
      refine .malformed ?_ (by simp [CauseKind.malformed])
      rintro (hne | ⟨hlong, -⟩ | ⟨hlong, -⟩)
      · exact hne hsig
      · omega
      · omega
    | some c =>
      have hlong := (List.getElem?_eq_some_iff.1 hclass).1
      have hread : parse bs = FileClass.ofByte c >>= fun k => k.require64 >>= fun _ =>
          parseFields bs := by
        rw [parse, FileClass.ofStart, hcheck, hclass]
        rfl
      rw [hread]
      by_cases h2 : c = 2
      · subst h2
        exact decided_parseFields hsig hclass
      · have hforeign : Foreign bs := by
          refine .inr (.inl ⟨hlong, ?_⟩)
          rw [hclass]
          exact fun h => h2 (Option.some.inj h)
        by_cases h1 : c = 1
        · subst h1
          exact .foreign hforeign rfl
        · rw [FileClass.ofByte_eq_error_iff.2 ⟨⟨h1, h2⟩, rfl⟩]
          exact .foreign hforeign rfl
  · rw [parse_eq, checkSignature_eq_error_iff.2 ⟨hsig, rfl⟩]
    exact .foreign (.inl hsig) rfl

theorem decided_readStaged (content : Bytes) :
    Decided (Foreign content) (readStaged.outcome content) := by
  have hparse : Decided (Foreign content) (parse (content.take size)) :=
    propext (foreign_take_iff content) ▸ decided_parse (content.take 64)
  rw [outcome_readStaged]
  refine hparse.bind fun header => ?_
  refine ((gives_checkTables header _).of_subset (by simp [CauseKind.malformed])).bind ?_
  exact fun _ _ => trivial

end FileHeader

/-! ### Whatever comes after the header -/

/-- What a plan comes to on bytes at hand is one of its ends, or a region does not lie in them. -/
theorem Plan.outcome_of_ends {α : Type} {P : Except DecodeError α → Prop} {p : Plan α}
    (h : p.Ends P) (data : Bytes)
    (hregion : ∀ r : Region, P (.error (.truncatedTable r.offset r.size data.length))) :
    P (p.outcome data) := by
  induction p with
  | done result => exact h
  | askLength next ih => exact ih _ (h _)
  | fetch region next ih =>
    simp only [outcome]
    split
    · exact ih _ (h _)
    · exact hregion region
  | reach stage next ih => exact ih h

/-! ### Runs -/

variable {content : Bytes} {o : Options}

/-- The file is decoded to the depth that the options ask for. -/
def Decodes (content : Bytes) (o : Options) : Prop :=
  if .headerOnly ∈ o.flags then ∃ header, decodeHeader content = .ok header
  else ∃ image, decode content = .ok image

theorem decided_decodeHeader (content : Bytes) :
    Decided (Foreign content) (decodeHeader content) := by
  rw [decodeHeader_eq_outcome]
  exact FileHeader.decided_readStaged content

/-- Decoding everything ends as decoding the header does, unless that succeeds. -/
theorem decode_eq_bind (content : Bytes) :
    ∃ rest : FileHeader → Except DecodeError Image,
      decode content = decodeHeader content >>= rest ∧ ∀ h, Malformed (rest h) := by
  obtain ⟨rest, hread, hrest⟩ := Image.exists_failsIn_read
  refine ⟨fun h => (rest h).outcome content, ?_, fun h => ?_⟩
  · rw [decode_eq_outcome, decodeHeader_eq_outcome, hread, Plan.outcome_bind_eq]
  · exact Plan.outcome_of_ends (hrest h) content fun r => by simp [CauseKind.malformed]

theorem decided_decode (content : Bytes) : Decided (Foreign content) (decode content) := by
  obtain ⟨rest, hdecode, hrest⟩ := decode_eq_bind content
  rw [hdecode]
  exact (decided_decodeHeader content).bind hrest

/-- A failure of the header is one of the full run. -/
theorem exitStatus_decode_of_header (h : exitStatus (decodeHeader content) ≠ 0) :
    exitStatus (decode content) = exitStatus (decodeHeader content) := by
  obtain ⟨rest, hdecode, -⟩ := decode_eq_bind content
  rw [hdecode]
  cases hheader : decodeHeader content with
  | ok header =>
    rw [hheader] at h
    exact absurd rfl h
  | error e => rfl

namespace Inspection

variable {host : Host}

/-- An accepted command line leads to an inspection. -/
theorem inspect_of_parse {arguments : List String} (h : host.parse arguments = .ok o) :
    inspect host arguments = .ok (run host o) := by
  rw [inspect, h]
  rfl

theorem status_run_of_openError {cause : OpenError} (h : host.opened o.path = .error cause) :
    (run host o).status = 1 := by
  rw [run, full, h]
  rfl

theorem status_run_of_opened {device : Device} (h : host.opened o.path = .ok device) :
    (run host o).status = exitStatus (Decoder.decodeTo { device } o.depth).1 := by
  have hrun : ∀ x, (ofRun host.write o x).status = exitStatus x.1 := by
    rintro ⟨decoded | cause, d⟩ <;> rfl
  rw [run, full, h]
  exact hrun _

theorem status_run_of_headerOnly (h : host.opened o.path = .ok (.ofBytes content))
    (hheader : .headerOnly ∈ o.flags) :
    (run host o).status = exitStatus (decodeHeader content) := by
  rw [status_run_of_opened h, o.depth_eq, if_pos hheader]
  exact exitStatus_map _ _

theorem status_run_of_full (h : host.opened o.path = .ok (.ofBytes content))
    (hfull : .headerOnly ∉ o.flags) : (run host o).status = exitStatus (decode content) := by
  rw [status_run_of_opened h, o.depth_eq, if_neg hfull]
  exact exitStatus_map _ _

/-- The exit status of the inspection of a file tells what kind of file it is. -/
structure Classified (content : Bytes) (o : Options) (ending : Ending) : Prop where
  foreign : ending.status = 2 ↔ Foreign content
  decoded : ending.status = 0 ↔ Decodes content o
  malformed : ending.status = 3 ↔ ¬Foreign content ∧ ¬Decodes content o

theorem Classified.of_decided {α : Type} {x : Except DecodeError α} {ending : Ending}
    (hx : Decided (Foreign content) x) (hstatus : ending.status = exitStatus x)
    (hdecodes : Decodes content o ↔ ∃ a, x = .ok a) : Classified content o ending where
  foreign := by rw [hstatus, hx.status_eq_two_iff]
  decoded := by rw [hstatus, hx.status_eq_zero_iff, hdecodes]
  malformed := by rw [hstatus, hx.status_eq_three_iff, hdecodes]

theorem classified_run (h : host.opened o.path = .ok (.ofBytes content)) :
    Classified content o (run host o) := by
  by_cases hheader : .headerOnly ∈ o.flags
  · exact .of_decided (decided_decodeHeader content) (status_run_of_headerOnly h hheader)
      (by rw [Decodes, if_pos hheader])
  · exact .of_decided (decided_decode content) (status_run_of_full h hheader)
      (by rw [Decodes, if_neg hheader])

end Inspection

/-- **The exit status classifies the file**, on every host and whatever views, form and verbosity
the command line asks for.  It is one for a file that cannot be opened.  A full inspection of the
same file calls it foreign exactly if one of the header does, and ends like that one unless that one
succeeds. -/
theorem classified_inspect (host : Host) (arguments : List String) (o : Options)
    (hparse : host.parse arguments = .ok o) :
    ∃ ending, Inspection.inspect host arguments = .ok ending ∧
      (∀ cause, host.opened o.path = .error cause → ending.status = 1) ∧
      ∀ content, host.opened o.path = .ok (.ofBytes content) →
        Inspection.Classified content o ending ∧
        ∀ (others : List String) (full : Options), host.parse others = .ok full →
          host.opened full.path = .ok (.ofBytes content) →
          .headerOnly ∈ o.flags → .headerOnly ∉ full.flags →
          ∃ other, Inspection.inspect host others = .ok other ∧
            (ending.status = 2 ↔ other.status = 2) ∧
            (ending.status ≠ 0 → other.status = ending.status) := by
  refine ⟨_, Inspection.inspect_of_parse hparse, ?_, ?_⟩
  · intro cause hcause
    exact Inspection.status_run_of_openError hcause
  · intro content hopened
    refine ⟨Inspection.classified_run hopened, ?_⟩
    intro others full hothers hfull hheader hdepth
    refine ⟨_, Inspection.inspect_of_parse hothers, ?_, ?_⟩
    · rw [(Inspection.classified_run hopened).foreign, (Inspection.classified_run hfull).foreign]
    · rw [Inspection.status_run_of_headerOnly hopened hheader,
        Inspection.status_run_of_full hfull hdepth]
      exact exitStatus_decode_of_header

/-- A host with a single file, and with the command line and the writer of this library. -/
def Host.withFile (path : String) (content : Bytes) : Host where
  parse := CommandLine.parse
  opened p := if p = path then .ok (.ofBytes content) else .error .notFound
  write := Json.pretty

theorem Host.opened_withFile (path : String) (content : Bytes) :
    (withFile path content).opened path = .ok (.ofBytes content) := if_pos rfl

/-- A file of 32 bits is foreign, to an inspection of its header as to that of everything. -/
theorem classified_inspect_sample :
    CommandLine.parse ["--header-only", "-q", "/bin/a"] = .ok ⟨"/bin/a", [.quiet, .headerOnly]⟩ ∧
      Foreign (sampleFile.set 4 1) ∧
      ∃ ending, Inspection.inspect (.withFile "/bin/a" (sampleFile.set 4 1))
          ["--header-only", "-q", "/bin/a"] = .ok ending ∧ ending.status = 2 ∧
        ∃ other, Inspection.inspect (.withFile "/bin/a" (sampleFile.set 4 1)) ["/bin/a"] =
          .ok other ∧ other.status = 2 := by
  have hforeign : Foreign (sampleFile.set 4 1) := .inr (.inl (by decide +kernel))
  obtain ⟨ending, hending, -, hfound⟩ := classified_inspect
    (.withFile "/bin/a" (sampleFile.set 4 1)) ["--header-only", "-q", "/bin/a"]
    ⟨"/bin/a", [.quiet, .headerOnly]⟩ rfl
  obtain ⟨hclass, hboth⟩ := hfound _ (Host.opened_withFile _ _)
  obtain ⟨other, hother, hsame, -⟩ :=
    hboth ["/bin/a"] ⟨"/bin/a", []⟩ rfl (Host.opened_withFile _ _) (by decide) (by decide)
  have hstatus := hclass.foreign.2 hforeign
  exact ⟨rfl, hforeign, ending, hending, hstatus, other, hother, hsame.1 hstatus⟩

end ElfAnatomy
