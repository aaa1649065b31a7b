import ElfAnatomy.Proofs.Defects
import ElfAnatomy.Proofs.Depths

/-!
# Files that are cut off or extended

The length of a file only enters checks that a region lies in it.  So a file that is cut off is
decoded as the whole one, unless a region is found to end past the cut.

* `CutTo` : what the result on a cut file has to do with the one on the whole file.
* `Plan.Stable` : the results of a plan on a file and on every longer one are related like that.
* `FileHeader.stable_readStaged`, `SectionTable.stable_read`, `Linkage.stable_read` and so on : every
  plan of the library is stable, up to `Image.stable_read`.
* `decode_of_cut` : a file that is cut off or extended never decodes to something else.

Stability is claimed of files with room for a header; what happens to shorter ones is the matter of
`FileHeader.error_of_short`.
-/

namespace ElfAnatomy

variable {α β : Type}

/-! ### Results on a cut file -/

/-- The first result is that on a file cut to `length` bytes, the second one that on the whole
file: they are the same, or else the first one says that a region ends past the cut. -/
def CutTo (length : Nat) (short long : Except DecodeError α) : Prop :=
  short = long ∨ ∃ offset size, short = .error (.truncatedTable offset size length)

namespace CutTo

variable {n m : Nat}

theorem refl (x : Except DecodeError α) : CutTo n x x := .inl rfl

theorem truncated (offset size : UInt64) (y : Except DecodeError α) :
    CutTo n (.error (.truncatedTable offset size n)) y := .inr ⟨offset, size, rfl⟩

theorem bind {x y : Except DecodeError α} {f g : α → Except DecodeError β} (h : CutTo n x y)
    (hfg : ∀ a, CutTo n (f a) (g a)) : CutTo n (x >>= f) (y >>= g) := by
  rcases h with rfl | ⟨offset, size, rfl⟩
  · cases x with
    | ok a => exact hfg a
    | error e => exact .refl _
  · exact .truncated offset size _

theorem ite {p : Prop} [Decidable p] {x y x' y' : Except DecodeError α} (h : CutTo n x y)
    (h' : CutTo n x' y') : CutTo n (if p then x else x') (if p then y else y') := by
  split
  · exact h
  · exact h'

theorem forM {f g : α → Except DecodeError Unit} (as : List α) (h : ∀ a, CutTo n (f a) (g a)) :
    CutTo n (as.forM f) (as.forM g) := by
  induction as with
  | nil => exact .refl _
  | cons a as ih => exact (h a).bind fun _ => ih

end CutTo

/-! ### Checks against the length -/

variable {n m : Nat}

theorem Region.cutTo_check (r : Region) (h : n ≤ m) : CutTo n (r.check n) (r.check m) := by
  by_cases hin : r.stop ≤ n
  · have hshort : r.check n = .ok () := Region.check_eq_ok_iff.2 hin
    have hlong : r.check m = .ok () := Region.check_eq_ok_iff.2 (Nat.le_trans hin h)
    rw [hshort, hlong]
    exact .refl _
  · rw [Region.check_eq_error_iff.2 ⟨Nat.not_le.1 hin, rfl⟩]
    exact .truncated _ _ _

theorem Region.cutTo_table (offset count entrySize : UInt64) :
    CutTo n (Region.table offset count entrySize n) (Region.table offset count entrySize m) := by
  unfold Region.table
  split
  · exact .refl _
  · exact .truncated _ _ _

theorem FileHeader.cutTo_checkTables (header : FileHeader) (h : n ≤ m) :
    CutTo n (header.checkTables n) (header.checkTables m) := by
  have htable : ∀ offset count entrySize : UInt64,
      CutTo n (Region.table offset count entrySize n >>= fun r => r.check n)
        (Region.table offset count entrySize m >>= fun r => r.check m) := by
    intro offset count entrySize
    exact (Region.cutTo_table ..).bind fun r => r.cutTo_check h
  refine CutTo.bind ?_ fun _ => ?_
  · refine .ite (.refl _) ?_
    exact (CutTo.refl _).bind fun _ => .ite (.refl _) (htable _ _ _)
  · refine .ite ?_ (.refl _)
    exact (CutTo.refl _).bind fun _ => htable _ _ _

theorem cutTo_checkSections (sections : List SectionHeader) (h : n ≤ m) :
    CutTo n (checkSections sections n) (checkSections sections m) := by
  refine CutTo.forM sections fun s => ?_
  exact (CutTo.refl _).bind fun _ => .ite (s.region.cutTo_check h) (.refl _)

/-! ### Stable plans -/

/-- A slice of the start of a file is a slice of the file. -/
theorem Bytes.slice?_of_prefix {start data part : Bytes} {offset size : Nat}
    (hpre : start <+: data) (h : start.slice? offset size = some part) :
    data.slice? offset size = some part := by
  obtain ⟨rest, rfl⟩ := hpre
  obtain ⟨hle, rfl⟩ := slice?_eq_some_iff.1 h
  refine slice?_eq_some_iff.2 ⟨?_, ?_⟩
  · rw [List.length_append]
    omega
  · rw [List.drop_append_of_le_length (by omega), List.take_append_of_le_length]
    rw [List.length_drop]
    omega

namespace Plan

/-- On a file with room for a header and on every longer one that starts with it, the plan gives
results that are the same, unless a region ends past the shorter file. -/
def Stable (p : Plan α) : Prop :=
  ∀ start data : Bytes, 64 ≤ start.length → start <+: data →
    CutTo start.length (p.outcome start) (p.outcome data)

theorem outcome_bind_eq {data : Bytes} (p : Plan α) (f : α → Plan β) :
    (p.bind f).outcome data = p.outcome data >>= fun a => (f a).outcome data := by
  rw [outcome_bind]
  cases p.outcome data <;> rfl

theorem outcome_unstaged {data : Bytes} (p : Plan α) : p.unstaged.outcome data = p.outcome data := by
  induction p with
  | done result => rfl
  | askLength next ih => exact ih _
  | fetch region next ih =>
    simp only [unstaged, outcome]
    split
    · exact ih _
    · rfl
  | reach stage next ih => exact ih

theorem stable_done (result : Except DecodeError α) : (done result).Stable :=
  fun _ _ _ _ => .refl _

theorem Stable.bind {p : Plan α} {f : α → Plan β} (h : p.Stable) (hf : ∀ a, (f a).Stable) :
    (p.bind f).Stable := by
  intro start data hlong hpre
  rw [outcome_bind_eq, outcome_bind_eq]
  exact (h start data hlong hpre).bind fun a => hf a start data hlong hpre

theorem stable_reached (stage : Stage) : (reached stage).Stable := fun _ _ _ _ => .refl _

/-- A check against the length may come first, if it only gets stricter for shorter files. -/
theorem stable_length_bind {x : Nat → Except DecodeError α} {f : α → Plan β}
    (hx : ∀ n m, n ≤ m → CutTo n (x n) (x m)) (hf : ∀ a, (f a).Stable) :
    (length.bind fun n => (done (x n)).bind f).Stable := by
  intro start data hlong hpre
  change CutTo _ (((done (x start.length)).bind f).outcome start)
    (((done (x data.length)).bind f).outcome data)
  rw [outcome_bind_eq, outcome_bind_eq]
  exact (hx _ _ hpre.length_le).bind fun a => hf a start data hlong hpre

theorem stable_read (r : Region) : (read r).Stable := by
  intro start data hlong hpre
  simp only [read, outcome]
  split
  · rename_i bytes hbytes
    rw [Bytes.slice?_of_prefix hpre hbytes]
    exact .refl _
  · exact .truncated _ _ _

theorem stable_table (α : Type) [Record α] (order : ByteOrder) (offset count entrySize : UInt64) :
    (table α order offset count entrySize).Stable := by
  refine (stable_done _).bind fun _ => ?_
  refine stable_length_bind (fun n m _ => Region.cutTo_table ..) fun region => ?_
  exact (stable_read region).bind fun bytes => stable_done _

end Plan

/-! ### The file header -/

namespace FileHeader

/-- The header of a file is taken from its first 64 bytes, and checked against its length. -/
theorem outcome_readStaged {data : Bytes} :
    readStaged.outcome data = (do
      let header ← parse (data.take size)
      header.checkTables data.length
      return header) := by
  rw [← Plan.outcome_unstaged, unstaged_readStaged]
  simp only [read, Plan.bind_eq, Plan.lift_eq, Plan.pure_eq, Plan.outcome_bind_eq,
    Plan.outcome_leading (by decide : size < 2 ^ 64), Plan.outcome_length, Plan.outcome_done]
  rfl

theorem stable_readStaged : readStaged.Stable := by
  intro start data hlong hpre
  have hsame : data.take size = start.take size := by
    obtain ⟨rest, rfl⟩ := hpre
    exact List.take_append_of_le_length hlong
  rw [outcome_readStaged, outcome_readStaged, hsame]
  refine (CutTo.refl _).bind fun header => ?_
  exact (header.cutTo_checkTables hpre.length_le).bind fun _ => .refl _

/-- A file that ends within the header of a longer one is not taken for anything else. -/
theorem error_of_short {start data : Bytes} {header : FileHeader} (hshort : start.length < 64)
    (hpre : start <+: data) (h : header.StandsIn data) :
    (start.length < 4 ∧ readStaged.outcome start = .error (.notElf start)) ∨
      ∃ offset size, readStaged.outcome start =
        .error (.truncatedTable offset size start.length) := by
  obtain ⟨rest, rfl⟩ := hpre
  have htake : start.take size = start := List.take_of_length_le (Nat.le_of_lt hshort)
  rw [outcome_readStaged, htake, parse_eq]
  by_cases h4 : start.length < 4
  · -- the signature itself is cut
    have hsig : checkSignature start = .error (.notElf start) := by
      have hall : start.take 4 = start := List.take_of_length_le (Nat.le_of_lt h4)
      rw [checkSignature_eq_error_iff, hall]
      refine ⟨fun heq => ?_, rfl⟩
      rw [heq] at h4
      exact absurd h4 (by decide)
    rw [hsig]
    exact .inl ⟨h4, rfl⟩
  · refine .inr ?_
    have hsignature : start.take 4 = signature := by
      have hsame : (start ++ rest).take 4 = start.take 4 :=
        List.take_append_of_le_length (Nat.not_lt.1 h4)
      exact hsame.symm.trans h.signature
    have hsig : checkSignature start = .ok () := require_eq_ok_iff.2 hsignature
    by_cases h5 : start.length = 4
    · -- the class byte is missing
      have hclass : FileClass.ofStart start = .error (.truncatedTable 4 1 start.length) := by
        have hnone : start[4]? = none := List.getElem?_eq_none_iff.2 (Nat.le_of_eq h5)
        simp only [FileClass.ofStart, hsig, hnone]
        rfl
      rw [hsig, hclass]
      exact ⟨4, 1, rfl⟩
    · have hclass : FileClass.ofStart start = .ok .elf64 := by
        have hsame : (start ++ rest)[4]? = start[4]? := List.getElem?_append_left (by omega)
        exact FileClass.ofStart_eq_ok_iff.2 ⟨hsignature, hsame.symm.trans h.fileClass⟩
      have hfields : parseFields start = .error (.truncatedTable 0 64 start.length) := by
        have hlen : require (size ≤ start.length) (.truncatedTable 0 64 start.length) =
            .error (.truncatedTable 0 64 start.length) :=
          require_eq_error_iff.2 ⟨Nat.not_le.2 hshort, rfl⟩
        rw [parseFields, hlen]
        rfl
      rw [hsig, hclass]
      exact ⟨0, 64, congrArg (· >>= _) hfields⟩

end FileHeader

/-! ### The tables -/

theorem SectionHeader.stable_contents (s : SectionHeader) : s.contents.Stable := by
  unfold contents
  split
  · exact Plan.stable_read _
  · exact Plan.stable_done _

namespace SectionTable

theorem stable_readHeaders (h : FileHeader) (count : UInt64) : (readHeaders h count).Stable :=
  Plan.stable_table _ _ _ _ _

theorem stable_read (h : FileHeader) : (read h).Stable := by
  unfold read readFirst
  split
  · refine Plan.Stable.bind ?_ fun first? => ?_
    · split
      · exact (stable_readHeaders h 1).bind fun _ => Plan.stable_done _
      · exact Plan.stable_done _
    · exact (stable_readHeaders h _).bind fun _ => Plan.stable_done _
  · exact Plan.stable_done _

theorem stable_readNames (t : SectionTable) : t.readNames.Stable := by
  unfold readNames
  split
  · exact Plan.stable_done _
  · split
    · exact Plan.stable_done _
    · exact (SectionHeader.stable_contents _).bind fun _ => Plan.stable_done _

end SectionTable

namespace Linkage

theorem stable_readEntries (order : ByteOrder) (s : SectionHeader) :
    (readEntries order s).Stable := by
  refine (Plan.stable_done _).bind fun _ => ?_
  refine Plan.stable_length_bind (fun n m _ => ?_) fun _ => ?_
  · -- the size of the section is a whole number of entries or not, whatever the length
    exact .ite (.refl _) (.truncated _ _ _)
  · exact (Plan.stable_table _ _ _ _ _).bind fun _ => Plan.stable_done _

theorem stable_readStrings (sections : List SectionHeader) (entries : List DynamicEntry) :
    (readStrings sections entries).Stable := by
  unfold readStrings
  split
  · exact Plan.stable_done _
  · split
    · exact Plan.stable_done _
    · exact (SectionHeader.stable_contents _).bind fun _ => Plan.stable_done _

theorem stable_read (order : ByteOrder) (sections : List SectionHeader) :
    (read order sections).Stable := by
  unfold read
  split
  · exact Plan.stable_done _
  · refine (stable_readEntries _ _).bind fun entries => ?_
    split
    · refine (stable_readStrings _ _).bind fun strings => ?_
      exact (Plan.stable_done _).bind fun _ => Plan.stable_done _
    · exact Plan.stable_done _

end Linkage

/-! ### Files -/

namespace Image

theorem stable_readSegments (h : FileHeader) (sections : List SectionHeader) :
    (readSegments h sections).Stable := by
  simp only [readSegments]
  split
  · exact Plan.stable_done _
  · exact Plan.stable_table _ _ _ _ _

theorem stable_readInterpreter (segments : List ProgramHeader) :
    (readInterpreter segments).Stable := by
  unfold readInterpreter
  split
  · exact Plan.stable_done _
  · refine (Plan.stable_read _).bind fun bytes => ?_
    exact (Plan.stable_done _).bind fun _ => Plan.stable_done _

theorem stable_read : read.Stable := by
  refine FileHeader.stable_readStaged.bind fun header => ?_
  refine (SectionTable.stable_read header).bind fun table => ?_
  refine (stable_readSegments _ _).bind fun segments => ?_
  refine Plan.stable_length_bind (fun n m => cutTo_checkSections table.headers) fun _ => ?_
  refine (Plan.stable_reached _).bind fun _ => ?_
  refine table.stable_readNames.bind fun names => ?_
  refine (Plan.stable_reached _).bind fun _ => ?_
  refine (stable_readInterpreter _).bind fun interpreter => ?_
  refine (Linkage.stable_read _ _).bind fun linkage => ?_
  exact (Plan.stable_reached _).bind fun _ => Plan.stable_done _

end Image

/-- **A file that is cut off or extended never decodes to something else.**  Bytes after the end
of a file that can be decoded change nothing; and where the start of such a file cannot be decoded,
the cause is that something lies past the cut. -/
theorem decode_of_cut (start rest : Bytes) :
    (∀ image, decode start = .ok image → decode (start ++ rest) = .ok image) ∧
    ∀ image, decode (start ++ rest) = .ok image →
      decode start = .ok image ∨
      (start.length < 4 ∧ decode start = .error (.notElf start)) ∨
      ∃ offset size, decode start = .error (.truncatedTable offset size start.length) := by
  have hpre : start <+: start ++ rest := List.prefix_append ..
  simp only [decode_eq_outcome]
  constructor
  · intro image h
    have hlong := (Image.imageIn_of_outcome_read h).header.stands.long
    rcases Image.stable_read start (start ++ rest) hlong hpre with heq | ⟨offset, size, hcut⟩
    · rw [← heq]
      exact h
    · rw [hcut] at h
      cases h
  · intro image h
    by_cases hlong : 64 ≤ start.length
    · rcases Image.stable_read start (start ++ rest) hlong hpre with heq | hcut
      · exact .inl (heq.trans h)
      · exact .inr (.inr hcut)
    · -- decoding stops at the header already
      obtain ⟨next, hread, -⟩ := Image.exists_read_eq_bind
      have hstop : ∀ e, FileHeader.readStaged.outcome start = .error e →
          Image.read.outcome start = .error e := by
        intro e he
        rw [hread, Plan.outcome_bind_eq, he]
        rfl
      have hstands := (Image.imageIn_of_outcome_read h).header.stands
      rcases FileHeader.error_of_short (Nat.not_le.1 hlong) hpre hstands with
        ⟨h4, he⟩ | ⟨offset, size, he⟩
      · exact .inr (.inl ⟨h4, hstop _ he⟩)
      · exact .inr (.inr ⟨offset, size, hstop _ he⟩)

/-- A file with a byte more, and the same file without its last one. -/
theorem decode_of_cut_sample :
    decode (sampleFile ++ [7]) = .ok sampleImage ∧
    (decode sampleFile.dropLast = .ok sampleImage ∨
      (sampleFile.dropLast.length < 4 ∧
        decode sampleFile.dropLast = .error (.notElf sampleFile.dropLast)) ∨
      ∃ offset size, decode sampleFile.dropLast =
        .error (.truncatedTable offset size sampleFile.dropLast.length)) := by
  have hparts : sampleFile.dropLast ++ [16] = sampleFile := by decide +kernel
  refine ⟨(decode_of_cut sampleFile [7]).1 _ decode_sampleFile,
    (decode_of_cut sampleFile.dropLast [16]).2 sampleImage ?_⟩
  rw [hparts]
  exact decode_sampleFile

end ElfAnatomy
