import ElfAnatomy.Decoder
import ElfAnatomy.Proofs.Steps

/-!
# Kinds of causes

The causes of failure fall into kinds.  For every step that asks its source nothing, the kinds of
the causes that it can find are few, and known in advance.

* `CauseKind`, `DecodeError.kind` : the kinds of causes.
* `Plan.Gives` : what a step can come to, its results and the kinds of its causes.
* `Plan.gives_require`, `Plan.gives_mapM`, `Plan.gives_forM` : checks, and steps for a whole list.
* `StringTable.gives_resolve`, `Region.gives_table`, `FileHeader.gives_checkTables` and so on :
  **the kinds for the steps of the library**.
-/

namespace ElfAnatomy

/-- The kinds of causes of failure. -/
inductive CauseKind
  | notElf
  | unsupportedClass
  | unsupportedEncoding
  | layoutMismatch (record : RecordKind)
  | truncatedTable
  | offsetOutOfRange
  | unterminatedString
  | invalidUtf8
  | unresolvedStringTable
  | badSectionIndex
  | device
  | fieldOutside
deriving DecidableEq, Repr

/-- The kind of a cause. -/
@[simp] def DecodeError.kind : DecodeError → CauseKind
  | notElf _ => .notElf
  | unsupportedClass _ => .unsupportedClass
  | unsupportedEncoding _ => .unsupportedEncoding
  | layoutMismatch record _ _ => .layoutMismatch record
  | truncatedTable _ _ _ => .truncatedTable
  | offsetOutOfRange _ _ => .offsetOutOfRange
  | unterminatedString _ => .unterminatedString
  | invalidUtf8 _ => .invalidUtf8
  | unresolvedStringTable _ => .unresolvedStringTable
  | badSectionIndex _ _ => .badSectionIndex
  | device _ => .device
  | fieldOutside => .fieldOutside

namespace CauseKind

/-- The kinds of causes for which a string is not found in its table. -/
def strings : List CauseKind := [.offsetOutOfRange, .unterminatedString, .invalidUtf8]

/-- The kinds of causes that a file of another kind gives. -/
def foreign : List CauseKind := [.notElf, .unsupportedClass, .unsupportedEncoding]

/-- The kinds of causes that a malformed file gives. -/
def malformed : List CauseKind :=
  [.layoutMismatch .sectionHeader, .layoutMismatch .programHeader, .layoutMismatch .dynamicEntry,
    .truncatedTable, .offsetOutOfRange, .unterminatedString, .invalidUtf8, .unresolvedStringTable,
    .badSectionIndex]

theorem strings_subset_malformed : strings ⊆ malformed := by decide

theorem fieldOutside_notMem : fieldOutside ∉ foreign ++ malformed := by decide

end CauseKind

/-! ### Results and kinds -/

namespace Plan

variable {α β : Type} {A : α → Prop} {B : β → Prop} {kinds : List CauseKind}

/-- The result is in `A`, or the cause is of one of the kinds. -/
def Gives (A : α → Prop) (kinds : List CauseKind) : Except DecodeError α → Prop
  | .ok a => A a
  | .error e => e.kind ∈ kinds

@[simp] theorem gives_ok {a : α} : Gives A kinds (.ok a) ↔ A a := Iff.rfl

@[simp] theorem gives_error {e : DecodeError} : Gives A kinds (.error e) ↔ e.kind ∈ kinds :=
  Iff.rfl

theorem Gives.bind {x : Except DecodeError α} {g : α → Except DecodeError β} (h : Gives A kinds x)
    (hg : ∀ a, A a → Gives B kinds (g a)) : Gives B kinds (x >>= g) := by
  cases x with
  | ok a => exact hg a h
  | error e => exact h

theorem Gives.mono {A' : α → Prop} {kinds' : List CauseKind} {x : Except DecodeError α}
    (h : Gives A kinds x) (hA : ∀ a, A a → A' a) (hkinds : kinds ⊆ kinds') :
    Gives A' kinds' x := by
  cases x with
  | ok a => exact hA a h
  | error e => exact hkinds h

theorem Gives.of_subset {kinds' : List CauseKind} {x : Except DecodeError α} (h : Gives A kinds x)
    (hkinds : kinds ⊆ kinds') : Gives A kinds' x :=
  h.mono (fun _ => id) hkinds

/-- Of a result that is there it may be said that it is this one. -/
theorem Gives.eq_ok {x : Except DecodeError α} (h : Gives A kinds x) :
    Gives (fun a => x = .ok a) kinds x := by
  cases x with
  | ok a => exact rfl
  | error e => exact h

/-! ### Checks, and steps for a whole list -/

theorem gives_require {q : Prop} [Decidable q] {cause : DecodeError} :
    Gives (fun _ => q) [cause.kind] (require q cause) := by
  by_cases hq : q
  · rw [require, if_pos hq]
    exact hq
  · rw [require, if_neg hq]
    exact List.mem_singleton_self _

theorem gives_mapM {step : α → Except DecodeError β} (as : List α)
    (h : ∀ a, Gives (fun _ => True) kinds (step a)) :
    Gives (fun _ => True) kinds (as.mapM step) := by
  cases hall : as.mapM step with
  | ok bs => exact trivial
  | error e =>
    obtain ⟨a, -, ha⟩ := exists_of_mapM_eq_error hall
    have hstep := h a
    rwa [ha] at hstep

theorem gives_forM {step : α → Except DecodeError Unit} (as : List α)
    (h : ∀ a, Gives (fun _ => True) kinds (step a)) :
    Gives (fun _ => True) kinds (as.forM step) := by
  cases hall : as.forM step with
  | ok u => exact trivial
  | error e =>
    obtain ⟨a, -, ha⟩ := exists_of_forM_eq_error hall
    have hstep := h a
    rwa [ha] at hstep

end Plan

open Plan

/-! ### Regions, tables and strings -/

theorem Region.gives_check (r : Region) (n : Nat) :
    Gives (fun _ => r.stop ≤ n) [.truncatedTable] (r.check n) :=
  gives_require

theorem Region.gives_table (offset count entrySize : UInt64) (n : Nat) :
    Gives (fun _ => True) [.truncatedTable] (Region.table offset count entrySize n) := by
  unfold Region.table
  split
  · exact trivial
  · simp

/-- A table is refused only if it does not lie in the source. -/
theorem Region.gives_table_check (offset count entrySize : UInt64) (n : Nat) :
    Gives (fun _ => True) [.truncatedTable]
      (Region.table offset count entrySize n >>= fun region => region.check n) := by
  refine (Region.gives_table offset count entrySize n).bind ?_
  intro region _
  exact (region.gives_check n).mono (fun _ _ => trivial) (fun _ => id)

/-- Whole blocks are records, whatever their bytes. -/
theorem Plan.gives_parseAll? {α : Type} [Record α] [LawfulRecord α] (order : ByteOrder)
    (bytes : Bytes) (kinds : List CauseKind) :
    Gives (fun _ : List α => True) kinds (inside (Record.parseAll? order bytes)) := by
  obtain ⟨records, hrecords⟩ :=
    Option.isSome_iff_exists.1 (Record.isSome_parseAll? (α := α) order bytes)
  rw [hrecords]
  exact trivial

theorem StringTable.gives_resolve (t : StringTable) (offset : UInt64) :
    Gives (fun _ => True) CauseKind.strings (t.resolve offset) := by
  cases hr : t.resolve offset with
  | ok text => exact trivial
  | error e =>
    rcases resolve_eq_error_iff.1 hr with ⟨-, rfl⟩ | ⟨-, -, rfl⟩ | ⟨-, -, -, -, -, rfl⟩ <;>
      simp [CauseKind.strings]

theorem SectionTable.gives_nameOf (strings : StringTable) (s : SectionHeader) :
    Gives (fun _ => True) CauseKind.strings (nameOf strings s) := by
  unfold nameOf
  split
  · exact trivial
  · exact strings.gives_resolve _

theorem Linkage.gives_resolveAll (strings : StringTable) (entries : List DynamicEntry) :
    Gives (fun _ => True) CauseKind.strings (resolveAll strings entries) := by
  refine gives_mapM _ fun e => ?_
  have hone := strings.gives_resolve e.value
  cases hr : strings.resolve e.value with
  | ok text => exact trivial
  | error cause => rwa [hr] at hone

/-! ### The header -/

theorem gives_checkSignature (bs : Bytes) :
    Gives (fun _ => bs.take 4 = signature) [.notElf] (checkSignature bs) :=
  gives_require

theorem FileClass.gives_ofByte (b : UInt8) :
    Gives (fun _ => True) [.unsupportedClass] (ofByte b) := by
  unfold ofByte
  split
  · exact trivial
  · split
    · exact trivial
    · simp

theorem FileClass.gives_ofStart (bs : Bytes) :
    Gives (fun _ => True) [.notElf, .unsupportedClass, .truncatedTable] (ofStart bs) := by
  unfold ofStart
  refine ((gives_checkSignature bs).of_subset (by simp)).bind fun _ _ => ?_
  split
  · simp
  · exact (gives_ofByte _).of_subset (by simp)

theorem FileClass.gives_require64 (c : FileClass) :
    Gives (fun _ => c = elf64) [.unsupportedClass] c.require64 :=
  gives_require

namespace FileHeader

/-- With all 64 bytes there, only the byte order can be wrong. -/
theorem gives_parseFields (bs : Bytes) :
    Gives (fun _ => True) [.truncatedTable, .unsupportedEncoding] (parseFields bs) := by
  unfold parseFields
  refine (gives_require.of_subset (by simp)).bind fun _ hlong => ?_
  have h5 : 5 < bs.length := Nat.lt_of_lt_of_le (by decide) hlong
  rw [List.getElem?_eq_getElem h5]
  show Gives _ _ (ByteOrder.ofByte bs[5] >>= fun order => inside (fields? order bs))
  cases horder : ByteOrder.ofByte bs[5] with
  | error e =>
    obtain ⟨-, rfl⟩ := ByteOrder.ofByte_eq_error_iff.1 horder
    show Gives _ _ (.error _)
    simp
  | ok order =>
    obtain ⟨h, hfields⟩ := Option.isSome_iff_exists.1 (isSome_fields? order hlong)
    show Gives _ _ (inside (fields? order bs))
    rw [hfields]
    exact trivial

theorem gives_parse (bs : Bytes) :
    Gives (fun _ => True)
      [.notElf, .unsupportedClass, .truncatedTable, .unsupportedEncoding] (parse bs) := by
  refine ((FileClass.gives_ofStart bs).of_subset (by simp)).bind fun c _ => ?_
  refine (c.gives_require64.of_subset (by simp)).bind fun _ _ => ?_
  exact (gives_parseFields bs).of_subset (by simp)

theorem gives_checkSegmentTable (h : FileHeader) (n : Nat) :
    Gives (fun _ => True) [.truncatedTable, .layoutMismatch .programHeader]
      (h.checkSegmentTable n) := by
  unfold checkSegmentTable
  split
  · exact trivial
  · refine (gives_require.of_subset (by simp)).bind fun _ _ => ?_
    split
    · exact trivial
    · exact (Region.gives_table_check _ _ _ n).of_subset (by simp)

theorem gives_checkSectionTable (h : FileHeader) (n : Nat) :
    Gives (fun _ => True) [.truncatedTable, .layoutMismatch .sectionHeader]
      (h.checkSectionTable n) := by
  unfold checkSectionTable
  split
  · refine (gives_require.of_subset (by simp)).bind fun _ _ => ?_
    exact (Region.gives_table_check _ _ _ n).of_subset (by simp)
  · exact trivial

theorem gives_checkTables (h : FileHeader) (n : Nat) :
    Gives (fun _ => True)
      [.truncatedTable, .layoutMismatch .programHeader, .layoutMismatch .sectionHeader]
      (h.checkTables n) := by
  refine ((h.gives_checkSegmentTable n).of_subset (by simp)).bind fun _ _ => ?_
  exact (h.gives_checkSectionTable n).of_subset (by simp)

end FileHeader

/-! ### Sections -/

theorem SectionHeader.gives_check (s : SectionHeader) (count n : Nat) :
    Gives (fun _ => True) [.badSectionIndex, .truncatedTable] (s.check count n) := by
  unfold check
  refine (gives_require.of_subset (by simp)).bind fun _ _ => ?_
  split
  · exact (s.region.gives_check n).mono (fun _ _ => trivial) (by simp)
  · exact trivial

/-- A section table is refused for a section whose link or bytes lead outside. -/
theorem gives_checkSections (sections : List SectionHeader) (n : Nat) :
    Gives (fun u => checkSections sections n = .ok u) [.badSectionIndex, .truncatedTable]
      (checkSections sections n) :=
  (gives_forM sections fun s => s.gives_check sections.length n).eq_ok

end ElfAnatomy
