import ElfAnatomy.ByteOrder
import ElfAnatomy.DecodeError

/-!
# Fixed-size records

A record type has a size in bytes and two functions that undo each other: one takes a block of
that size apart into fields, the other writes the fields one after another.

* `Record` : the size, the kind and the two functions; `LawfulRecord` : their laws.
* `Record.parseAll?`, `Record.encodeAll` : runs of records.

`parseAll?_encodeAll` and `encodeAll_of_parseAll?` say that a run of records and its bytes
determine each other.
-/

namespace ElfAnatomy

/-- A type of records with a fixed layout in the file. -/
class Record (α : Type) where
  /-- The number of bytes of a record. -/
  size : Nat
  /-- The kind of record, for causes of failure. -/
  kind : RecordKind
  /-- The record in the first `size` bytes, if there are as many. -/
  parse? : ByteOrder → Bytes → Option α
  /-- The bytes of a record. -/
  encode : ByteOrder → α → Bytes

/-- Records and blocks of `size` bytes correspond one to one, in either byte order. -/
class LawfulRecord (α : Type) [Record α] : Prop where
  size_pos : 0 < Record.size α
  length_encode : ∀ (order : ByteOrder) (a : α), (Record.encode order a).length = Record.size α
  parse?_encode : ∀ (order : ByteOrder) (a : α) (rest : Bytes),
    Record.parse? order (Record.encode order a ++ rest) = some a
  isSome_parse? : ∀ (order : ByteOrder) (bs : Bytes), Record.size α ≤ bs.length →
    (Record.parse? order bs : Option α).isSome
  encode_of_parse? : ∀ (order : ByteOrder) (bs : Bytes) (a : α),
    Record.parse? order bs = some a → Record.encode order a = bs.take (Record.size α)

/-- A record type is lawful if it reads a record exactly where that record is written. -/
theorem LawfulRecord.of_parse? {α : Type} [Record α] (size_pos : 0 < Record.size α)
    (length_encode : ∀ (order : ByteOrder) (a : α),
      (Record.encode order a).length = Record.size α)
    (isSome_parse? : ∀ (order : ByteOrder) (bs : Bytes), Record.size α ≤ bs.length →
      (Record.parse? order bs : Option α).isSome)
    (parse?_eq_some_iff : ∀ (order : ByteOrder) (bs : Bytes) (a : α),
      Record.parse? order bs = some a ↔
        Record.size α ≤ bs.length ∧ Record.encode order a = bs.take (Record.size α)) :
    LawfulRecord α where
  size_pos := size_pos
  length_encode := length_encode
  isSome_parse? := isSome_parse?
  encode_of_parse? order bs a h := ((parse?_eq_some_iff order bs a).1 h).2
  parse?_encode order a rest := by
    rw [parse?_eq_some_iff, ← length_encode order a]
    simp

namespace Record

variable {α : Type} [Record α]

/-- The records in the whole blocks of `bs`, in order. -/
def parseAll? (order : ByteOrder) (bs : Bytes) : Option (List α) :=
  (bs.chunks (size α)).mapM (parse? order)

/-- The bytes of a list of records, one after another. -/
def encodeAll (order : ByteOrder) (records : List α) : Bytes :=
  (records.map (encode order)).flatten

variable [LawfulRecord α]

theorem length_encodeAll (order : ByteOrder) (records : List α) :
    (encodeAll order records).length = size α * records.length := by
  induction records with
  | nil => simp [encodeAll]
  | cons a records ih =>
    rw [encodeAll] at ih ⊢
    rw [List.map_cons, List.flatten_cons, List.length_append, ih, LawfulRecord.length_encode,
      List.length_cons, Nat.mul_succ, Nat.add_comm]

theorem mapM_parse?_encode (order : ByteOrder) (records : List α) :
    (records.map (encode order)).mapM (parse? order) = some records := by
  induction records with
  | nil => rfl
  | cons a records ih =>
    have ha : parse? order (encode order a) = some a := by
      simpa using LawfulRecord.parse?_encode order a []
    simp [ha, ih]

/-- The bytes of a list of records are read back as that list. -/
theorem parseAll?_encodeAll (order : ByteOrder) (records : List α) :
    parseAll? order (encodeAll order records) = some records := by
  rw [parseAll?, encodeAll, Bytes.chunks_flatten LawfulRecord.size_pos, mapM_parse?_encode]
  simp only [List.forall_mem_map]
  exact fun a _ => LawfulRecord.length_encode order a

theorem flatten_of_mapM_parse? {order : ByteOrder} {parts : List Bytes} {records : List α}
    (hlen : ∀ part ∈ parts, part.length = size α)
    (h : parts.mapM (parse? order) = some records) : encodeAll order records = parts.flatten := by
  induction parts generalizing records with
  | nil =>
    simp only [List.mapM_nil, Option.pure_def, Option.some.injEq] at h
    simp [← h, encodeAll]
  | cons part parts ih =>
    obtain ⟨hp, hlen⟩ := List.forall_mem_cons.1 hlen
    simp only [List.mapM_cons, Option.bind_eq_bind, Option.bind_eq_some_iff, Option.pure_def,
      Option.some.injEq] at h
    obtain ⟨a, ha, as, has, rfl⟩ := h
    have henc := LawfulRecord.encode_of_parse? order part a ha
    rw [List.take_of_length_le (Nat.le_of_eq hp)] at henc
    have ih := ih hlen has
    rw [encodeAll] at ih ⊢
    rw [List.map_cons, List.flatten_cons, List.flatten_cons, henc, ih]

/-- A whole number of blocks is the bytes of the records read from it. -/
theorem encodeAll_of_parseAll? {order : ByteOrder} {bs : Bytes} {records : List α} {count : Nat}
    (hbs : bs.length = size α * count) (h : parseAll? order bs = some records) :
    encodeAll order records = bs := by
  rw [flatten_of_mapM_parse? (fun _ => Bytes.length_of_mem_chunks) h, Bytes.flatten_chunks hbs]

theorem isSome_parseAll? (order : ByteOrder) (bs : Bytes) :
    (parseAll? order bs : Option (List α)).isSome := by
  have key : ∀ parts : List Bytes, (∀ part ∈ parts, part.length = size α) →
      (parts.mapM (parse? (α := α) order)).isSome := by
    intro parts hlen
    induction parts with
    | nil => rfl
    | cons part parts ih =>
      obtain ⟨hp, hlen⟩ := List.forall_mem_cons.1 hlen
      obtain ⟨a, ha⟩ := Option.isSome_iff_exists.1
        (LawfulRecord.isSome_parse? (α := α) order part (Nat.le_of_eq hp.symm))
      obtain ⟨as, has⟩ := Option.isSome_iff_exists.1 (ih hlen)
      simp [ha, has]
  exact key _ fun _ => Bytes.length_of_mem_chunks

end Record

end ElfAnatomy
