import ElfAnatomy.Record

/-!
# Dynamic entries

The dynamic section is a run of tagged values that ends with a null entry.  `DynamicEntry` is the
record, 16 bytes in the file, and `DynamicTag` what the library makes of a tag.
-/

namespace ElfAnatomy

/-- The meaning of a tag. -/
inductive DynamicTag
  /-- The end of the run. -/
  | null
  /-- The name of a library that is needed. -/
  | needed
  /-- The address of the string table. -/
  | strTab
  /-- The size of the string table. -/
  | strSz
  /-- The name of this shared object. -/
  | soName
  /-- A library search path, the older kind. -/
  | rPath
  /-- A library search path. -/
  | runPath
  /-- A tag that the library does not interpret. -/
  | other (code : Int64)
deriving DecidableEq, Repr

/-- The meaning of a tag's code. -/
def DynamicTag.ofCode (code : Int64) : DynamicTag :=
  if code = 0 then null
  else if code = 1 then needed
  else if code = 5 then strTab
  else if code = 10 then strSz
  else if code = 14 then soName
  else if code = 15 then rPath
  else if code = 29 then runPath
  else other code

/-- The value is the offset of a string. -/
def DynamicTag.namesString : DynamicTag → Bool
  | needed | soName | rPath | runPath => true
  | null | strTab | strSz | other _ => false

/-- An entry of the dynamic section. -/
structure DynamicEntry where
  /-- The code of the tag. -/
  code : Int64
  /-- The value, to be read as the tag says. -/
  value : UInt64
deriving DecidableEq, Repr

namespace DynamicEntry

/-- The entry in the first 16 bytes. -/
def parse? (order : ByteOrder) (bs : Bytes) : Option DynamicEntry := do
  return {
    code := ← order.field? bs 0
    value := ← order.field? bs 8 }

/-- The bytes of an entry. -/
def encode (order : ByteOrder) (e : DynamicEntry) : Bytes :=
  order.encode e.code ++ order.encode e.value

instance : Record DynamicEntry := ⟨16, .dynamicEntry, parse?, encode⟩

/-- The meaning of the entry's tag. -/
def tag (e : DynamicEntry) : DynamicTag := .ofCode e.code

/-- The entries up to the first null entry, which is kept. -/
def upToNull : List DynamicEntry → List DynamicEntry
  | [] => []
  | e :: es => if e.code = 0 then [e] else e :: upToNull es

end DynamicEntry

/-! ### The layout of a record -/

namespace DynamicEntry

open ByteOrder

/-- A record is read exactly where its bytes stand. -/
theorem parse?_eq_some_iff {order : ByteOrder} {bs : Bytes} {r : DynamicEntry} :
    parse? order bs = some r ↔ 16 ≤ bs.length ∧ r.encode order = bs.take 16 := by
  constructor
  · intro h
    obtain ⟨_, h0, h⟩ := Option.bind_eq_some_iff.1 h
    obtain ⟨_, h8, h⟩ := Option.bind_eq_some_iff.1 h
    cases Option.some.inj h
    refine ⟨(Bytes.slice?_eq_some_iff.1 (field?_eq_some_iff.1 h8)).1, ?_⟩
    have e0 := take_of_field? h0
    have e8 := take_of_field? h8
    simp only [width_uint64, width_int64, Nat.reduceAdd, List.take_zero, List.nil_append] at *
    simp only [DynamicEntry.encode, e0, e8]
  · rintro ⟨hle, h⟩
    rw [← List.take_append_drop 16 bs, ← h]
    simp only [parse?, encode, List.append_assoc, field?_append_of_le, field?_encode,
      length_encode, width_int64, Nat.le_refl, Nat.sub_self]
    rfl

theorem isSome_parse? (order : ByteOrder) {bs : Bytes} (h : 16 ≤ bs.length) :
    (parse? order bs).isSome := by
  obtain ⟨_, h0⟩ := exists_field? Int64 order bs 0 (by simp; omega)
  obtain ⟨_, h8⟩ := exists_field? UInt64 order bs 8 (by simp; omega)
  simp [DynamicEntry.parse?, h0, h8]

instance : LawfulRecord DynamicEntry :=
  .of_parse? (by decide) (fun order r => by simp [Record.encode, Record.size, DynamicEntry.encode])
    (fun order _ h => isSome_parse? order h) fun _ _ _ => parse?_eq_some_iff

end DynamicEntry

end ElfAnatomy
