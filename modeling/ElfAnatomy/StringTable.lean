import ElfAnatomy.DecodeError
import ElfAnatomy.Text.Utf8

/-!
# String tables

A string table is a run of bytes in which strings are NUL-terminated UTF-8.  A string is named by
the offset of its first byte, and may start inside another one.

`StringTable.resolve_eq_ok_iff` says what a resolved string is: its bytes and a NUL stand at the
offset, and there is no NUL among its bytes.  `StringTable.resolve_eq_error_iff` says what stands
there otherwise.
-/

namespace ElfAnatomy

/-- The bytes of a string table. -/
structure StringTable where
  bytes : Bytes
deriving DecidableEq, Repr

namespace StringTable

/-- The number of bytes. -/
def length (t : StringTable) : Nat := t.bytes.length

/-- The table from `start` on, cut off after `size` bytes if a size is given. -/
def window (t : StringTable) (start : Nat) (size : Option Nat) : StringTable :=
  match size with
  | some size => ⟨(t.bytes.drop start).take size⟩
  | none => ⟨t.bytes.drop start⟩

/-- The string that starts at `offset`.  There are bytes from there on exactly if the offset lies
inside the table. -/
def resolve (t : StringTable) (offset : UInt64) : Except DecodeError String :=
  let rest := t.bytes.drop offset.toNat
  if rest = [] then .error (.offsetOutOfRange offset t.length)
  else
    match Bytes.untilNul? rest with
    | none => .error (.unterminatedString offset)
    | some name =>
      match Utf8.decode? name with
      | none => .error (.invalidUtf8 offset)
      | some text => .ok text

variable {t : StringTable} {offset : UInt64} {text : String}

theorem resolve_of_le (h : t.length ≤ offset.toNat) :
    t.resolve offset = .error (.offsetOutOfRange offset t.length) := by
  rw [resolve, if_pos (List.drop_eq_nil_iff.2 h)]

theorem resolve_of_lt (h : offset.toNat < t.length) :
    t.resolve offset =
      match Bytes.untilNul? (t.bytes.drop offset.toNat) with
      | none => .error (.unterminatedString offset)
      | some name =>
        match Utf8.decode? name with
        | none => .error (.invalidUtf8 offset)
        | some text => .ok text := by
  rw [resolve, if_neg (mt List.drop_eq_nil_iff.1 (Nat.not_le.2 h))]

theorem resolve_eq_ok_iff :
    t.resolve offset = .ok text ↔
      0 ∉ Utf8.encode text ∧
        ∃ before after, before.length = offset.toNat ∧
          t.bytes = before ++ (Utf8.encode text ++ 0 :: after) := by
  have key : t.resolve offset = .ok text ↔
      offset.toNat < t.length ∧
        Bytes.untilNul? (t.bytes.drop offset.toNat) = some (Utf8.encode text) := by
    rcases Nat.lt_or_ge offset.toNat t.length with hin | hout
    · rw [resolve_of_lt hin, and_iff_right hin]
      cases Bytes.untilNul? (t.bytes.drop offset.toNat) with
      | none => simp
      | some name =>
        rw [Option.some.injEq, ← Utf8.decode?_eq_some_iff]
        cases hd : Utf8.decode? name <;> simp [hd]
    · simp [resolve_of_le hout, Nat.not_lt.2 hout]
  rw [key, Bytes.untilNul?_eq_some_iff]
  constructor
  · rintro ⟨hlt, h0, after, hafter⟩
    refine ⟨h0, t.bytes.take offset.toNat, after, ?_, ?_⟩
    · rw [List.length_take]
      exact Nat.min_eq_left (Nat.le_of_lt hlt)
    · rw [← hafter, List.take_append_drop]
  · rintro ⟨h0, before, after, hlen, h⟩
    refine ⟨?_, h0, after, ?_⟩
    · rw [length, h]
      simp only [List.length_append, List.length_cons]
      omega
    · rw [h, ← hlen, List.drop_left]

/-- A string is not found for one of three causes, and each has one place where it arises. -/
theorem resolve_eq_error_iff {e : DecodeError} :
    t.resolve offset = .error e ↔
      (t.length ≤ offset.toNat ∧ e = .offsetOutOfRange offset t.length) ∨
      (offset.toNat < t.length ∧ 0 ∉ t.bytes.drop offset.toNat ∧
        e = .unterminatedString offset) ∨
      ∃ name after, 0 ∉ name ∧ t.bytes.drop offset.toNat = name ++ 0 :: after ∧
        Utf8.decode? name = none ∧ e = .invalidUtf8 offset := by
  rcases Nat.lt_or_ge offset.toNat t.length with hin | hout
  · simp only [resolve_of_lt hin, Nat.not_le.2 hin, hin, false_and, false_or, true_and]
    cases hname : Bytes.untilNul? (t.bytes.drop offset.toNat) with
    | none =>
      have hopen := Bytes.untilNul?_eq_none_iff.1 hname
      simp only [Except.error.injEq, hopen, not_false_eq_true, true_and, eq_comm (a := e)]
      refine ⟨.inl, ?_⟩
      rintro (he | ⟨name, after, -, hdrop, -⟩)
      · exact he
      · exact absurd (hdrop ▸ List.mem_append_cons_self) hopen
    | some name =>
      obtain ⟨h0, after, hdrop⟩ := Bytes.untilNul?_eq_some_iff.1 hname
      have hnul : 0 ∈ t.bytes.drop offset.toNat := hdrop ▸ List.mem_append_cons_self
      simp only [hnul, not_true_eq_false, false_and, false_or]
      constructor
      · cases hd : Utf8.decode? name with
        | none =>
          rintro ⟨⟩
          exact ⟨name, after, h0, hdrop, hd, rfl⟩
        | some text => nofun
      · rintro ⟨name', after', h0', hdrop', hd, rfl⟩
        -- only one string ends at the first NUL
        have hname' := Bytes.untilNul?_eq_some_iff.2 ⟨h0', after', hdrop'⟩
        obtain rfl := Option.some.inj (hname.symm.trans hname')
        rw [hd]
  · have hnil : t.bytes.drop offset.toNat = [] := List.drop_eq_nil_iff.2 hout
    simp [resolve_of_le hout, hnil, hout, Nat.not_lt.2 hout, eq_comm (a := e)]

end StringTable

end ElfAnatomy
