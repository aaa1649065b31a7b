import ElfAnatomy.Proofs.Steps
import ElfAnatomy.Proofs.Utf8Syntax
import ElfAnatomy.StringTable

/-!
# Exact resolution of strings

An offset names at most one string of a table, and the bytes from the offset on decide which one it
is, or why there is none.  The writer of a table packs strings one after another with a NUL behind
each; what it has packed is found again, and so is every end of a packed string.

* `StringTable.Resolved` : what the result at an offset says about the table.
* `StringTable.pack`, `StringTable.startsFrom` : a packed table, and where its strings start.
* `StringTable.resolve_of_prefix` : a string stays where it is when the table is extended.
* `StringTable.resolve_append`, `StringTable.resolve_end` : a string is found where it starts, and
  so is each of its ends.
* `StringTable.forall₂_resolve_pack` : the packed strings are found at their starts.
* `StringTable.resolution_exact` : **every result is exact**, with these three consequences.
-/

namespace ElfAnatomy.StringTable

variable {t : StringTable} {offset : UInt64} {text : String}

/-- What the result at an offset says about the table.  A string ends at the first NUL from the
offset on, and the bytes up to there have to be well-formed. -/
structure Resolved (t : StringTable) (offset : UInt64) (result : Except DecodeError String) :
    Prop where
  ok_iff : ∀ text, result = .ok text ↔
    '\x00' ∉ text.toList ∧ ∃ before after, before.length = offset.toNat ∧
      t.bytes = before ++ Utf8.encode text ++ [0] ++ after
  outside_iff : result = .error (.offsetOutOfRange offset t.length) ↔ t.length ≤ offset.toNat
  open_iff : result = .error (.unterminatedString offset) ↔
    offset.toNat < t.length ∧ 0 ∉ t.bytes.drop offset.toNat
  invalid_iff : result = .error (.invalidUtf8 offset) ↔
    ∃ name after, 0 ∉ name ∧ t.bytes.drop offset.toNat = name ++ 0 :: after ∧
      ¬ Utf8.WellFormed name
  causes : ∀ e, result = .error e → e = .offsetOutOfRange offset t.length ∨
    e = .unterminatedString offset ∨ e = .invalidUtf8 offset

theorem resolve_eq_ok_iff_append : t.resolve offset = .ok text ↔
    '\x00' ∉ text.toList ∧ ∃ before after, before.length = offset.toNat ∧
      t.bytes = before ++ Utf8.encode text ++ [0] ++ after := by
  simp only [resolve_eq_ok_iff, Utf8.zero_mem_encode_iff, List.append_assoc, List.singleton_append]

theorem resolved (t : StringTable) (offset : UInt64) : Resolved t offset (t.resolve offset) where
  ok_iff _ := resolve_eq_ok_iff_append
  outside_iff := by simp [resolve_eq_error_iff]
  open_iff := by simp [resolve_eq_error_iff]
  invalid_iff := by simp [resolve_eq_error_iff, Utf8.not_wellFormed_iff]
  causes e he := by
    rcases resolve_eq_error_iff.1 he with ⟨-, h⟩ | ⟨-, -, h⟩ | ⟨-, -, -, -, -, h⟩
    · exact .inl h
    · exact .inr (.inl h)
    · exact .inr (.inr h)

/-! ### Tables that hold a string -/

/-- A string stays where it is when the table is extended. -/
theorem resolve_of_prefix {t' : StringTable} (hpre : t.bytes <+: t'.bytes)
    (h : t.resolve offset = .ok text) : t'.resolve offset = .ok text := by
  obtain ⟨hnul, before, after, hlen, hbytes⟩ := resolve_eq_ok_iff_append.1 h
  obtain ⟨rest, hrest⟩ := hpre
  refine resolve_eq_ok_iff_append.2 ⟨hnul, before, after ++ rest, hlen, ?_⟩
  rw [← hrest, hbytes, List.append_assoc]

/-- A string and its NUL that stand in the table are found where they start. -/
theorem resolve_append {before after : Bytes} (hnul : '\x00' ∉ text.toList)
    (hoffset : offset.toNat = before.length) :
    resolve ⟨before ++ (Utf8.encode text ++ [0]) ++ after⟩ offset = .ok text :=
  resolve_eq_ok_iff_append.2
    ⟨hnul, before, after, hoffset.symm, by simp only [List.append_assoc]⟩

/-- So is each end of the string, where this end starts. -/
theorem resolve_end {before after : Bytes} {front back : String} (hnul : '\x00' ∉ back.toList)
    (hoffset : offset.toNat = before.length + (Utf8.encode front).length) :
    resolve ⟨before ++ (Utf8.encode (front ++ back) ++ [0]) ++ after⟩ offset = .ok back := by
  rw [Utf8.encode_append, List.append_assoc (Utf8.encode front), ← List.append_assoc before]
  exact resolve_append hnul (by rw [hoffset, List.length_append])

/-! ### Packed tables -/

/-- The strings one after another, each with a NUL at its end. -/
def pack (strings : List String) : Bytes := strings.flatMap fun s => Utf8.encode s ++ [0]

/-- Where the strings start if the first one starts at `start`. -/
def startsFrom (start : Nat) : List String → List Nat
  | [] => []
  | s :: strings => start :: startsFrom (start + (Utf8.encode s ++ [0]).length) strings

theorem pack_append (strings later : List String) :
    pack (strings ++ later) = pack strings ++ pack later := List.flatMap_append

theorem pack_cons (s : String) (strings : List String) :
    pack (s :: strings) = Utf8.encode s ++ [0] ++ pack strings := List.flatMap_cons

/-- Strings that are packed behind `before` are found at their starts. -/
theorem forall₂_resolve_pack (before : Bytes) {strings : List String} {offsets : List UInt64}
    (hnul : ∀ s ∈ strings, '\x00' ∉ s.toList)
    (hstarts : offsets.map UInt64.toNat = startsFrom before.length strings) :
    List.Forall₂ (fun offset s => resolve ⟨before ++ pack strings⟩ offset = .ok s)
      offsets strings := by
  -- on the strings: the first one joins the bytes that the others are packed behind
  induction strings generalizing offsets before with
  | nil =>
    obtain rfl := List.map_eq_nil_iff.1 hstarts
    exact .nil
  | cons s strings ih =>
    obtain ⟨hs, hnul⟩ := List.forall_mem_cons.1 hnul
    obtain ⟨offset, offsets, rfl, hoffset, hoffsets⟩ := List.map_eq_cons_iff.1 hstarts
    rw [← List.length_append] at hoffsets
    rw [pack_cons, ← List.append_assoc]
    exact .cons (resolve_append hs hoffset) (ih _ hnul hoffsets)

theorem mapM_resolve_pack {strings : List String} {offsets : List UInt64}
    (hnul : ∀ s ∈ strings, '\x00' ∉ s.toList)
    (hstarts : offsets.map UInt64.toNat = startsFrom 0 strings) :
    offsets.mapM (resolve ⟨pack strings⟩) = .ok strings :=
  mapM_eq_ok_iff.2 (forall₂_resolve_pack [] hnul hstarts)

theorem resolve_pack_end {earlier later : List String} {front back : String}
    (hnul : '\x00' ∉ back.toList)
    (hoffset : offset.toNat = (pack earlier).length + (Utf8.encode front).length) :
    resolve ⟨pack (earlier ++ (front ++ back) :: later)⟩ offset = .ok back := by
  rw [pack_append, pack_cons, ← List.append_assoc]
  exact resolve_end hnul hoffset

/-- **Resolution is exact.**  Therefore a string that is found in the first bytes of a table is
found in the table, packed strings are found where they start, and an offset inside a packed string,
before one of its characters or before its NUL, gives the rest of it. -/
theorem resolution_exact :
    (∀ (t : StringTable) (offset : UInt64), Resolved t offset (t.resolve offset)) ∧
    (∀ (t t' : StringTable) (offset : UInt64) (text : String), t.bytes <+: t'.bytes →
      t.resolve offset = .ok text → t'.resolve offset = .ok text) ∧
    (∀ (strings : List String) (offsets : List UInt64), (∀ s ∈ strings, '\x00' ∉ s.toList) →
      offsets.map UInt64.toNat = startsFrom 0 strings →
      offsets.mapM (resolve ⟨pack strings⟩) = .ok strings) ∧
    ∀ (earlier later : List String) (front back : String) (offset : UInt64),
      '\x00' ∉ back.toList →
      offset.toNat = (pack earlier).length + (Utf8.encode front).length →
      resolve ⟨pack (earlier ++ (front ++ back) :: later)⟩ offset = .ok back :=
  ⟨resolved, fun _ _ _ _ => resolve_of_prefix, fun _ _ => mapM_resolve_pack,
    fun _ _ _ _ _ => resolve_pack_end⟩

/-- Two packed names, the end of the first one, and the middle of its second character. -/
theorem resolution_exact_names :
    pack ["lé", "bc"] = [0x6c, 0xc3, 0xa9, 0, 0x62, 0x63, 0] ∧
      [0, 4].mapM (resolve ⟨pack ["lé", "bc"]⟩) = .ok ["lé", "bc"] ∧
      resolve ⟨pack ["lé", "bc"]⟩ 1 = .ok "é" ∧
      resolve ⟨pack ["lé", "bc"]⟩ 2 = .error (.invalidUtf8 2) := by
  obtain ⟨hresolved, hprefix, hpack, hend⟩ := resolution_exact
  refine ⟨by decide, hpack ["lé", "bc"] [0, 4] (by decide) (by decide),
    hprefix ⟨pack ["lé"]⟩ _ 1 "é" (by decide) (hend [] [] "l" "é" 1 (by decide) (by decide)),
    (hresolved _ 2).invalid_iff.2 ⟨[0xa9], [0x62, 0x63, 0], by decide, by decide, ?_⟩⟩
  rw [Utf8.not_wellFormed_iff]
  decide

end ElfAnatomy.StringTable
