import ElfAnatomy.Proofs.Strings

/-!
# Where an address leads

The string table of the dynamic section is given by an address in memory.  Of the sections in the
file, one that starts at the address goes before one that merely contains it, and the string table
is what that section holds from the address on.

* `SectionHeader.HoldsAddr` : the section is in the file, and its memory contains the address.
* `Placed` : what a look-up finds in any case.
* `Located` : what a look-up should find, whichever sections there are.
* `of_startingAt?`, `of_containing?` : what either search says about its section.
* `located_iff` : **a look-up finds what it should, unless it comes upon an empty section that
  starts at the address.**

An empty section contains no address at all, not even the one it starts at.  The search for a
section that starts at the address does not ask for its size.
-/

namespace ElfAnatomy

variable {sections : List SectionHeader} {addr : UInt64} {s : SectionHeader} {place : Location}

/-- The section is in the file, and its memory contains the address. -/
def SectionHeader.HoldsAddr (s : SectionHeader) (addr : UInt64) : Prop :=
  s.occupiesFile = true ∧ s.addr ≠ 0 ∧ s.addr.toNat ≤ addr.toNat ∧
    addr.toNat < s.addr.toNat + s.size.toNat

/-- The look-up of an address has found a place in the file that the address leads to, if there is
one.  The section there need not hold the address. -/
structure Placed (sections : List SectionHeader) (addr : UInt64) (found : Option Location) :
    Prop where
  /-- What is found is a section of the list that is in the file, and how far the address is from
  its start. -/
  place : ∀ place, found = some place →
    sections[place.index]? = some place.header ∧ place.header.occupiesFile = true ∧
      place.header.addr.toNat + place.offset.toNat = addr.toNat
  /-- A section that starts at the address goes first. -/
  starts : (∃ s ∈ sections, s.occupiesFile = true ∧ s.addr = addr ∧ s.addr ≠ 0) →
    ∃ place, found = some place ∧ place.header.addr = addr
  /-- Nothing is found exactly if no section of the file starts at the address or holds it. -/
  none_iff : found = none ↔ ∀ s ∈ sections,
    ¬ (s.occupiesFile = true ∧ s.addr = addr ∧ s.addr ≠ 0) ∧ ¬ s.HoldsAddr addr

/-- The look-up of an address has found what it should. -/
structure Located (sections : List SectionHeader) (addr : UInt64) (found : Option Location) :
    Prop where
  /-- What is found is a section of the list and the place of the address inside it. -/
  inside : ∀ place, found = some place →
    sections[place.index]? = some place.header ∧ place.header.occupiesFile = true ∧
      place.header.addr.toNat + place.offset.toNat = addr.toNat ∧
      place.offset.toNat < place.header.size.toNat
  /-- If a section holds the address, the one that is found does, -/
  holds : (∃ s ∈ sections, s.HoldsAddr addr) →
    ∃ place, found = some place ∧ place.header.HoldsAddr addr
  /-- and it starts there if one of these sections does. -/
  starts : (∃ s ∈ sections, s.HoldsAddr addr ∧ s.addr = addr) →
    ∃ place, found = some place ∧ place.header.addr = addr
  /-- Nothing is found exactly if no section holds the address. -/
  none_iff : found = none ↔ ∀ s ∈ sections, ¬ s.HoldsAddr addr

/-! ### The two searches -/

theorem of_startingAt? (h : startingAt? sections addr = some s) :
    s ∈ sections ∧ s.occupiesFile = true ∧ s.addr = addr ∧ s.addr ≠ 0 :=
  ⟨List.mem_of_find?_eq_some h, by simpa using List.find?_some h⟩

theorem of_containing? (h : containing? sections addr = some s) :
    s ∈ sections ∧ s.HoldsAddr addr :=
  ⟨List.mem_of_find?_eq_some h, by simpa [SectionHeader.HoldsAddr] using List.find?_some h⟩

theorem containing?_eq_none_iff :
    containing? sections addr = none ↔ ∀ s ∈ sections, ¬ s.HoldsAddr addr := by
  simp [containing?, SectionHeader.HoldsAddr]

theorem startingAt?_eq_none_iff :
    startingAt? sections addr = none ↔
      ∀ s ∈ sections, ¬ (s.occupiesFile = true ∧ s.addr = addr ∧ s.addr ≠ 0) := by
  simp [startingAt?]

/-- A section that starts at an address holds it unless the section is empty. -/
theorem SectionHeader.holdsAddr_iff_of_starts (hfile : s.occupiesFile = true) (hzero : s.addr ≠ 0)
    (haddr : s.addr = addr) : s.HoldsAddr addr ↔ s.size ≠ 0 := by
  have hpos : s.size ≠ 0 ↔ 0 < s.size.toNat := by
    rw [Nat.pos_iff_ne_zero, ne_eq, ← UInt64.toNat_inj, UInt64.toNat_zero]
  rw [← haddr, HoldsAddr, hpos]
  simp [hfile, hzero]

/-- The section that is found is listed at the index that is found. -/
theorem getElem?_of_locateAddress? (h : locateAddress? sections addr = some place) :
    sections[place.index]? = some place.header := by
  obtain ⟨q, hq, rfl⟩ := Option.map_eq_some_iff.1 h
  rw [Option.orElse_eq_orElse, Option.orElse_eq_or, Option.or_eq_some_iff] at hq
  have hmem : q ∈ sections.zipIdx.filter fun p => p.1.occupiesFile := by
    rcases hq with hq | ⟨-, hq⟩
    · exact List.mem_of_find?_eq_some hq
    · exact List.mem_of_find?_eq_some hq
  exact List.mem_zipIdx_iff_getElem?.1 (List.mem_filter.1 hmem).1

/-! ### The look-up -/

/-- A section that starts at the address is found first, whatever its size. -/
theorem exists_of_startingAt? (h : startingAt? sections addr = some s) :
    ∃ place, locateAddress? sections addr = some place ∧ place.header = s := by
  have hmap := map_header_locateAddress? sections addr
  rw [h] at hmap
  exact Option.map_eq_some_iff.1 hmap

/-- So if there is such a section, one is found. -/
theorem exists_of_starts (h : ∃ s ∈ sections, s.occupiesFile = true ∧ s.addr = addr ∧ s.addr ≠ 0) :
    ∃ place, locateAddress? sections addr = some place ∧ place.header.addr = addr := by
  obtain ⟨s, hs, hstarts⟩ := h
  obtain ⟨s', hstart⟩ := Option.ne_none_iff_exists'.1
    fun hnone => startingAt?_eq_none_iff.1 hnone s hs hstarts
  obtain ⟨place, hplace, rfl⟩ := exists_of_startingAt? hstart
  exact ⟨place, hplace, (of_startingAt? hstart).2.2.1⟩

/-- Where no section starts at the address, the look-up is the search for one that contains it. -/
theorem map_header_of_startingAt?_eq_none (h : startingAt? sections addr = none) :
    (locateAddress? sections addr).map Location.header = containing? sections addr := by
  rw [map_header_locateAddress?, h]
  rfl

theorem toNat_offset_of_locateAddress? (h : locateAddress? sections addr = some place) :
    place.header.addr.toNat + place.offset.toNat = addr.toNat := by
  obtain ⟨-, -, hle, hoffset⟩ := of_locateAddress? h
  omega

/-- The section that is found holds the address, unless it starts there and is empty. -/
theorem holdsAddr_of_locateAddress?
    (hfull : ∀ s, startingAt? sections addr = some s → s.size ≠ 0)
    (h : locateAddress? sections addr = some place) : place.header.HoldsAddr addr := by
  cases hstart : startingAt? sections addr with
  | some s =>
    obtain ⟨place', hplace, rfl⟩ := exists_of_startingAt? hstart
    rw [h] at hplace
    cases hplace
    obtain ⟨-, hfile, haddr, hzero⟩ := of_startingAt? hstart
    exact (SectionHeader.holdsAddr_iff_of_starts hfile hzero haddr).2 (hfull _ hstart)
  | none =>
    have hmap := map_header_of_startingAt?_eq_none hstart
    rw [h] at hmap
    exact (of_containing? hmap.symm).2

theorem locateAddress?_eq_none_iff :
    locateAddress? sections addr = none ↔ ∀ s ∈ sections,
      ¬ (s.occupiesFile = true ∧ s.addr = addr ∧ s.addr ≠ 0) ∧ ¬ s.HoldsAddr addr := by
  have hmap : locateAddress? sections addr = none ↔
      startingAt? sections addr = none ∧ containing? sections addr = none := by
    rw [← Option.map_eq_none_iff, map_header_locateAddress?, Option.orElse_eq_orElse,
      Option.orElse_eq_or, Option.or_eq_none_iff]
  rw [hmap, startingAt?_eq_none_iff, containing?_eq_none_iff, ← forall₂_and]

theorem locateAddress?_eq_none_iff_of_full
    (hfull : ∀ s, startingAt? sections addr = some s → s.size ≠ 0) :
    locateAddress? sections addr = none ↔ ∀ s ∈ sections, ¬ s.HoldsAddr addr := by
  constructor
  · intro h s hs
    exact (locateAddress?_eq_none_iff.1 h s hs).2
  · intro h
    rw [Option.eq_none_iff_forall_ne_some]
    intro place hplace
    exact h _ (of_locateAddress? hplace).1 (holdsAddr_of_locateAddress? hfull hplace)

theorem placed_locateAddress? (sections : List SectionHeader) (addr : UInt64) :
    Placed sections addr (locateAddress? sections addr) where
  place := fun _ hplace => ⟨getElem?_of_locateAddress? hplace, (of_locateAddress? hplace).2.1,
    toNat_offset_of_locateAddress? hplace⟩
  starts := exists_of_starts
  none_iff := locateAddress?_eq_none_iff

/-- **A look-up finds a place in any case, and finds what it should exactly if the first section of
the file that starts at the address, if there is one, is not empty.** -/
theorem located_iff (sections : List SectionHeader) (addr : UInt64) :
    Placed sections addr (locateAddress? sections addr) ∧
      (Located sections addr (locateAddress? sections addr) ↔
        ∀ s, startingAt? sections addr = some s → s.size ≠ 0) := by
  have hplaced := placed_locateAddress? sections addr
  refine ⟨hplaced, ?_, ?_⟩
  · intro h s hstart hempty
    obtain ⟨place, hplace, rfl⟩ := exists_of_startingAt? hstart
    have hlt := (h.inside place hplace).2.2.2
    rw [hempty] at hlt
    exact Nat.not_lt_zero _ hlt
  · intro hfull
    have hnone := locateAddress?_eq_none_iff_of_full hfull
    refine ⟨?_, ?_, ?_, hnone⟩
    · intro place hplace
      obtain ⟨hindex, hfile, hoffset⟩ := hplaced.place place hplace
      obtain ⟨-, -, -, hlt⟩ := holdsAddr_of_locateAddress? hfull hplace
      exact ⟨hindex, hfile, hoffset, by omega⟩
    · rintro ⟨s, hs, hholds⟩
      obtain ⟨place, hplace⟩ := Option.ne_none_iff_exists'.1 fun h => hnone.1 h s hs hholds
      exact ⟨place, hplace, holdsAddr_of_locateAddress? hfull hplace⟩
    · rintro ⟨s, hs, hholds, haddr⟩
      exact hplaced.starts ⟨s, hs, hholds.1, haddr, hholds.2.1⟩

/-- An empty section and a string table of sixteen bytes, both starting at one address. -/
def emptyStart : List SectionHeader :=
  [{ name := 0, type := 3, flags := 0, addr := 0x1000, offset := 0, size := 0, link := 0,
     info := 0, addralign := 0, entsize := 0 },
    { name := 0, type := 3, flags := 0, addr := 0x1000, offset := 0, size := 16, link := 0,
      info := 0, addralign := 0, entsize := 0 }]

/-- The empty section is found, although the other one holds the address. -/
theorem not_located_emptyStart :
    ¬ Located emptyStart 0x1000 (locateAddress? emptyStart 0x1000) ∧
      (∃ s ∈ emptyStart, s.HoldsAddr 0x1000 ∧ s.addr = 0x1000) ∧
      ∃ place, locateAddress? emptyStart 0x1000 = some place ∧ ¬ place.header.HoldsAddr 0x1000 := by
  have hfound : locateAddress? emptyStart 0x1000 = some ⟨0, emptyStart[0], 0⟩ := by decide
  refine ⟨?_, ⟨emptyStart[1], by simp [emptyStart], ⟨⟨rfl, by decide, by decide, by decide⟩, rfl⟩⟩,
    _, hfound, ?_⟩
  · intro h
    exact absurd (h.inside _ hfound).2.2.2 (by decide)
  · rintro ⟨-, -, -, hlt⟩
    exact absurd hlt (by decide)

end ElfAnatomy
