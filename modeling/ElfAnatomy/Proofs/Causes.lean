import ElfAnatomy.Proofs.Delivery
import ElfAnatomy.Proofs.Fidelity
import ElfAnatomy.Proofs.Kinds

/-!
# Which causes a plan can fail with

Most plans can fail in a few ways only, and what earlier checks have found out rules out some of
these.  The length of the source plays a part in it, and so does the number of bytes that a region
brings; everything else about the device is left open.

* `Plan.EndsOn`, `Plan.run_of_endsOn` : what holds of every end of a plan on sources of one length.
* `Plan.Yields` : the results of a plan that notes no stage, and the kinds of its causes.
* `SectionTable.yields_read`, `Image.yields_readSegments`, `SectionTable.yields_readNames`,
  `Image.yields_readInterpreter`, `Linkage.yields_read` : **the kinds for every part of a run** that
  follows the header.
-/

namespace ElfAnatomy

/-! ### Ends of a plan on sources of one length -/

namespace Plan

variable {α β : Type} {n : Nat} {s : Stage} {p : Plan α} {f : α → Plan β}

/-- On a source of `n` bytes every end of the plan satisfies `P`, given the stage at which it
comes.  A region that lies in the source comes in full, unless the device fails. -/
def EndsOn (n : Nat) (P : Stage → Except DecodeError α → Prop) : Stage → Plan α → Prop
  | s, done result => P s result
  | s, askLength next => EndsOn n P s (next n)
  | s, fetch r next =>
    (n < r.stop → P s (.error (.truncatedTable r.offset r.size n))) ∧
      (r.stop ≤ n → (∀ cause, P s (.error (.device cause))) ∧
        ∀ bytes : Bytes, bytes.length = r.size.toNat → EndsOn n P s (next bytes))
  | _, reach s next => EndsOn n P s next

section

variable {P : Stage → Except DecodeError α → Prop}

/-- **A run ends as its plan does** on sources of that length. -/
theorem run_of_endsOn (now : Progress) (h : EndsOn now.source.length P now.stage p) :
    P (p.run now).2.stage (p.run now).1 := by
  induction p generalizing now with
  | done result => exact h
  | askLength next ih => exact ih _ now h
  | fetch region next ih =>
    have hfetched := now.source.fetched region
    unfold run
    rcases hf : now.source.fetch region with ⟨result, after⟩
    rw [hf] at hfetched
    cases hfetched with
    | refused hlt => exact h.1 hlt
    | failed hle cause => exact (h.2 hle).1 cause
    | delivered hle hbytes hlength => exact ih _ _ ((h.2 hle).2 _ hlength)
  | reach stage next ih => exact ih { now with stage } h

/-- The ends of two plans, one after the other, are those of the second one, which starts at the
stage where the first one ends, and the failures of the first one. -/
theorem EndsOn.bind {Q : Stage → Except DecodeError β → Prop} (h : EndsOn n P s p)
    (hok : ∀ t a, P t (.ok a) → EndsOn n Q t (f a))
    (herror : ∀ t e, P t (.error e) → Q t (.error e)) : EndsOn n Q s (p.bind f) := by
  induction p generalizing s with
  | done result =>
    cases result with
    | ok a => exact hok s a h
    | error e => exact herror s e h
  | askLength next ih => exact ih _ h
  | fetch region next ih =>
    refine ⟨fun hlt => herror s _ (h.1 hlt), fun hle => ?_⟩
    obtain ⟨hfail, hnext⟩ := h.2 hle
    exact ⟨fun cause => herror s _ (hfail cause), fun bytes hb => ih bytes (hnext bytes hb)⟩
  | reach stage next ih => exact ih h

end

/-! ### Plans that note no stage -/

/-- On a source of `n` bytes the plan notes no stage, and gives a result in `A` or a cause of one
of the kinds. -/
def Yields (n : Nat) (A : α → Prop) (kinds : List CauseKind) (p : Plan α) : Prop :=
  ∀ s, EndsOn n (fun t result => t = s ∧ Gives A kinds result) s p

variable {A : α → Prop} {B : β → Prop} {kinds : List CauseKind}

theorem Yields.bind (h : p.Yields n A kinds) (hf : ∀ a, A a → (f a).Yields n B kinds) :
    (p.bind f).Yields n B kinds := by
  intro s
  refine (h s).bind ?_ ?_
  · rintro t a ⟨rfl, ha⟩
    exact hf a ha t
  · rintro t e ⟨rfl, he⟩
    exact ⟨rfl, he⟩

/-- There may be more kinds, and less may be said of the result. -/
theorem Yields.mono {A' : α → Prop} {kinds' : List CauseKind} (h : p.Yields n A kinds)
    (hA : ∀ a, A a → A' a) (hkinds : kinds ⊆ kinds') : p.Yields n A' kinds' := by
  intro s
  rw [← bind_pure p]
  refine (h s).bind ?_ ?_
  · rintro t a ⟨rfl, ha⟩
    exact ⟨rfl, hA a ha⟩
  · rintro t e ⟨rfl, he⟩
    exact ⟨rfl, hkinds he⟩

theorem Yields.of_subset {kinds' : List CauseKind} (h : p.Yields n A kinds)
    (hkinds : kinds ⊆ kinds') : p.Yields n A kinds' :=
  h.mono (fun _ => id) hkinds

theorem yields_done {x : Except DecodeError α} (h : Gives A kinds x) :
    (done x).Yields n A kinds :=
  fun _ => ⟨rfl, h⟩

theorem yields_length_bind {f : Nat → Plan β} (h : (f n).Yields n B kinds) :
    (length.bind f).Yields n B kinds :=
  h

/-! ### Regions and tables -/

theorem yields_read (r : Region) :
    (read r).Yields n (fun bytes => bytes.length = r.size.toNat) [.truncatedTable, .device] := by
  intro s
  refine ⟨fun _ => ⟨rfl, by simp⟩, fun _ => ⟨fun _ => ⟨rfl, by simp⟩, ?_⟩⟩
  intro bytes hb
  exact ⟨rfl, hb⟩

/-- A region that lies in the source only fails with the device. -/
theorem yields_read_of_le {r : Region} (hr : r.stop ≤ n) :
    (read r).Yields n (fun bytes => bytes.length = r.size.toNat) [.device] := by
  intro s
  refine ⟨fun hlt => absurd hr (Nat.not_le.2 hlt), fun _ => ⟨fun _ => ⟨rfl, by simp⟩, ?_⟩⟩
  intro bytes hb
  exact ⟨rfl, hb⟩

/-- The first bytes of a source are always there. -/
theorem yields_leading {max : Nat} (hmax : max < 2 ^ 64) :
    (leading max).Yields n (fun bytes => bytes.length = min n max) [.device] := by
  have hsize : (UInt64.ofNat (min n max)).toNat = min n max := toNat_ofNat_min hmax
  refine yields_length_bind ?_
  have hin : Region.stop ⟨0, .ofNat (min n max)⟩ ≤ n := by
    rw [Region.stop, hsize, UInt64.toNat_zero]
    omega
  exact (yields_read_of_le hin).mono (fun bytes hb => hb.trans hsize) (fun _ => id)

section

variable [Record α] [LawfulRecord α] {order : ByteOrder} {offset count entrySize : UInt64}

/-- A table of which the entry size is right fails if it does not lie in the source, or with the
device. -/
theorem yields_table (hsize : entrySize.toNat = Record.size α) :
    (table α order offset count entrySize).Yields n (fun _ => True)
      [.truncatedTable, .device] := by
  have hregion := (yields_done (n := n) (Region.gives_table offset count entrySize n)).of_subset
    (by simp : _ ⊆ [CauseKind.truncatedTable, .device])
  unfold table
  rw [(require_eq_ok_iff (u := ())).2 hsize]
  refine yields_length_bind (hregion.bind fun region _ => ?_)
  exact (yields_read region).bind fun bytes _ => yields_done (gives_parseAll? order bytes _)

/-- A table that is known to lie in the source only fails with the device.  Its size has to be a
word. -/
theorem yields_table_of_le (hsize : entrySize.toNat = Record.size α)
    (hsmall : count.toNat * entrySize.toNat < 2 ^ 64)
    (hin : offset.toNat + count.toNat * entrySize.toNat ≤ n) :
    (table α order offset count entrySize).Yields n (fun _ => True) [.device] := by
  have hregion : Region.table offset count entrySize n = .ok ⟨offset, count * entrySize⟩ :=
    if_pos hsmall
  have hstop : Region.stop ⟨offset, count * entrySize⟩ ≤ n := by
    rw [Region.stop, (Region.table_eq_ok_iff.1 hregion).2]
    exact hin
  unfold table
  rw [(require_eq_ok_iff (u := ())).2 hsize]
  refine yields_length_bind ?_
  rw [hregion]
  exact (yields_read_of_le hstop).bind fun bytes _ => yields_done (gives_parseAll? order bytes _)

end

end Plan

open Plan

/-! ### Parts of a run -/

variable {n : Nat}

theorem SectionHeader.yields_contents {s : SectionHeader} {count : Nat} (hs : s.Sound count n) :
    s.contents.Yields n (fun _ => True) [.device] := by
  unfold contents
  split
  · rename_i ho
    exact (yields_read_of_le (hs.stop_le ho)).mono (fun _ _ => trivial) (fun _ => id)
  · exact yields_done trivial

namespace SectionTable

variable {h : FileHeader}

/-- The section table is found not to lie in the source only if the header leaves the number of
its entries open. -/
theorem yields_read
    (hh : h.shnum = 0 ∧ h.shoff = 0 ∨
      h.shentsize = 64 ∧ h.shoff.toNat + 64 * max h.shnum.toNat 1 ≤ n) :
    (read h).Yields n (fun _ => True)
      (if h.shnum = 0 then [.truncatedTable, .device] else [.device]) := by
  by_cases hs : h.hasSections = true
  · rw [read, if_pos hs]
    obtain ⟨hsize, hroom⟩ := hh.resolve_left (FileHeader.hasSections_iff.1 hs)
    have hentry : h.shentsize.toUInt64.toNat = Record.size SectionHeader := by
      rw [hsize]
      rfl
    -- there is room for as many entries as the header gives, and for one in any case
    have hdeclared : ∀ count : UInt64, count.toNat ≤ max h.shnum.toNat 1 →
        (readHeaders h count).Yields n (fun _ => True) [.device] := by
      intro count hcount
      have hfew := h.shnum.toNat_lt
      refine yields_table_of_le hentry ?_ ?_
      · rw [hentry]
        show count.toNat * 64 < _
        omega
      · rw [hentry]
        show _ + count.toNat * 64 ≤ n
        omega
    have hfirst : (readFirst h).Yields n (fun _ => True) [.device] := by
      unfold readFirst
      split
      · exact (hdeclared 1 (Nat.le_max_right ..)).bind fun _ _ => yields_done trivial
      · exact yields_done trivial
    by_cases hnum : h.shnum = 0
    · rw [if_pos hnum]
      refine (hfirst.of_subset (by simp)).bind fun first? _ => ?_
      exact (yields_table hentry).bind fun _ _ => yields_done trivial
    · rw [if_neg hnum]
      refine hfirst.bind fun first? _ => ?_
      have hcount : count h first? = h.shnum.toUInt64 := by
        cases first? with
        | none => rfl
        | some first => exact if_neg hnum
      rw [hcount]
      refine (hdeclared _ ?_).bind fun _ _ => yields_done trivial
      rw [UInt16.toNat_toUInt64]
      exact Nat.le_max_left ..
  · rw [read, if_neg hs]
    exact yields_done trivial

theorem yields_readNames {t : SectionTable}
    (hsound : ∀ s ∈ t.headers, s.Sound t.headers.length n) :
    t.readNames.Yields n (fun _ => True)
      (.badSectionIndex :: .device :: CauseKind.strings) := by
  unfold readNames
  split
  · exact yields_done trivial
  · split
    · exact yields_done (by simp)
    · rename_i holder hholder
      have hin := SectionHeader.yields_contents (hsound holder (List.mem_of_getElem? hholder))
      refine (hin.of_subset (by simp)).bind fun bytes _ => ?_
      refine (yields_done (gives_mapM _ (gives_nameOf _))).of_subset ?_
      simp

end SectionTable

namespace Image

/-- The program header table is found not to lie in the source only if the header leaves the number
of its entries open. -/
theorem yields_readSegments {h : FileHeader} (sections : List SectionHeader)
    (hh : h.phnum = 0 ∨
      h.phentsize = 56 ∧ (h.phnum = 0xffff ∨ h.phoff.toNat + 56 * h.phnum.toNat ≤ n)) :
    (readSegments h sections).Yields n (fun _ => True)
      (if h.phnum = 0xffff then [.truncatedTable, .device] else [.device]) := by
  unfold readSegments
  by_cases h0 : segmentCount h sections = 0
  · simp only [if_pos h0]
    exact yields_done trivial
  · simp only [if_neg h0]
    obtain ⟨hsize, hroom⟩ := hh.resolve_left fun hz => h0 (segmentCount_eq_zero hz)
    have hentry : h.phentsize.toUInt64.toNat = Record.size ProgramHeader := by
      rw [hsize]
      rfl
    by_cases hx : h.phnum = 0xffff
    · rw [if_pos hx]
      exact yields_table hentry
    · rw [if_neg hx]
      have hcount : (segmentCount h sections).toNat = h.phnum.toNat :=
        SegmentCount.eq_phnum (segmentCount_iff.2 rfl) hx
      have hfits := hroom.resolve_left hx
      have hfew := h.phnum.toNat_lt
      refine yields_table_of_le hentry ?_ ?_
      · rw [hentry, hcount]
        show h.phnum.toNat * 56 < _
        omega
      · rw [hentry, hcount]
        show _ + h.phnum.toNat * 56 ≤ n
        omega

theorem yields_readInterpreter (segments : List ProgramHeader) :
    (readInterpreter segments).Yields n (fun _ => True)
      (.truncatedTable :: .device :: CauseKind.strings) := by
  unfold readInterpreter
  split
  · exact yields_done trivial
  · refine ((yields_read _).of_subset (by simp)).bind fun bytes _ => ?_
    refine ((yields_done (StringTable.gives_resolve _ _)).of_subset (by simp)).bind fun _ _ => ?_
    exact yields_done trivial

end Image

namespace Linkage

/-- The kinds of causes for which the dynamic section cannot be read. -/
def kinds : List CauseKind :=
  .layoutMismatch .dynamicEntry :: .truncatedTable :: .unresolvedStringTable :: .device ::
    CauseKind.strings

theorem yields_readEntries (order : ByteOrder) (s : SectionHeader) :
    (readEntries order s).Yields n (fun _ => True) kinds := by
  unfold readEntries
  refine ((yields_done gives_require).of_subset (by simp [kinds])).bind fun _ hdeclared => ?_
  refine yields_length_bind ?_
  refine ((yields_done gives_require).of_subset (by simp [kinds])).bind fun _ _ => ?_
  rw [hdeclared]
  refine ((yields_table rfl).of_subset (by simp [kinds])).bind fun _ _ => ?_
  exact yields_done trivial

theorem yields_readStrings {sections : List SectionHeader}
    (hsound : ∀ s ∈ sections, s.Sound sections.length n) (entries : List DynamicEntry) :
    (readStrings sections entries).Yields n (fun _ => True) kinds := by
  unfold readStrings
  split
  · exact yields_done (by simp [kinds])
  · split
    · exact yields_done (by simp [kinds])
    · rename_i place hplace
      have hin := SectionHeader.yields_contents (hsound _ (of_locateAddress? hplace).1)
      exact (hin.of_subset (by simp [kinds])).bind fun _ _ => yields_done trivial

theorem yields_read {sections : List SectionHeader} (order : ByteOrder)
    (hsound : ∀ s ∈ sections, s.Sound sections.length n) :
    (read order sections).Yields n (fun _ => True) kinds := by
  unfold read
  split
  · exact yields_done trivial
  · refine (yields_readEntries _ _).bind fun entries _ => ?_
    split
    · refine (yields_readStrings hsound entries).bind fun strings _ => ?_
      have hstrings := yields_done (n := n) (gives_resolveAll strings entries)
      refine (hstrings.of_subset (by decide)).bind fun _ _ => ?_
      exact yields_done trivial
    · exact yields_done trivial

end Linkage

end ElfAnatomy
