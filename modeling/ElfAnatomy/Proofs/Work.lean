import ElfAnatomy.Proofs.Dependencies
import ElfAnatomy.Proofs.Interruption
import ElfAnatomy.Proofs.Measured

/-!
# The work of a run

The headers of a file declare counts and sizes up to `2 ^ 64 - 1`, and some of them are only found
during the run.  None of them has a say in how often the device is called: a plan asks for a fixed
number of regions, and a region that is too large is refused without a call.

* `Plan.Asks` : a bound on the number of regions, whatever bytes the plan gets to see.
* `FileHeader.asks_readStaged`, `SectionTable.asks_read` and so on : one region for each table, up
  to eight for `Image.asks_read`.
* `Device.Made` : the calls between two states of a device, with its counters.
* `Source.CallsOf`, `Source.exists_made_fetch` : what one region costs.
* `Plan.exists_made_run` : what a run costs.
* `Decoder.frugal_of_prompt` : **calls, requests and results are bounded by the file**, not by the
  numbers in it.

The device must report its real length and deliver in one piece; it may refuse calls.
-/

namespace ElfAnatomy

/-! ### Plans that ask for few regions -/

namespace Plan

variable {α β : Type} {length m n : Nat} {R : Region → Prop}

/-- On a source of `length` bytes the plan asks for at most so many regions, whatever bytes it gets,
and all of them are in `R`. -/
def Asks (length : Nat) (R : Region → Prop) : Plan α → Nat → Prop
  | done _, _ => True
  | askLength next, n => (next length).Asks length R n
  | fetch region next, n => R region ∧ 0 < n ∧ ∀ bytes, (next bytes).Asks length R (n - 1)
  | reach _ next, n => next.Asks length R n

theorem Asks.mono {p : Plan α} (h : p.Asks length R m) (hle : m ≤ n) : p.Asks length R n := by
  induction p generalizing m n with
  | done result => trivial
  | askLength next ih => exact ih _ h hle
  | fetch region next ih =>
    obtain ⟨hregion, hpos, hnext⟩ := h
    exact ⟨hregion, Nat.lt_of_lt_of_le hpos hle,
      fun bytes => ih bytes (hnext bytes) (Nat.sub_le_sub_right hle 1)⟩
  | reach stage next ih => exact ih h hle

/-- The regions of two plans, one after the other, add up. -/
theorem Asks.bind {p : Plan α} {f : α → Plan β} (h : p.Asks length R m)
    (hf : ∀ a, (f a).Asks length R n) : (p.bind f).Asks length R (m + n) := by
  induction p generalizing m with
  | done result =>
    cases result with
    | ok a => exact (hf a).mono (Nat.le_add_left n m)
    | error e => trivial
  | askLength next ih => exact ih _ h
  | fetch region next ih =>
    obtain ⟨hregion, hpos, hnext⟩ := h
    refine ⟨hregion, Nat.add_pos_left hpos n, fun bytes => ?_⟩
    rw [Nat.sub_add_comm hpos]
    exact ih bytes (hnext bytes)
  | reach stage next ih => exact ih h

/-- A plan without regions may come before. -/
theorem Asks.bind_of_none {p : Plan α} {f : α → Plan β} (h : p.Asks length R 0)
    (hf : ∀ a, (f a).Asks length R n) : (p.bind f).Asks length R n :=
  Nat.zero_add n ▸ h.bind hf

theorem asks_done (result : Except DecodeError α) : (done result).Asks length R n := trivial

theorem asks_length : Plan.length.Asks length R 0 := trivial

theorem asks_reached (stage : Stage) : (reached stage).Asks length R 0 := trivial

theorem asks_read {r : Region} (hr : R r) : (read r).Asks length R 1 :=
  ⟨hr, Nat.one_pos, fun _ => trivial⟩

theorem asks_leading {max : Nat} (hr : R ⟨0, .ofNat (min length max)⟩) :
    (leading max).Asks length R 1 :=
  asks_read hr

/-- A table is one region, however many entries it has. -/
theorem asks_table (α : Type) [Record α] (order : ByteOrder) (offset count entrySize : UInt64) :
    (table α order offset count entrySize).Asks length (fun _ => True) 1 := by
  refine (asks_done _).bind_of_none fun _ => ?_
  refine asks_length.bind_of_none fun _ => ?_
  refine (asks_done _).bind_of_none fun region => ?_
  exact (asks_read trivial).bind (n := 0) fun _ => asks_done _

end Plan

section

open Plan

variable {length : Nat}

/-- The header is read with its first bytes, and the checks of its tables need no others. -/
theorem FileHeader.asks_readStaged {R : Region → Prop}
    (hr : R ⟨0, .ofNat (min length FileHeader.size)⟩) :
    FileHeader.readStaged.Asks length R 1 := by
  refine (asks_leading hr).bind (n := 0) fun start => ?_
  refine (asks_done _).bind_of_none fun _ => (asks_reached _).bind_of_none fun _ => ?_
  refine (asks_done _).bind_of_none fun c => (asks_done _).bind_of_none fun _ => ?_
  refine (asks_reached _).bind_of_none fun _ => (asks_done _).bind_of_none fun header => ?_
  refine asks_length.bind_of_none fun _ => (asks_done _).bind_of_none fun _ => ?_
  exact (asks_reached _).bind_of_none fun _ => asks_done _

theorem SectionHeader.asks_contents (s : SectionHeader) :
    s.contents.Asks length (fun _ => True) 1 := by
  unfold contents
  split
  · exact asks_read trivial
  · exact asks_done _

namespace SectionTable

theorem asks_readHeaders (h : FileHeader) (count : UInt64) :
    (readHeaders h count).Asks length (fun _ => True) 1 :=
  asks_table ..

theorem asks_readFirst (h : FileHeader) : (readFirst h).Asks length (fun _ => True) 1 := by
  unfold readFirst
  split
  · exact (asks_readHeaders h 1).bind (n := 0) fun _ => asks_done _
  · exact asks_done _

/-- A header that leaves a number to the first section header has that one read twice. -/
theorem asks_read (h : FileHeader) : (read h).Asks length (fun _ => True) 2 := by
  unfold read
  split
  · refine (asks_readFirst h).bind (n := 1) fun first? => ?_
    exact (asks_readHeaders h _).bind (n := 0) fun _ => asks_done _
  · exact asks_done _

theorem asks_readNames (t : SectionTable) : t.readNames.Asks length (fun _ => True) 1 := by
  unfold readNames
  split
  · exact asks_done _
  · split
    · exact asks_done _
    · rename_i holder _
      exact holder.asks_contents.bind (n := 0) fun _ => asks_done _

end SectionTable

namespace Linkage

theorem asks_readEntries (order : ByteOrder) (s : SectionHeader) :
    (readEntries order s).Asks length (fun _ => True) 1 := by
  refine (asks_done _).bind_of_none fun _ => asks_length.bind_of_none fun _ => ?_
  refine (asks_done _).bind_of_none fun _ => ?_
  exact (asks_table ..).bind (n := 0) fun _ => asks_done _

theorem asks_readStrings (sections : List SectionHeader) (entries : List DynamicEntry) :
    (readStrings sections entries).Asks length (fun _ => True) 1 := by
  unfold readStrings
  split
  · exact asks_done _
  · split
    · exact asks_done _
    · rename_i place _
      exact place.header.asks_contents.bind (n := 0) fun _ => asks_done _

/-- The entries and their strings. -/
theorem asks_read (order : ByteOrder) (sections : List SectionHeader) :
    (read order sections).Asks length (fun _ => True) 2 := by
  unfold read
  split
  · exact asks_done _
  · refine (asks_readEntries order _).bind (n := 1) fun entries => ?_
    split
    · refine (asks_readStrings sections entries).bind (n := 0) fun strings => ?_
      exact (asks_done _).bind_of_none fun _ => asks_done _
    · exact asks_done _

end Linkage

namespace Image

theorem asks_readSegments (h : FileHeader) (sections : List SectionHeader) :
    (readSegments h sections).Asks length (fun _ => True) 1 := by
  simp only [readSegments]
  split
  · exact asks_done _
  · exact asks_table ..

theorem asks_readInterpreter (segments : List ProgramHeader) :
    (readInterpreter segments).Asks length (fun _ => True) 1 := by
  unfold readInterpreter
  split
  · exact asks_done _
  · refine (Plan.asks_read trivial).bind (n := 0) fun bytes => ?_
    exact (asks_done _).bind_of_none fun _ => asks_done _

/-- **Everything is read with at most eight regions**: the header, two for the section table, the
segment table, the section names, the interpreter, the dynamic entries and their strings. -/
theorem asks_read : read.Asks length (fun _ => True) 8 := by
  refine (FileHeader.asks_readStaged trivial).bind (n := 7) fun header => ?_
  refine (SectionTable.asks_read header).bind (n := 5) fun table => ?_
  refine (asks_readSegments _ _).bind (n := 4) fun segments => ?_
  refine asks_length.bind_of_none fun _ => (asks_done _).bind_of_none fun _ => ?_
  refine (asks_reached _).bind_of_none fun _ => ?_
  refine table.asks_readNames.bind (n := 3) fun names => ?_
  refine (asks_reached _).bind_of_none fun _ => ?_
  refine (asks_readInterpreter segments).bind (n := 2) fun interpreter => ?_
  refine (Linkage.asks_read _ _).bind (n := 0) fun linkage => ?_
  exact (asks_reached _).bind_of_none fun _ => asks_done _

end Image

end

/-! ### Calls -/

/-- The call is a read call.  Every other call is a seek, that to the end included. -/
def Call.isRead : Call → Bool
  | .read _ _ => true
  | _ => false

/-- The device has got these calls, in order, since it was `d`, and has counted them. -/
structure Device.Made (d : Device) (calls : List Call) (after : Device) : Prop where
  remembered : after.calls = calls.reverse ++ d.calls
  reads : after.reads = d.reads + calls.countP Call.isRead
  seeks : after.seeks = d.seeks + calls.countP fun call => !call.isRead

namespace Device.Made

variable {d e f : Device} {xs ys : List Call}

theorem refl (d : Device) : d.Made [] d := ⟨rfl, rfl, rfl⟩

theorem trans (h : d.Made xs e) (h' : e.Made ys f) : d.Made (xs ++ ys) f where
  remembered := by
    rw [h'.remembered, h.remembered, List.reverse_append, List.append_assoc]
  reads := by rw [h'.reads, h.reads, List.countP_append, Nat.add_assoc]
  seeks := by rw [h'.seeks, h.seeks, List.countP_append, Nat.add_assoc]

end Device.Made

/-- The calls stay within a budget: at most so many read calls and seeks, where every read call asks
for a whole region of `R` with at least one byte, and the region lies in `length` bytes. -/
structure Call.Within (length : Nat) (R : Region → Prop) (reads seeks : Nat) (calls : List Call) :
    Prop where
  reads : calls.countP Call.isRead ≤ reads
  seeks : calls.countP (fun call => !call.isRead) ≤ seeks
  regions : ∀ position wanted, .read position wanted ∈ calls →
    ∃ r, R r ∧ 0 < r.size.toNat ∧ r.stop ≤ length ∧
      position = r.offset.toNat ∧ wanted = r.size.toNat

namespace Call.Within

variable {length m n m' n' : Nat} {R : Region → Prop} {xs ys : List Call}

theorem nil : Within length R 0 0 [] := ⟨Nat.le_refl 0, Nat.le_refl 0, nofun⟩

theorem append (h : Within length R m n xs) (h' : Within length R m' n' ys) :
    Within length R (m + m') (n + n') (xs ++ ys) where
  reads := by
    rw [List.countP_append]
    exact Nat.add_le_add h.reads h'.reads
  seeks := by
    rw [List.countP_append]
    exact Nat.add_le_add h.seeks h'.seeks
  regions := by
    intro position wanted hmem
    rcases List.mem_append.1 hmem with hmem | hmem
    · exact h.regions position wanted hmem
    · exact h'.regions position wanted hmem

theorem mono (h : Within length R m n xs) (hm : m ≤ m') (hn : n ≤ n') :
    Within length R m' n' xs :=
  ⟨Nat.le_trans h.reads hm, Nat.le_trans h.seeks hn, h.regions⟩

end Call.Within

/-! ### One region -/

/-- The device reports its real length and delivers in one piece; it may refuse calls. -/
structure Device.Prompt (d : Device) : Prop where
  length : d.length = d.content.length
  chunk : d.faults.chunk = none

theorem Device.prompt_ofBytes (content : Bytes) : (Device.ofBytes content).Prompt := ⟨rfl, rfl⟩

namespace Source

/-- The source has the real length of a device that delivers in one piece. -/
structure Prompt (s : Source) : Prop where
  length : s.length = s.device.content.length
  chunk : s.device.faults.chunk = none

variable {s : Source} {length : Nat} {r : Region} {calls : List Call}

theorem Prompt.fetch (hs : s.Prompt) (r : Region) : (s.fetch r).2.Prompt := by
  have hkept := s.kept_fetch r
  refine ⟨?_, ?_⟩
  · rw [s.length_fetch, hkept.content]
    exact hs.length
  · rw [hkept.faults]
    exact hs.chunk

/-- The calls that a region may take, in a source of `length` bytes. -/
inductive CallsOf (length : Nat) (r : Region) : List Call → Prop
  /-- The region does not lie in the source, or is empty. -/
  | idle : CallsOf length r []
  | seekRefused : CallsOf length r [.seek r.offset false]
  /-- One read call for the whole region.  It may be refused, too. -/
  | read (hpos : 0 < r.size.toNat) (hle : r.stop ≤ length) : CallsOf length r (callsFor r)

theorem CallsOf.within {R : Region → Prop} (h : CallsOf length r calls) (hr : R r) :
    Call.Within length R 1 1 calls := by
  cases h with
  | idle => exact Call.Within.nil.mono (Nat.zero_le 1) (Nat.zero_le 1)
  | seekRefused => exact ⟨Nat.zero_le 1, Nat.le_refl 1, by simp⟩
  | read hpos hle =>
    refine ⟨Nat.le_refl 1, Nat.le_refl 1, ?_⟩
    intro position wanted hmem
    obtain ⟨rfl, rfl⟩ : position = r.offset.toNat ∧ wanted = r.size.toNat := by
      simpa [callsFor] using hmem
    exact ⟨r, hr, hpos, hle, rfl, rfl⟩

/-- **A region costs a seek and a read call at most**, whatever its size is. -/
theorem exists_made_fetch (hs : s.Prompt) (r : Region) :
    ∃ calls, CallsOf s.length r calls ∧ s.device.Made calls (s.fetch r).2.device := by
  by_cases hidle : s.length < r.stop ∨ r.size = 0
  · obtain ⟨answer, hanswer⟩ := fetch_of_idle hidle
    refine ⟨[], .idle, ?_⟩
    rw [hanswer s.device]
    exact .refl _
  · obtain ⟨hlt, hsize⟩ := not_or.1 hidle
    have hle : r.stop ≤ s.length := Nat.not_lt.1 hlt
    have hpos : 0 < r.size.toNat := Nat.pos_of_ne_zero fun h0 => hsize (UInt64.toNat.inj h0)
    rw [fetch_of_busy hle hsize]
    by_cases hseek : s.device.faults.failSeek = some s.device.seeks
    · refine ⟨_, .seekRefused, ?_⟩
      rw [Device.readAt_of_seek_refused hseek]
      exact ⟨rfl, rfl, rfl⟩
    · refine ⟨_, .read hpos hle, ?_⟩
      by_cases hread : s.device.faults.failRead = some s.device.reads
      · rw [Device.readAt_of_read_refused hseek hread hpos]
        exact ⟨rfl, rfl, rfl⟩
      · rw [Device.readAt_of_accepted hs.chunk hseek hread hpos (hs.length ▸ hle)]
        exact ⟨rfl, rfl, rfl⟩

theorem made_of_attach {d device : Device} (h : attach d = (.ok s, device)) :
    d.Made [.measure (some d.length)] s.device := by
  unfold attach Device.measure at h
  split at h
  · cases h
  · rename_i hm
    split at hm
    · cases hm
    · cases hm
      cases h
      exact ⟨rfl, rfl, rfl⟩

theorem made_of_attach_error {d device : Device} {e : DecodeError}
    (h : attach d = (.error e, device)) : d.Made [.measure none] device := by
  unfold attach Device.measure at h
  split at h
  · rename_i hm
    split at hm
    · cases hm
      cases h
      exact ⟨rfl, rfl, rfl⟩
    · cases hm
  · cases h

theorem prompt_of_attach {d device : Device} (hd : d.Prompt) (h : attach d = (.ok s, device)) :
    s.Prompt := by
  obtain ⟨hlength, hkept⟩ := of_attach h
  refine ⟨?_, ?_⟩
  · rw [hlength, hkept.content]
    exact hd.length
  · rw [hkept.faults]
    exact hd.chunk

end Source

/-! ### Runs -/

/-- **A run costs a seek and a read call a region**, at most. -/
theorem Plan.exists_made_run {α : Type} {R : Region → Prop} (p : Plan α) (n : Nat)
    (now : Progress) (h : p.Asks now.source.length R n) (hs : now.source.Prompt) :
    ∃ calls, now.source.device.Made calls (p.run now).2.source.device ∧
      Call.Within now.source.length R n n calls := by
  -- on the plan: a region uses up one of those that are allowed, and leaves a prompt source
  induction p generalizing n now with
  | done result => exact ⟨[], .refl _, Call.Within.nil.mono (Nat.zero_le n) (Nat.zero_le n)⟩
  | askLength next ih => exact ih _ n now h hs
  | fetch region next ih =>
    obtain ⟨hregion, hpos, hnext⟩ := h
    obtain ⟨calls, hcalls, hmade⟩ := Source.exists_made_fetch hs region
    have hlength := now.source.length_fetch region
    have hprompt := hs.fetch region
    have hone := hcalls.within hregion
    simp only [run]
    rcases hf : now.source.fetch region with ⟨result, source⟩
    rw [hf] at hmade hlength hprompt
    cases result with
    | error e => exact ⟨calls, hmade, hone.mono hpos hpos⟩
    | ok bytes =>
      dsimp only at hmade hlength hprompt
      obtain ⟨more, hmore, hrest⟩ := ih bytes (n - 1) { now with source }
        (hlength.symm ▸ hnext bytes) hprompt
      have hboth := hone.append (hlength ▸ hrest)
      rw [Nat.add_sub_cancel' hpos] at hboth
      exact ⟨calls ++ more, hmade.trans hmore, hboth⟩
  | reach stage next ih => exact ih n { now with stage } h hs

namespace Decoder

variable {α : Type} {R : Region → Prop}

/-- The run of a decoder also measures the device. -/
theorem exists_made_run (d : Decoder) (hd : d.device.Prompt) (p : Plan α) (n : Nat)
    (h : p.Asks d.device.content.length R n) :
    ∃ calls, d.device.Made calls (d.run p).2.device ∧
      Call.Within d.device.content.length R n (n + 1) calls := by
  have hmeasure : ∀ length?, Call.Within d.device.content.length R 0 1 [.measure length?] :=
    fun _ => ⟨Nat.le_refl 0, Nat.le_refl 1, by simp⟩
  rcases ha : Source.attach d.device with ⟨e | s, device⟩
  · rw [run_of_attach_error ha]
    exact ⟨_, Source.made_of_attach_error ha,
      (hmeasure none).mono (Nat.zero_le n) (Nat.le_add_left 1 n)⟩
  · have hlength : s.length = d.device.content.length := (Source.of_attach ha).1.trans hd.length
    obtain ⟨calls, hmade, hwithin⟩ := p.exists_made_run n ⟨s, .unopened⟩ (hlength.symm ▸ h)
      (Source.prompt_of_attach hd ha)
    rw [run_of_attach_ok ha rfl]
    refine ⟨_, (Source.made_of_attach ha).trans hmade, ?_⟩
    have hboth := (hmeasure (some d.device.length)).append (hlength ▸ hwithin)
    rwa [Nat.zero_add, Nat.add_comm 1 n] at hboth

/-- An image comes from the content of the device, if it reports its real length. -/
theorem decode_content_of_ok {d : Decoder} {image : Image}
    (hlength : d.device.length = d.device.content.length) (h : d.decode.1 = .ok image) :
    ElfAnatomy.decode d.device.content = .ok image := by
  rcases hs : Source.attach d.device with ⟨e | s, device⟩
  · rw [decode, run_of_attach_error hs] at h
    cases h
  · obtain ⟨hlen, hkept⟩ := Source.of_attach hs
    exact decode_of_shows hs
      ⟨hlen.trans hlength, .inl (hkept.content ▸ List.prefix_refl _)⟩ h

/-- What the runs of a decoder cost, and how much they give, in terms of the bytes that its device
holds.  The calls are all that the device gets during the run, in order. -/
structure Frugal (d : Decoder) : Prop where
  /-- A full run makes at most eight read calls and nine seeks, and asks for bytes of the file. -/
  full : ∃ calls, d.device.Made calls d.decode.2.device ∧
    calls.countP Call.isRead ≤ 8 ∧ calls.countP (fun call => !call.isRead) ≤ 9 ∧
    ∀ position wanted, .read position wanted ∈ calls → position + wanted ≤ d.device.content.length
  /-- The tables of an image fit into the file. -/
  image : ∀ image, d.decode.1 = .ok image →
    64 * image.sections.length ≤ d.device.content.length ∧
    56 * image.segments.length ≤ d.device.content.length ∧
    16 * image.linkage.entries.length ≤ d.device.content.length
  /-- A run for the header makes at most one read call and two seeks.  The read call is for the
  first 64 bytes, or all bytes if there are fewer; there is none if there are no bytes. -/
  header : ∃ calls, d.device.Made calls d.decodeHeader.2.device ∧
    calls.countP Call.isRead ≤ 1 ∧ calls.countP (fun call => !call.isRead) ≤ 2 ∧
    ∀ position wanted, .read position wanted ∈ calls →
      position = 0 ∧ wanted = min 64 d.device.content.length ∧ 0 < d.device.content.length

end Decoder

/-- The tables of an image that stands in a file fit into it. -/
theorem ImageIn.tables_le {data : Bytes} {image : Image} (h : ImageIn data image) :
    64 * image.sections.length ≤ data.length ∧ 56 * image.segments.length ≤ data.length ∧
      16 * image.linkage.entries.length ≤ data.length := by
  refine ⟨?_, ?_, ?_⟩
  · exact Nat.le_trans (Nat.le_add_left _ _) h.tables.sectionsAt.le
  · rcases h.tables.segmentsAt with hnil | hat
    · rw [hnil]
      exact Nat.zero_le _
    · exact Nat.le_trans (Nat.le_add_left _ _) hat.le
  · cases hd : dynamicSection? image.sections with
    | none =>
      rw [h.linkage.eq_empty hd]
      exact Nat.zero_le _
    | some s =>
      obtain ⟨all, hall, heq⟩ := h.linkage.exists_entriesIn hd
      have hbytes := (Bytes.slice?_eq_some_iff.1 hall.leadingIn.bytes).1
      rw [heq]
      exact Nat.le_trans (Nat.le_add_left _ _) hbytes

/-- **The work of a run is bounded by the file**, on every device that reports its real length and
delivers in one piece, whichever of its calls it refuses. -/
theorem Decoder.frugal_of_prompt (d : Decoder) (hd : d.device.Prompt) : d.Frugal where
  full := by
    obtain ⟨calls, hmade, hwithin⟩ := d.exists_made_run hd Image.read 8 Image.asks_read
    refine ⟨calls, hmade, hwithin.reads, hwithin.seeks, ?_⟩
    intro position wanted hmem
    obtain ⟨r, -, -, hle, rfl, rfl⟩ := hwithin.regions position wanted hmem
    exact hle
  image := fun image h => (imageIn_of_decode (decode_content_of_ok hd.length h)).tables_le
  header := by
    -- the one region is the start of the file
    obtain ⟨calls, hmade, hwithin⟩ := d.exists_made_run hd FileHeader.readStaged 1
      (FileHeader.asks_readStaged
        (R := (· = ⟨0, .ofNat (min d.device.content.length FileHeader.size)⟩)) rfl)
    refine ⟨calls, hmade, hwithin.reads, hwithin.seeks, ?_⟩
    intro position wanted hmem
    obtain ⟨r, rfl, hpos, -, rfl, rfl⟩ := hwithin.regions position wanted hmem
    have hsize : (UInt64.ofNat (min d.device.content.length FileHeader.size)).toNat =
        min d.device.content.length 64 :=
      Plan.toNat_ofNat_min (by decide)
    rw [hsize] at hpos ⊢
    exact ⟨rfl, Nat.min_comm _ _, by omega⟩

/-- A file of three sections is read with seven read calls. -/
theorem frugal_linkedFile :
    (Device.ofBytes linkedFile).Prompt ∧ Decoder.Frugal { device := .ofBytes linkedFile } ∧
      (Decoder.decode { device := .ofBytes linkedFile }).1 = .ok linkedImage ∧
      (Decoder.decode { device := .ofBytes linkedFile }).2.device.reads = 7 :=
  ⟨Device.prompt_ofBytes linkedFile,
    Decoder.frugal_of_prompt { device := .ofBytes linkedFile } (Device.prompt_ofBytes linkedFile),
    decode_linkedFile, by decide +kernel⟩

end ElfAnatomy
