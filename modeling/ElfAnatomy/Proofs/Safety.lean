import ElfAnatomy.Proofs.Calls
import ElfAnatomy.Proofs.Checked
import ElfAnatomy.Proofs.Domains
import ElfAnatomy.Proofs.Fidelity
import ElfAnatomy.Proofs.Refusals

/-!
# Sessions with a source

A session is any sequence of operations on one device: it is wrapped as a source, the source is
asked for regions and tables, files are decoded, and content and faults change in between.
Offsets, counts, entry sizes and section lists are whatever the caller gives.

* `Request`, `Operation`, `Session` : the operations.
* `Session.step_inOrder`, `Session.run_inOrder` : one operation, and all of them, make justified
  read calls only.
* `Request.refused` : a refused region is not asked for.
* `all_sessions_safe` : **no request leaves the source and no partial step leaves its domain.**
-/

namespace ElfAnatomy

/-! ### Operations -/

/-- A question to a source. -/
inductive Request
  | region (r : Region)
  | leading (max : Nat)
  | table (kind : RecordKind) (order : ByteOrder) (offset count entrySize : UInt64)
  | contents (s : SectionHeader)
  | entries (order : ByteOrder) (s : SectionHeader)
  | linkage (order : ByteOrder) (sections : List SectionHeader)

/-- An answer to a question. -/
inductive Answer
  | bytes (bs : Bytes)
  | sections (headers : List SectionHeader)
  | segments (headers : List ProgramHeader)
  | entries (entries : List DynamicEntry)
  | linkage (l : Linkage)

/-- The plan that answers a question. -/
def Request.plan : Request → Plan Answer
  | region r => do return .bytes (← Plan.read r)
  | leading max => do return .bytes (← Plan.leading max)
  | table .sectionHeader order offset count entrySize => do
    return .sections (← Plan.table SectionHeader order offset count entrySize)
  | table .programHeader order offset count entrySize => do
    return .segments (← Plan.table ProgramHeader order offset count entrySize)
  | table .dynamicEntry order offset count entrySize => do
    return .entries (← Plan.table DynamicEntry order offset count entrySize)
  | contents s => do return .bytes (← s.contents)
  | entries order s => do return .entries (← Linkage.readEntries order s)
  | linkage order sections => do return .linkage (← Linkage.read order sections)

/-- An operation of a session. -/
inductive Operation
  /-- The device is measured and wrapped as a source. -/
  | wrap
  /-- The source is asked. -/
  | request (q : Request)
  /-- A decoder runs on the device. -/
  | decode (depth : Depth)
  /-- The bytes of a section of any image are read. -/
  | sectionData (image : Image) (index : Nat)
  /-- The device gets other content and other faults. -/
  | change (content : Bytes) (faults : Faults)

/-- A device, and the length of the source that it is wrapped as.  A decoder and the reading of a
section wrap the device anew, so a source is gone after them. -/
structure Session where
  device : Device
  length? : Option Nat := none

namespace Session

/-- One operation.  Without a source nothing can be asked. -/
def step (s : Session) : Operation → Session
  | .wrap =>
    match Source.attach s.device with
    | (.ok source, _) => ⟨source.device, some source.length⟩
    | (.error _, device) => ⟨device, none⟩
  | .request q =>
    match s.length? with
    | some length => ⟨(q.plan.perform ⟨s.device, length⟩).2.device, some length⟩
    | none => s
  | .decode depth => ⟨(Decoder.decodeTo { device := s.device } depth).2.device, none⟩
  | .sectionData image index => ⟨(image.sectionData s.device index).2, none⟩
  | .change content faults => ⟨(s.device.replace content).withFaults faults, s.length?⟩

/-- A sequence of operations. -/
def run (s : Session) (operations : List Operation) : Session := operations.foldl step s

/-! ### Calls -/

/-- All read calls so far are justified, and the source has the length that was measured. -/
structure InOrder (s : Session) : Prop where
  orderly : Call.Orderly s.device.calls
  measured : ∀ length, s.length? = some length → s.device.InOrder length

end Session

theorem Source.attach_inOrder {d device : Device} {source : Source}
    (h : Call.Orderly d.calls) (ha : Source.attach d = (.ok source, device)) :
    source.device.InOrder source.length := by
  unfold attach Device.measure at ha
  split at ha
  · cases ha
  · rename_i length d' hm
    split at hm
    · cases hm
    · cases hm
      cases ha
      exact ⟨h.cons nofun, rfl⟩

theorem Source.orderly_of_attach_error {d device : Device} {e : DecodeError}
    (h : Call.Orderly d.calls) (ha : Source.attach d = (.error e, device)) :
    Call.Orderly device.calls := by
  unfold attach Device.measure at ha
  split at ha
  · rename_i cause d' hm
    split at hm
    · cases hm
      cases ha
      exact h.cons nofun
    · cases hm
  · cases ha

/-- A run of a decoder makes justified read calls only. -/
theorem Decoder.orderly_run {α : Type} (plan : Plan α) {d : Decoder}
    (h : Call.Orderly d.device.calls) : Call.Orderly (d.run plan).2.device.calls := by
  unfold run
  split
  · rename_i ha
    exact Source.orderly_of_attach_error h ha
  · rename_i source device ha
    have hrun := plan.run_inOrder ⟨source, .unopened⟩ (Source.attach_inOrder h ha)
    split
    · rename_i hp
      rw [hp] at hrun
      exact hrun.orderly
    · rename_i hp
      rw [hp] at hrun
      exact hrun.orderly

theorem Decoder.orderly_decodeTo {d : Decoder} (h : Call.Orderly d.device.calls)
    (depth : Depth) : Call.Orderly (d.decodeTo depth).2.device.calls := by
  cases depth
  · exact Decoder.orderly_run _ h
  · exact Decoder.orderly_run _ h

theorem Image.orderly_sectionData (image : Image) {d : Device} (h : Call.Orderly d.calls)
    (index : Nat) : Call.Orderly (image.sectionData d index).2.calls := by
  unfold sectionData
  split
  · exact h
  · rename_i s hs
    split
    · rename_i ha
      exact Source.orderly_of_attach_error h ha
    · rename_i source device ha
      have hsource := Source.attach_inOrder h ha
      exact (s.contents.run_inOrder ⟨source, .unopened⟩ hsource).orderly

namespace Session

/-- One operation makes justified read calls only. -/
theorem step_inOrder {s : Session} (h : s.InOrder) (operation : Operation) :
    (s.step operation).InOrder := by
  cases operation with
  | wrap =>
    unfold step
    dsimp only
    split
    · rename_i ha
      have hsource := Source.attach_inOrder h.orderly ha
      refine ⟨hsource.orderly, ?_⟩
      rintro _ ⟨⟩
      exact hsource
    · rename_i ha
      exact ⟨Source.orderly_of_attach_error h.orderly ha, nofun⟩
  | request q =>
    unfold step
    dsimp only
    split
    · -- the device may hold more or less by now: what counts is the length that was measured
      rename_i length hl
      have hrun := q.plan.run_inOrder ⟨⟨s.device, length⟩, .unopened⟩ (h.measured length hl)
      refine ⟨hrun.orderly, ?_⟩
      rintro _ ⟨⟩
      exact hrun
    · exact h
  | decode depth => exact ⟨Decoder.orderly_decodeTo h.orderly depth, nofun⟩
  | sectionData image index => exact ⟨image.orderly_sectionData h.orderly index, nofun⟩
  | change content faults =>
    exact ⟨h.orderly, fun length hl => ⟨h.orderly, (h.measured length hl).measured⟩⟩

/-- Any sequence of operations makes justified read calls only. -/
theorem run_inOrder {s : Session} (h : s.InOrder) (operations : List Operation) :
    (s.run operations).InOrder := by
  induction operations generalizing s with
  | nil => exact h
  | cons operation operations ih => exact ih (step_inOrder h operation)

end Session

/-! ### Refusals -/

namespace Request

/-- What a refusal leaves behind: the source as it was, or where strings are looked up, the source
as it was after the dynamic entries had been read. -/
def Refused (q : Request) (s after : Source) : Prop :=
  match q with
  | linkage order sections =>
    after = s ∨ ∃ i d entries, Linkage.section? sections = some (i, d) ∧
      (Linkage.readEntries order d).perform s = (.ok entries, after)
  | _ => after = s

theorem refused_of_single {α : Type} {p : Plan α} {f : α → Answer} {s : Source} {e : DecodeError}
    (hp : p.Single) (h : ((p.bind fun a => .done (.ok (f a))).perform s).1 = .error e)
    (he : e.Refusal) : ((p.bind fun a => .done (.ok (f a))).perform s).2 = s :=
  Plan.run_of_single (hp.bind (fun _ => Plan.quiet_ok _) fun _ => trivial) ⟨s, .unopened⟩ h he

/-- **A refused region is not asked for.** -/
theorem refused (q : Request) {s : Source} {e : DecodeError}
    (h : (q.plan.perform s).1 = .error e) (he : e.Refusal) :
    q.Refused s (q.plan.perform s).2 := by
  cases q with
  | region r => exact refused_of_single (Plan.single_read r) h he
  | leading max => exact refused_of_single (Plan.single_leading max) h he
  | table kind order offset count entrySize =>
    cases kind
    · exact refused_of_single (Plan.single_table _ _ _ _ _) h he
    · exact refused_of_single (Plan.single_table _ _ _ _ _) h he
    · exact refused_of_single (Plan.single_table _ _ _ _ _) h he
  | contents d => exact refused_of_single d.single_contents h he
  | entries order d => exact refused_of_single (Linkage.single_readEntries order d) h he
  | linkage order sections =>
    -- wrapping up the answer adds no step that could fail
    simp only [plan, Plan.perform, Plan.bind_eq, Plan.pure_eq, Plan.run_bind] at h ⊢
    cases hrun : (Linkage.read order sections).run ⟨s, .unopened⟩ with
    | mk result now =>
      rw [hrun] at h
      cases result with
      | ok l => cases h
      | error cause =>
        cases h
        have hl := Linkage.run_of_refusal (congrArg Prod.fst hrun) he
        rw [hrun] at hl
        rcases hl with hl | ⟨i, d, entries, hd, hentries, hl⟩
        · exact .inl hl
        · exact .inr ⟨i, d, entries, hd, Prod.ext hentries hl.symm⟩

/-! ### Fields -/

theorem failsIn_plan (q : Request) : q.plan.FailsIn CauseKind.malformed := by
  cases q with
  | region r => exact (Plan.failsIn_read r).bind fun _ => Plan.failsIn_ok _
  | leading max => exact (Plan.failsIn_leading max).bind fun _ => Plan.failsIn_ok _
  | table kind order offset count entrySize =>
    cases kind
    · exact (Plan.failsIn_table ..).bind fun _ => Plan.failsIn_ok _
    · exact (Plan.failsIn_table ..).bind fun _ => Plan.failsIn_ok _
    · exact (Plan.failsIn_table ..).bind fun _ => Plan.failsIn_ok _
  | contents s => exact s.failsIn_contents.bind fun _ => Plan.failsIn_ok _
  | entries order s => exact (Linkage.failsIn_readEntries order s).bind fun _ => Plan.failsIn_ok _
  | linkage order sections =>
    exact (Linkage.failsIn_read order sections).bind fun _ => Plan.failsIn_ok _

theorem staysInside_plan (q : Request) : q.plan.Ends StaysInside :=
  (q.failsIn_plan.of_subset (List.subset_append_right _ _)).staysInside

end Request

namespace Decoder

variable {α : Type} {plan : Plan α} {d : Decoder}

/-- A run that ends with a refusal has had everything delivered that it asked for. -/
theorem delivers_of_refusal {e : DecodeError} (h : (d.run plan).1 = .error e) (he : e.Refusal) :
    ∃ source device last, Source.attach d.device = (.ok source, device) ∧
      Relation.ReflTransGen Source.Delivers source last ∧
      (d.run plan).2.device = last.device := by
  unfold run at h ⊢
  split
  · rename_i cause device ha
    rw [ha] at h
    cases h
    unfold Source.attach at ha
    split at ha
    · cases ha
      exact he.elim
    · cases ha
  · rename_i source device ha
    rw [ha] at h
    have hdelivers := plan.delivers_of_refusal (e := e) ⟨source, .unopened⟩
    dsimp only at h hdelivers ⊢
    cases hrun : plan.run ⟨source, .unopened⟩ with
    | mk result now =>
      rw [hrun] at h hdelivers
      cases result with
      | ok a => cases h
      | error cause =>
        cases h
        exact ⟨source, device, now.source, ha, hdelivers rfl he, rfl⟩

theorem staysInside_run (hp : plan.Ends StaysInside) : StaysInside (d.run plan).1 := by
  unfold run
  split
  · rename_i cause device ha
    unfold Source.attach at ha
    split at ha
    · cases ha
      nofun
    · cases ha
  · rename_i source device ha
    have hrun := Plan.staysInside_run hp ⟨source, .unopened⟩
    split
    · rename_i h
      rw [h] at hrun
      exact hrun
    · nofun

theorem ok_of_run {a : α} (h : (d.run plan).1 = .ok a) :
    ∃ now, (plan.run now).1 = .ok a := by
  unfold run at h
  split at h
  · cases h
  · rename_i source device ha
    refine ⟨⟨source, .unopened⟩, ?_⟩
    split at h
    · cases h
    · rename_i hrun
      rw [hrun]
      exact h

theorem staysInside_decodeTo (d : Decoder) (depth : Depth) : StaysInside (d.decodeTo depth).1 := by
  cases depth
  · exact (staysInside_run FileHeader.failsIn_readStaged.staysInside).map
  · exact (staysInside_run Image.failsIn_read.staysInside).map

theorem length_names {image : Image} (h : d.decode.1 = .ok image) :
    image.names.length = image.sections.length := by
  obtain ⟨now, hrun⟩ := ok_of_run h
  exact Image.length_names_of_run hrun

theorem delivers_of_decodeTo {e : DecodeError} {depth : Depth}
    (h : (d.decodeTo depth).1 = .error e) (he : e.Refusal) :
    ∃ source device last, Source.attach d.device = (.ok source, device) ∧
      Relation.ReflTransGen Source.Delivers source last ∧
      (d.decodeTo depth).2.device = last.device := by
  cases depth
  · exact delivers_of_refusal (map_eq_error_iff.1 h) he
  · exact delivers_of_refusal (map_eq_error_iff.1 h) he

end Decoder

/-! ### Everything together -/

/-- **No request leaves the source, and no partial step leaves its domain**: whatever a device
holds, reports and refuses, and whatever is asked in whatever order,

* every read call asks for bytes of a region that lies in the measured length, after a successful
  seek to its start;
* a refused region is not asked for;
* no field is read outside its record;
* no address is subtracted from a smaller one, no slice of a string table leads outside, and
  every name of a decoded image has its section. -/
theorem all_sessions_safe :
    (∀ content faults operations,
      Call.Orderly (Session.run ⟨{ content, faults }, none⟩ operations).device.calls) ∧
    (∀ (q : Request) (s : Source) (e : DecodeError),
      (q.plan.perform s).1 = .error e → e.Refusal → q.Refused s (q.plan.perform s).2) ∧
    (∀ (d : Decoder) (depth : Depth) (e : DecodeError),
      (d.decodeTo depth).1 = .error e → e.Refusal →
        ∃ source device last, Source.attach d.device = (.ok source, device) ∧
          Relation.ReflTransGen Source.Delivers source last ∧
          (d.decodeTo depth).2.device = last.device) ∧
    (∀ (q : Request) (s : Source), StaysInside (q.plan.perform s).1) ∧
    (∀ (d : Decoder) (depth : Depth), StaysInside (d.decodeTo depth).1) ∧
    (∀ (s : SectionHeader) (addr : UInt64),
      s.containsAddrChecked addr = some (s.containsAddr addr)) ∧
    (∀ (sections : List SectionHeader) (addr : UInt64),
      locateAddressChecked sections addr = some (locateAddress? sections addr)) ∧
    (∀ (t : StringTable) (offset : UInt64), t.resolveChecked offset = some (t.resolve offset)) ∧
    (∀ (t : StringTable) (start : Nat) (size : Option Nat),
      t.windowChecked start size = some (t.window start size)) ∧
    (∀ (d : Decoder) (image : Image), d.decode.1 = .ok image → ∀ name,
      image.sectionByNameChecked name = some (image.sectionByName? name)) := by
  refine ⟨fun content faults operations => ?_, fun q s e => q.refused,
    fun d depth e => Decoder.delivers_of_decodeTo, fun q s => ?_, Decoder.staysInside_decodeTo,
    SectionHeader.containsAddrChecked_eq, locateAddressChecked_eq, StringTable.resolveChecked_eq,
    StringTable.windowChecked_eq, fun d image h => ?_⟩
  · have hstart : Session.InOrder ⟨{ content, faults }, none⟩ := ⟨Call.orderly_nil, nofun⟩
    exact (Session.run_inOrder hstart operations).orderly
  · exact Plan.staysInside_run q.staysInside_plan ⟨s, .unopened⟩
  · exact Image.sectionByNameChecked_eq (Decoder.length_names h)

/-- Four bytes behind a device that delivers one at a time and says there are nine: the calls that
read the last seven, a region that is refused, a file that is cut off, and a file with names. -/
theorem all_sessions_safe_signature :
    (Session.run ⟨{ content := signature, faults := { chunk := some 1, length := some 9 } }, none⟩
        [.wrap, .request (.region ⟨2, 7⟩), .request (.region ⟨2, 8⟩)]).device.calls =
      [.read 4 5, .read 3 6, .read 2 7, .seek 2 true, .measure (some 9)] ∧
    Call.Orderly [.read 4 5, .read 3 6, .read 2 7, .seek 2 true, .measure (some 9)] ∧
    ((Request.region ⟨0, 5⟩).plan.perform ⟨.ofBytes signature, 4⟩).2 =
      ⟨.ofBytes signature, 4⟩ ∧
    (∃ source device last, Source.attach (.ofBytes signature) = (.ok source, device) ∧
      Relation.ReflTransGen Source.Delivers source last ∧
      (Decoder.decodeTo { device := .ofBytes signature } .full).2.device = last.device) ∧
    sampleImage.sectionByNameChecked "" = some (sampleImage.sectionByName? "") := by
  obtain ⟨hcalls, hrefused, hdelivers, -, -, -, -, -, -, hnames⟩ := all_sessions_safe
  have hlog : (Session.run
      ⟨{ content := signature, faults := { chunk := some 1, length := some 9 } }, none⟩
        [.wrap, .request (.region ⟨2, 7⟩), .request (.region ⟨2, 8⟩)]).device.calls =
      [.read 4 5, .read 3 6, .read 2 7, .seek 2 true, .measure (some 9)] := by decide +kernel
  have hregion : ((Request.region ⟨0, 5⟩).plan.perform ⟨.ofBytes signature, 4⟩).1 =
      .error (.truncatedTable 0 5 4) := rfl
  have hcut : (Decoder.decodeTo { device := .ofBytes signature } .full).1 =
      .error (.truncatedTable 4 1 4) := by
    have he : decode signature = .error (.truncatedTable 4 1 4) := by
      rw [decode_eq_outcome]
      rfl
    exact congrArg (Except.map Decoded.full) he
  have hsample : (Decoder.decode { device := .ofBytes sampleFile }).1 = .ok sampleImage :=
    decode_sampleFile
  exact ⟨hlog, hlog ▸ hcalls _ _ _, hrefused _ _ _ hregion trivial,
    hdelivers _ _ _ hcut trivial, hnames _ _ hsample ""⟩

end ElfAnatomy
