import ElfAnatomy.Decoder

/-!
# The outcome of a plan

A plan asks a source for its length and for regions.  When the source is a file that is all there,
the answers are the length of the file and slices of its bytes, so the result of a run depends on
the bytes alone.

* `Plan.outcome` : the result of a plan whose questions are answered from a byte string.
* `Source.Plain` : the source delivers exactly these bytes, at once and without faults.
* `Plan.run_of_plain` : a run on such a source ends with the outcome, and the source stays plain.
* `decode_eq_outcome`, `decodeHeader_eq_outcome` : decoding bytes at hand is such a run.
-/

namespace ElfAnatomy

namespace Plan

variable {α β : Type}

/-- The outcome of a plan whose questions are answered from the bytes themselves. -/
def outcome (data : Bytes) : Plan α → Except DecodeError α
  | done result => result
  | askLength next => (next data.length).outcome data
  | fetch region next =>
    match data.slice? region.offset.toNat region.size.toNat with
    | some bytes => (next bytes).outcome data
    | none => .error (.truncatedTable region.offset region.size data.length)
  | reach _ next => next.outcome data

variable {data : Bytes}

@[simp] theorem outcome_done (result : Except DecodeError α) :
    (done result).outcome data = result := rfl

@[simp] theorem outcome_length : Plan.length.outcome data = .ok data.length := rfl

@[simp] theorem outcome_reached (stage : Stage) : (reached stage).outcome data = .ok () := rfl

theorem outcome_bind (p : Plan α) (f : α → Plan β) :
    (p.bind f).outcome data =
      match p.outcome data with
      | .ok a => (f a).outcome data
      | .error e => .error e := by
  induction p with
  | done result => cases result <;> rfl
  | askLength next ih => exact ih _
  | fetch region next ih =>
    simp only [Plan.bind, outcome]
    split
    · exact ih _
    · rfl
  | reach stage next ih => exact ih

theorem outcome_bind_eq_ok_iff {p : Plan α} {f : α → Plan β} {b : β} :
    (p.bind f).outcome data = .ok b ↔
      ∃ a, p.outcome data = .ok a ∧ (f a).outcome data = .ok b := by
  rw [outcome_bind]
  cases p.outcome data <;> simp

theorem outcome_bind_eq_error_iff {p : Plan α} {f : α → Plan β} {e : DecodeError} :
    (p.bind f).outcome data = .error e ↔
      p.outcome data = .error e ∨
        ∃ a, p.outcome data = .ok a ∧ (f a).outcome data = .error e := by
  rw [outcome_bind]
  cases p.outcome data <;> simp

theorem outcome_read_eq_ok_iff {r : Region} {bytes : Bytes} :
    (read r).outcome data = .ok bytes ↔
      data.slice? r.offset.toNat r.size.toNat = some bytes := by
  simp only [read, outcome]
  split
  · rename_i h
    rw [h]
    simp
  · rename_i h
    simp [h]

theorem outcome_read_eq_error_iff {r : Region} {e : DecodeError} :
    (read r).outcome data = .error e ↔
      data.length < r.stop ∧ e = .truncatedTable r.offset r.size data.length := by
  simp only [read, outcome]
  split
  · rename_i h
    have := (Bytes.slice?_eq_some_iff.1 h).1
    simp only [pure_eq, outcome_done, reduceCtorEq, Region.stop, false_iff, not_and]
    omega
  · rename_i h
    rw [Region.stop, ← Bytes.slice?_eq_none_iff]
    simp [h, eq_comm]

end Plan

/-! ### Plain sources -/

/-- The source delivers exactly the bytes of `data`: nothing is refused, cut into pieces or
reported wrongly. -/
structure Source.Plain (s : Source) (data : Bytes) : Prop where
  content : s.device.content = data
  faults : s.device.faults = {}
  length : s.length = data.length

namespace Device

variable {d : Device}

theorem fill_zero (d : Device) : d.fill 0 = (.ok [], d) := by
  rw [fill_eq, if_pos rfl]

/-- A device that delivers in one piece and does not refuse the next read call fills a buffer with
that call. -/
theorem fill_of_unchunked (hc : d.faults.chunk = none) (hr : d.faults.failRead ≠ some d.reads)
    {wanted : Nat} (hpos : 0 < wanted) (hw : wanted ≤ d.ahead.length) :
    d.fill wanted = (.ok (d.ahead.take wanted), {
      d with
      reads := d.reads + 1, calls := .read d.position wanted :: d.calls,
      position := d.position + wanted }) := by
  have hlimit : d.limit wanted = wanted := by simp [limit, hc]
  have hlen : (d.ahead.take wanted).length = wanted := by
    rw [List.length_take]
    omega
  -- one call delivers everything, and nothing is left to fill
  rw [fill_eq, if_neg (by omega), read, hlimit, deliver, if_neg hr, hlen]
  cases hd : d.ahead.take wanted with
  | nil => simp [hd] at hlen; omega
  | cons b bs =>
    have : wanted - (bs.length + 1) = 0 := by
      rw [hd, List.length_cons] at hlen
      omega
    simp only [this, fill_zero, List.append_nil]

/-- A device without faults fills a buffer with one read call. -/
theorem fill_of_faultless (hf : d.faults = {}) {wanted : Nat} (hpos : 0 < wanted)
    (hw : wanted ≤ d.ahead.length) :
    d.fill wanted = (.ok (d.ahead.take wanted), {
      d with
      reads := d.reads + 1, calls := .read d.position wanted :: d.calls,
      position := d.position + wanted }) :=
  fill_of_unchunked (by rw [hf]) (by simp [hf]) hpos hw

/-- A device without faults delivers any region inside its content. -/
theorem readAt_of_faultless (hf : d.faults = {}) {offset : UInt64} {wanted : Nat} {bytes : Bytes}
    (hpos : 0 < wanted) (hs : d.content.slice? offset.toNat wanted = some bytes) :
    ∃ after, d.readAt offset wanted = (.ok bytes, after) ∧ after.content = d.content ∧
      after.faults = {} := by
  obtain ⟨hle, rfl⟩ := Bytes.slice?_eq_some_iff.1 hs
  rw [readAt, seek, hf, if_neg (by simp)]
  simp only
  rw [fill_of_faultless (by rfl) hpos (by simp only [ahead, List.length_drop]; omega)]
  exact ⟨_, rfl, rfl, rfl⟩

end Device

/-- A plain source answers a region with its bytes, and stays plain. -/
theorem Source.fetch_of_plain {s : Source} {data : Bytes} (hs : s.Plain data) (r : Region) :
    ∃ after, after.Plain data ∧
      s.fetch r =
        (match data.slice? r.offset.toNat r.size.toNat with
        | some bytes => .ok bytes
        | none => .error (.truncatedTable r.offset r.size data.length), after) := by
  obtain ⟨hc, hf, hl⟩ := hs
  cases hslice : data.slice? r.offset.toNat r.size.toNat with
  | none =>
    have hlt := Bytes.slice?_eq_none_iff.1 hslice
    refine ⟨s, ⟨hc, hf, hl⟩, ?_⟩
    rw [fetch, (Region.check_eq_error_iff.2 ⟨hl ▸ hlt, rfl⟩ :
      r.check s.length = .error (.truncatedTable r.offset r.size s.length)), hl]
  | some bytes =>
    have hle := (Bytes.slice?_eq_some_iff.1 hslice).1
    rw [fetch, (Region.check_eq_ok_iff.2 (hl ▸ hle) : r.check s.length = .ok ())]
    by_cases hz : r.size = 0
    · -- an empty region takes no call
      refine ⟨s, ⟨hc, hf, hl⟩, ?_⟩
      have hb := Bytes.length_of_slice? hslice
      rw [hz] at hb
      simp [hz, List.length_eq_zero_iff.1 hb]
    · have hpos : 0 < r.size.toNat :=
        Nat.pos_of_ne_zero fun h => hz (UInt64.toNat.inj h)
      obtain ⟨after, ha, hac, haf⟩ :=
        Device.readAt_of_faultless hf hpos (hc.symm ▸ hslice)
      simp only [if_neg hz, ha]
      exact ⟨{ s with device := after }, ⟨hac.trans hc, haf, hl⟩, rfl⟩

/-! ### Runs -/

namespace Plan

variable {α : Type} {data : Bytes}

/-- **A run on a plain source ends with the outcome of its plan.** -/
theorem run_of_plain (p : Plan α) (now : Progress) (h : now.source.Plain data) :
    ∃ after, after.source.Plain data ∧ p.run now = (p.outcome data, after) := by
  -- on the plan: the source answers each question as the bytes do, and is plain for the next one
  induction p generalizing now with
  | done result => exact ⟨now, h, rfl⟩
  | askLength next ih =>
    obtain ⟨after, ha, hr⟩ := ih now.source.length now h
    exact ⟨after, ha, by rw [run, hr, outcome, h.length]⟩
  | fetch region next ih =>
    obtain ⟨source, hp, hf⟩ := Source.fetch_of_plain h region
    simp only [run, hf, outcome]
    cases data.slice? region.offset.toNat region.size.toNat with
    | none => exact ⟨_, hp, rfl⟩
    | some bytes => exact ih bytes { now with source } hp
  | reach stage next ih => exact ih { now with stage } h

end Plan

/-- Bytes at hand are measured without fault, and make a plain source. -/
theorem attach_ofBytes (data : Bytes) :
    ∃ source device, Source.attach (.ofBytes data) = (.ok source, device) ∧
      source.Plain data :=
  ⟨_, _, rfl, rfl, rfl, rfl⟩

/-- A run on bytes at hand gives the outcome of its plan. -/
theorem Decoder.run_ofBytes {α : Type} (plan : Plan α) (data : Bytes) :
    (Decoder.run plan { device := .ofBytes data }).1 = plan.outcome data := by
  obtain ⟨source, device, ha, hp⟩ := attach_ofBytes data
  obtain ⟨after, -, hr⟩ := plan.run_of_plain ⟨source, .unopened⟩ hp
  rw [Decoder.run, ha]
  simp only [hr]
  cases plan.outcome data <;> rfl

theorem decode_eq_outcome (data : Bytes) : decode data = Image.read.outcome data :=
  Decoder.run_ofBytes ..

theorem decodeHeader_eq_outcome (data : Bytes) :
    decodeHeader data = FileHeader.readStaged.outcome data :=
  Decoder.run_ofBytes ..

end ElfAnatomy
