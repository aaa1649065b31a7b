import ElfAnatomy.Proofs.Calls
import ElfAnatomy.Proofs.Outcome

/-!
# What a device delivers

A device may deliver in pieces, report a foreign length and refuse calls.  Whatever it does, its
calls leave the content and the faults alone, and a region that comes at all is made of the bytes
that the content has there.

* `Device.Kept` : a device with the content and the faults of another one, after some calls.
* `Device.Filled`, `Device.filled` : how a buffer is filled, call by call.
* `Device.Filled.prefix_ahead` : a buffer that is filled holds the bytes ahead of the position.
* `Source.fetched` : **a region is refused, fails to come, or comes as it stands in the content.**
* `Device.Willing`, `Source.exists_fetch` : a device that refuses nothing and delivers something
  with every call lets every region come that its content holds.
* `Source.of_attach` : a source has the length that its device reports.
-/

namespace ElfAnatomy

namespace Device

/-! ### Filling a buffer -/

/-- How a buffer of `wanted` bytes may be filled, call by call. -/
inductive Filled : Device → Nat → Except DeviceError Bytes × Device → Prop
  /-- Nothing is wanted any more. -/
  | full (d : Device) : Filled d 0 (.ok [], d)
  | refused {d after : Device} {wanted : Nat} {cause : DeviceError} (hw : wanted ≠ 0)
      (hread : d.read wanted = (.error cause, after)) : Filled d wanted (.error cause, after)
  /-- A call delivers nothing. -/
  | exhausted {d after : Device} {wanted : Nat} (hw : wanted ≠ 0)
      (hread : d.read wanted = (.ok [], after)) : Filled d wanted (.error .exhausted, after)
  /-- A call delivers something, and a later one fails. -/
  | failed {d next last : Device} {wanted : Nat} {b : UInt8} {bs : Bytes} {cause : DeviceError}
      (hw : wanted ≠ 0) (hread : d.read wanted = (.ok (b :: bs), next))
      (hrest : Filled next (wanted - (bs.length + 1)) (.error cause, last)) :
      Filled d wanted (.error cause, last)
  /-- A call delivers something, and later ones deliver the rest. -/
  | filled {d next last : Device} {wanted : Nat} {b : UInt8} {bs rest : Bytes} (hw : wanted ≠ 0)
      (hread : d.read wanted = (.ok (b :: bs), next))
      (hrest : Filled next (wanted - (bs.length + 1)) (.ok rest, last)) :
      Filled d wanted (.ok (b :: bs ++ rest), last)

/-- **Every buffer is filled in this way**, or fails to be. -/
theorem filled (d : Device) (wanted : Nat) : Filled d wanted (d.fill wanted) := by
  -- on the bytes still wanted: a call that delivers something leaves fewer of them
  induction wanted using Nat.strongRecOn generalizing d with
  | _ wanted ih =>
    rw [fill_eq]
    split
    · rename_i h0
      subst h0
      exact .full d
    · rename_i hw
      split
      · rename_i hread
        exact .refused hw hread
      · rename_i hread
        exact .exhausted hw hread
      · rename_i b bs next hread
        have hrest := ih (wanted - (bs.length + 1)) (by omega) next
        split
        · rename_i hfill
          rw [hfill] at hrest
          exact .failed hw hread hrest
        · rename_i hfill
          rw [hfill] at hrest
          exact .filled hw hread hrest

/-! ### Content and faults -/

/-- The later device has the content and the faults of the earlier one. -/
structure Kept (d after : Device) : Prop where
  content : after.content = d.content
  faults : after.faults = d.faults

namespace Kept

variable {d e f : Device}

theorem refl (d : Device) : d.Kept d := ⟨rfl, rfl⟩

theorem trans (h : d.Kept e) (h' : e.Kept f) : d.Kept f :=
  ⟨h'.content.trans h.content, h'.faults.trans h.faults⟩

end Kept

variable {d after : Device} {wanted : Nat} {bytes : Bytes}

theorem kept_deliver (d : Device) (wanted : Nat) (bytes : Bytes) :
    d.Kept (d.deliver wanted bytes).2 := by
  unfold deliver
  split
  · exact ⟨rfl, rfl⟩
  · exact ⟨rfl, rfl⟩

theorem kept_seek (d : Device) (offset : UInt64) : d.Kept (d.seek offset).2 := by
  unfold seek
  split
  · exact ⟨rfl, rfl⟩
  · exact ⟨rfl, rfl⟩

theorem kept_measure (d : Device) : d.Kept d.measure.2 := by
  unfold measure
  split
  · exact ⟨rfl, rfl⟩
  · exact ⟨rfl, rfl⟩

theorem kept_of_read {result : Except DeviceError Bytes}
    (h : d.read wanted = (result, after)) : d.Kept after := by
  have hkept := d.kept_deliver wanted (d.ahead.take (d.limit wanted))
  rw [show d.deliver wanted _ = (result, after) from h] at hkept
  exact hkept

theorem Filled.kept {x : Except DeviceError Bytes × Device} (h : Filled d wanted x) :
    d.Kept x.2 := by
  -- on the calls: each of them keeps what the calls before it have kept
  induction h with
  | full d => exact .refl d
  | refused hw hread => exact kept_of_read hread
  | exhausted hw hread => exact kept_of_read hread
  | failed hw hread hrest ih => exact (kept_of_read hread).trans ih
  | filled hw hread hrest ih => exact (kept_of_read hread).trans ih

theorem kept_fill (d : Device) (wanted : Nat) : d.Kept (d.fill wanted).2 :=
  (d.filled wanted).kept

theorem kept_readAt (d : Device) (offset : UInt64) (wanted : Nat) :
    d.Kept (d.readAt offset wanted).2 := by
  have hseek := d.kept_seek offset
  unfold readAt
  split
  · rename_i hs
    rw [hs] at hseek
    exact hseek
  · rename_i next hs
    rw [hs] at hseek
    exact hseek.trans (next.kept_fill wanted)

/-! ### Bytes -/

/-- A buffer that is filled is full, and holds the first bytes ahead of the position. -/
theorem Filled.prefix_ahead {x : Except DeviceError Bytes × Device} (h : Filled d wanted x)
    (hx : x = (.ok bytes, after)) : bytes <+: d.ahead ∧ bytes.length = wanted := by
  -- on the calls: one takes the first bytes ahead, and the others take the rest
  induction h generalizing bytes with
  | full d =>
    cases hx
    exact ⟨List.nil_prefix, rfl⟩
  | refused hw hread => cases hx
  | exhausted hw hread => cases hx
  | failed hw hread hrest ih => cases hx
  | @filled d next last wanted b bs rest hw hread hrest ih =>
    cases hx
    obtain ⟨hpre, hlen⟩ := ih rfl
    have hfirst : b :: bs = d.ahead.take (d.limit wanted) := ok_of_deliver hread
    have hahead : next.ahead = d.ahead.drop (d.limit wanted) := ahead_of_deliver hread
    have hcount : (b :: bs).length ≤ wanted := by
      rw [hfirst, List.length_take, limit]
      omega
    rw [List.length_cons] at hcount
    refine ⟨?_, ?_⟩
    · rw [hahead] at hpre
      have hboth := (List.prefix_append_right_inj (d.ahead.take (d.limit wanted))).2 hpre
      rwa [List.take_append_drop, ← hfirst] at hboth
    · rw [List.length_append, List.length_cons]
      omega

/-- The device refuses no call, and every read call delivers something unless nothing is left. -/
structure Willing (d : Device) : Prop where
  reads : d.faults.failRead = none
  seeks : d.faults.failSeek = none
  chunk : ∀ c, d.faults.chunk = some c → 0 < c

theorem Willing.kept (h : d.Willing) (hk : d.Kept after) : after.Willing := by
  refine ⟨?_, ?_, ?_⟩
  · rw [hk.faults]
    exact h.reads
  · rw [hk.faults]
    exact h.seeks
  · rw [hk.faults]
    exact h.chunk

theorem Willing.limit_pos (h : d.Willing) (hw : wanted ≠ 0) : 0 < d.limit wanted := by
  unfold limit
  cases hc : d.faults.chunk with
  | none => rw [Option.getD_none]; omega
  | some c =>
    have := h.chunk c hc
    rw [Option.getD_some]
    omega

/-- A willing device fills a buffer for which enough bytes are ahead. -/
theorem Willing.of_filled {x : Except DeviceError Bytes × Device} (h : Filled d wanted x)
    (hd : d.Willing) (hw : wanted ≤ d.ahead.length) : ∃ bytes after, x = (.ok bytes, after) := by
  -- on the calls: each of them delivers something, and leaves enough bytes for the others
  induction h with
  | full d => exact ⟨[], d, rfl⟩
  | @refused d after wanted cause h0 hread =>
    rw [read, deliver, hd.reads, if_neg (by simp)] at hread
    cases hread
  | @exhausted d after wanted h0 hread =>
    have hnone := congrArg List.length (ok_of_deliver hread)
    have hlimit := hd.limit_pos h0
    rw [List.length_nil, List.length_take] at hnone
    omega
  | @failed d next last wanted b bs cause h0 hread hrest ih =>
    have hfirst := congrArg List.length (ok_of_deliver hread)
    have hahead : next.ahead = d.ahead.drop (d.limit wanted) := ahead_of_deliver hread
    have hle : d.limit wanted ≤ wanted := Nat.min_le_left ..
    rw [List.length_cons, List.length_take] at hfirst
    obtain ⟨bytes, after, hok⟩ := ih (hd.kept (kept_of_read hread)) (by
      rw [hahead, List.length_drop]
      omega)
    cases hok
  | filled h0 hread hrest ih => exact ⟨_, _, rfl⟩

theorem Willing.exists_fill (h : d.Willing) (hw : wanted ≤ d.ahead.length) :
    ∃ bytes after, d.fill wanted = (.ok bytes, after) :=
  of_filled (d.filled wanted) h hw

theorem Willing.exists_readAt (h : d.Willing) {offset : UInt64}
    (hw : offset.toNat + wanted ≤ d.content.length) :
    ∃ bytes after, d.readAt offset wanted = (.ok bytes, after) := by
  have hseek : d.seek offset = (.ok (), (d.seek offset).2) := by
    rw [seek, h.seeks, if_neg (by simp)]
  have hposition : (d.seek offset).2.ahead = d.content.drop offset.toNat := by
    rw [seek, h.seeks, if_neg (by simp)]
    rfl
  rw [readAt, hseek]
  refine (h.kept (d.kept_seek offset)).exists_fill ?_
  rw [hposition, List.length_drop]
  omega

/-- What is read of a region stands there in the content. -/
theorem of_readAt {offset : UInt64} (h : d.readAt offset wanted = (.ok bytes, after)) :
    bytes = (d.content.drop offset.toNat).take wanted ∧ bytes.length = wanted := by
  unfold readAt at h
  split at h
  · cases h
  · rename_i next hseek
    have hahead : next.ahead = d.content.drop offset.toNat := by
      unfold seek at hseek
      split at hseek
      · cases hseek
      · cases hseek
        rfl
    obtain ⟨hpre, hlen⟩ := (next.filled wanted).prefix_ahead h
    rw [hahead, List.prefix_iff_eq_take, hlen] at hpre
    exact ⟨hpre, hlen⟩

end Device

/-! ### Regions -/

namespace Source

/-- How a source may answer for a region. -/
inductive Fetched (s : Source) (r : Region) : Except DecodeError Bytes × Source → Prop
  /-- The region does not lie in the source. -/
  | refused (h : s.length < r.stop) :
      Fetched s r (.error (.truncatedTable r.offset r.size s.length), s)
  /-- The device fails. -/
  | failed (h : r.stop ≤ s.length) (cause : DeviceError) {device : Device}
      (hkept : s.device.Kept device) : Fetched s r (.error (.device cause), { s with device })
  /-- The bytes come as they stand in the content. -/
  | delivered (h : r.stop ≤ s.length) {bytes : Bytes}
      (hbytes : bytes = (s.device.content.drop r.offset.toNat).take r.size.toNat)
      (hlength : bytes.length = r.size.toNat) {device : Device}
      (hkept : s.device.Kept device) : Fetched s r (.ok bytes, { s with device })

/-- **Every answer for a region is one of these.** -/
theorem fetched (s : Source) (r : Region) : Fetched s r (s.fetch r) := by
  unfold fetch
  split
  · rename_i hcheck
    obtain ⟨hlt, rfl⟩ := Region.check_eq_error_iff.1 hcheck
    exact .refused hlt
  · rename_i hcheck
    have hle := Region.check_eq_ok_iff.1 hcheck
    split
    · rename_i h0
      refine .delivered (s := s) hle ?_ ?_ (.refl _)
      · rw [h0, UInt64.toNat_zero, List.take_zero]
      · rw [h0, UInt64.toNat_zero, List.length_nil]
    · have hkept := s.device.kept_readAt r.offset r.size.toNat
      split
      · rename_i cause device hread
        rw [hread] at hkept
        exact .failed hle cause hkept
      · rename_i bytes device hread
        rw [hread] at hkept
        obtain ⟨hbytes, hlength⟩ := Device.of_readAt hread
        exact .delivered hle hbytes hlength hkept

/-- From a willing device every region comes that lies in the source and in the content. -/
theorem exists_fetch {s : Source} {r : Region} (hd : s.device.Willing) (h : r.stop ≤ s.length)
    (hin : r.stop ≤ s.device.content.length) :
    ∃ bytes after, s.fetch r = (.ok bytes, after) := by
  rw [fetch, (Region.check_eq_ok_iff.2 h : r.check s.length = .ok ())]
  dsimp only
  split
  · exact ⟨_, _, rfl⟩
  · obtain ⟨bytes, after, hread⟩ := hd.exists_readAt hin
    rw [hread]
    exact ⟨_, _, rfl⟩

/-- A source has the length that its device reports. -/
theorem of_attach {d device : Device} {s : Source} (h : attach d = (.ok s, device)) :
    s.length = d.length ∧ d.Kept s.device := by
  have hkept := d.kept_measure
  unfold attach at h
  split at h
  · cases h
  · rename_i length next hm
    rw [hm] at hkept
    cases h
    refine ⟨?_, hkept⟩
    unfold Device.measure at hm
    split at hm
    · cases hm
    · cases hm
      rfl

/-- A device cannot be measured only if it refuses the seek to its end. -/
theorem of_attach_error {d device : Device} {e : DecodeError}
    (h : attach d = (.error e, device)) : e = .device .seekRefused := by
  unfold attach at h
  split at h
  · rename_i cause next hm
    cases h
    unfold Device.measure at hm
    split at hm
    · cases hm
      rfl
    · cases hm
  · cases h

theorem exists_attach {d : Device} (hd : d.Willing) :
    ∃ s device, attach d = (.ok s, device) := by
  rw [attach, Device.measure, hd.seeks, if_neg (by simp)]
  exact ⟨_, _, rfl⟩

end Source

end ElfAnatomy
