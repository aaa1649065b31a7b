import ElfAnatomy.Decoder

/-!
# The calls of a run

A device lists the calls it has got, the latest first.  A read call is judged by the calls before
it: they must tell where the device stands and how long it is.

* `Call.Justified` : a read call asks for the rest of a region that lies in the measured length,
  and the device was sent to the start of that region.
* `Call.Orderly` : every read call of a list is justified.
* `Device.InOrder` : what holds of a device with a measured length between any two regions.
* `Plan.run_inOrder` : **no run of a plan makes an unjustified read call**, whatever the plan asks
  for and whatever goes wrong.
-/

namespace ElfAnatomy

namespace Call

/-- The length that the latest measuring gave. -/
def measured? : List Call → Option Nat
  | [] => none
  | measure length? :: _ => length?
  | seek _ _ :: before => measured? before
  | read _ _ :: before => measured? before

/-- Where the latest seek led, if nothing but read calls came after it. -/
def sought? : List Call → Option UInt64
  | [] => none
  | measure _ :: _ => none
  | seek offset accepted :: _ => if accepted then some offset else none
  | read _ _ :: before => sought? before

/-- A read call asks for the rest of a region with at least one byte; the region lies in the
length that was measured, and a seek to its start was the latest one and successful. -/
def Justified (before : List Call) (position wanted : Nat) : Prop :=
  ∃ (r : Region) (length : Nat),
    measured? before = some length ∧ sought? before = some r.offset ∧
      0 < r.size.toNat ∧ r.stop ≤ length ∧
      r.offset.toNat ≤ position ∧ 0 < wanted ∧ position + wanted = r.stop

/-- Every read call is justified by the calls before it. -/
def Orderly (calls : List Call) : Prop :=
  ∀ before position wanted, read position wanted :: before <:+ calls →
    Justified before position wanted

theorem orderly_nil : Orderly [] := by
  intro before position wanted h
  simp at h

theorem orderly_read_iff {position wanted : Nat} {before : List Call} :
    Orderly (read position wanted :: before) ↔
      Justified before position wanted ∧ Orderly before := by
  constructor
  · intro h
    exact ⟨h _ _ _ (List.suffix_refl _), fun _ _ _ hs => h _ _ _ (hs.trans (List.suffix_cons ..))⟩
  · rintro ⟨hj, ho⟩ earlier position' wanted' hs
    rcases List.suffix_cons_iff.1 hs with heq | hs
    · cases heq
      exact hj
    · exact ho _ _ _ hs

/-- Calls of other kinds need no justification. -/
theorem Orderly.cons {call : Call} {before : List Call} (h : Orderly before)
    (hcall : ∀ position wanted, call ≠ read position wanted) : Orderly (call :: before) := by
  intro earlier position wanted hs
  rcases List.suffix_cons_iff.1 hs with heq | hs
  · cases heq
    exact absurd rfl (hcall position wanted)
  · exact h _ _ _ hs

end Call

/-! ### Reading a region -/

namespace Device

/-- The device has been measured, and every read call so far is justified. -/
structure InOrder (d : Device) (length : Nat) : Prop where
  orderly : Call.Orderly d.calls
  measured : Call.measured? d.calls = some length

variable {d : Device} {r : Region} {length : Nat}

/-- The device stands inside a region to which it was sent, and `wanted` bytes are left of it. -/
structure Within (d : Device) (r : Region) (length wanted : Nat) : Prop extends
    InOrder d length where
  sought : Call.sought? d.calls = some r.offset
  pos : 0 < r.size.toNat
  stop_le : r.stop ≤ length
  offset_le : r.offset.toNat ≤ d.position
  stop_eq : d.position + wanted = r.stop

theorem calls_deliver (d : Device) (wanted : Nat) (bytes : Bytes) :
    (d.deliver wanted bytes).2.calls = .read d.position wanted :: d.calls := by
  unfold deliver
  split <;> rfl

theorem Within.inOrder_deliver {wanted : Nat} (h : d.Within r length wanted) (hw : wanted ≠ 0)
    (bytes : Bytes) : (d.deliver wanted bytes).2.InOrder length := by
  refine ⟨?_, ?_⟩
  · rw [calls_deliver, Call.orderly_read_iff]
    exact ⟨⟨r, length, h.measured, h.sought, h.pos, h.stop_le, h.offset_le,
      Nat.pos_of_ne_zero hw, h.stop_eq⟩, h.orderly⟩
  · rw [calls_deliver]
    exact h.measured

/-- A delivery leaves the device within the region, with fewer bytes left of it. -/
theorem Within.deliver {wanted : Nat} {bytes : Bytes} {after : Device}
    (h : d.Within r length wanted) (hw : wanted ≠ 0) (hle : bytes.length ≤ wanted)
    (hd : d.deliver wanted bytes = (.ok bytes, after)) :
    after.Within r length (wanted - bytes.length) := by
  have horder := h.inOrder_deliver hw bytes
  have hcalls := calls_deliver d wanted bytes
  have hposition : after.position = d.position + bytes.length := by
    unfold Device.deliver at hd
    split at hd
    · cases hd
    · cases hd
      rfl
  rw [hd] at horder hcalls
  have hstop := h.stop_eq
  have hoffset := h.offset_le
  exact {
    toInOrder := horder
    sought := by rw [hcalls]; exact h.sought
    pos := h.pos
    stop_le := h.stop_le
    offset_le := by omega
    stop_eq := by omega }

theorem ok_of_deliver {wanted : Nat} {bytes others : Bytes} {after : Device}
    (h : d.deliver wanted bytes = (.ok others, after)) : others = bytes := by
  unfold deliver at h
  split at h
  · cases h
  · cases h
    rfl

/-- Filling a buffer with the rest of a region is done by justified read calls. -/
theorem Within.inOrder_fill {wanted : Nat} (h : d.Within r length wanted) :
    (d.fill wanted).2.InOrder length := by
  -- on the bytes still wanted: a call that delivers something leaves fewer of them
  induction wanted using Nat.strongRecOn generalizing d with
  | _ wanted ih =>
    rw [fill_eq]
    split
    · exact h.toInOrder
    · rename_i hw
      have horder := h.inOrder_deliver hw (d.ahead.take (d.limit wanted))
      unfold read
      split
      · rename_i hd
        rw [hd] at horder
        exact horder
      · rename_i hd
        rw [hd] at horder
        exact horder
      · rename_i b bs after hd
        have hbytes := ok_of_deliver hd
        have hle : (b :: bs).length ≤ wanted := by
          rw [hbytes, List.length_take, limit]
          omega
        rw [← hbytes] at hd
        have hafter := ih (wanted - (bs.length + 1)) (by omega) (h.deliver hw hle hd)
        split
        · rename_i hf
          rw [hf] at hafter
          exact hafter
        · rename_i hf
          rw [hf] at hafter
          exact hafter

/-- Reading a region that lies in the measured length makes justified read calls only. -/
theorem InOrder.readAt (h : d.InOrder length) (hpos : 0 < r.size.toNat) (hle : r.stop ≤ length) :
    (d.readAt r.offset r.size.toNat).2.InOrder length := by
  unfold Device.readAt seek
  split
  · -- a refused seek is followed by no read call
    rename_i hseek
    split at hseek
    · cases hseek
      exact ⟨h.orderly.cons nofun, h.measured⟩
    · cases hseek
  · rename_i hseek
    split at hseek
    · cases hseek
    · cases hseek
      refine Within.inOrder_fill (r := r) ?_
      exact {
        orderly := h.orderly.cons nofun
        measured := h.measured
        sought := rfl
        pos := hpos
        stop_le := hle
        offset_le := Nat.le_refl _
        stop_eq := rfl }

end Device

/-! ### Runs -/

theorem Source.length_fetch (s : Source) (r : Region) : (s.fetch r).2.length = s.length := by
  unfold fetch
  split
  · rfl
  · split
    · rfl
    · split <;> rfl

/-- A region that lies in the source is read by justified calls, and any other without a call. -/
theorem Source.fetch_inOrder {s : Source} (h : s.device.InOrder s.length) (r : Region) :
    (s.fetch r).2.device.InOrder s.length := by
  unfold fetch
  split
  · exact h
  · rename_i hcheck
    split
    · exact h
    · rename_i hsize
      have hpos : 0 < r.size.toNat := Nat.pos_of_ne_zero fun h0 => hsize (UInt64.toNat.inj h0)
      have hread := h.readAt hpos (Region.check_eq_ok_iff.1 hcheck)
      split
      · rename_i hd
        rw [hd] at hread
        exact hread
      · rename_i hd
        rw [hd] at hread
        exact hread

namespace Plan

variable {α : Type}

/-- A run leaves the source as long as it was. -/
theorem length_run (p : Plan α) (now : Progress) :
    (p.run now).2.source.length = now.source.length := by
  induction p generalizing now with
  | done result => rfl
  | askLength next ih => exact ih _ now
  | fetch region next ih =>
    have hlen := now.source.length_fetch region
    unfold run
    split
    · rename_i hf
      rw [hf] at hlen
      exact hlen
    · rename_i bytes source hf
      rw [hf] at hlen
      exact (ih bytes { now with source }).trans hlen
  | reach stage next ih => exact ih { now with stage }

/-- **No run makes an unjustified read call.** -/
theorem run_inOrder (p : Plan α) (now : Progress)
    (h : now.source.device.InOrder now.source.length) :
    (p.run now).2.source.device.InOrder now.source.length := by
  -- on the plan: a region leaves the source as long as it was, so the next one is judged alike
  induction p generalizing now with
  | done result => exact h
  | askLength next ih => exact ih _ now h
  | fetch region next ih =>
    have hlen := now.source.length_fetch region
    have hfetch := Source.fetch_inOrder h region
    unfold run
    split
    · rename_i hf
      rw [hf] at hfetch
      exact hfetch
    · rename_i bytes source hf
      rw [hf] at hfetch hlen
      dsimp only at hfetch hlen
      rw [← hlen] at hfetch ⊢
      exact ih bytes { now with source } hfetch
  | reach stage next ih => exact ih _ h

end Plan

end ElfAnatomy
