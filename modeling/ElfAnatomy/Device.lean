import ElfAnatomy.DecodeError

/-!
# Devices

A device holds bytes that are reached by seek and read calls.  It may deliver fewer bytes than a
call asks for, refuse a call, or report a wrong length; it counts its calls, failed ones included,
and remembers them.

* `Device` : the content, the faults and everything that calls change.
* `Device.measure`, `Device.seek`, `Device.read` : the three calls.
* `Device.fill` : read calls until all bytes are there; `fill_eq` takes the first one apart.

The counters decide which call a fault hits; the list of calls tells what was asked for.
-/

namespace ElfAnatomy

/-- A call to a device. -/
inductive Call
  /-- A seek to the end, and the length that it gave unless it was refused. -/
  | measure (length? : Option Nat)
  /-- A seek to an offset. -/
  | seek (offset : UInt64) (accepted : Bool)
  /-- A read call for `wanted` bytes at `position`. -/
  | read (position wanted : Nat)
deriving DecidableEq, Repr

/-- How a device differs from one that does what it is asked. -/
structure Faults where
  /-- No read call delivers more bytes than this. -/
  chunk : Option Nat := none
  /-- The number of the read call that is refused, counted from zero. -/
  failRead : Option Nat := none
  /-- The number of the seek call that is refused, counted from zero. -/
  failSeek : Option Nat := none
  /-- The length reported in place of the real one. -/
  length : Option Nat := none
deriving DecidableEq, Repr

/-- A device: what it holds, and where its calls have brought it. -/
structure Device where
  content : Bytes
  faults : Faults := {}
  /-- Where the next read call starts. -/
  position : Nat := 0
  /-- The number of read calls so far. -/
  reads : Nat := 0
  /-- The number of seek calls so far. -/
  seeks : Nat := 0
  /-- All calls so far, the latest first. -/
  calls : List Call := []
deriving DecidableEq, Repr

namespace Device

/-- A device without faults. -/
def ofBytes (content : Bytes) : Device := { content }

/-- A device that gives nothing, as a folder that is opened like a file. -/
def unreadable : Device := { content := [], faults := { failSeek := some 0 } }

/-! ### Calls -/

/-- The length that the device reports. -/
def length (d : Device) : Nat := d.faults.length.getD d.content.length

/-- Seeks to the end and reports the length. -/
def measure (d : Device) : Except DeviceError Nat × Device :=
  let called := { d with seeks := d.seeks + 1 }
  if d.faults.failSeek = some d.seeks then
    (.error .seekRefused, { called with calls := .measure none :: d.calls })
  else
    (.ok d.length,
      { called with position := d.length, calls := .measure (some d.length) :: d.calls })

/-- Seeks to an offset. -/
def seek (d : Device) (offset : UInt64) : Except DeviceError Unit × Device :=
  let called := { d with seeks := d.seeks + 1 }
  if d.faults.failSeek = some d.seeks then
    (.error .seekRefused, { called with calls := .seek offset false :: d.calls })
  else
    (.ok (), { called with position := offset.toNat, calls := .seek offset true :: d.calls })

/-- The bytes from the position on. -/
def ahead (d : Device) : Bytes := d.content.drop d.position

/-- How many bytes a read call for `wanted` bytes delivers at most. -/
def limit (d : Device) (wanted : Nat) : Nat := min wanted (d.faults.chunk.getD wanted)

/-- A read call for `wanted` bytes that delivers the given ones, unless it is refused. -/
def deliver (d : Device) (wanted : Nat) (bytes : Bytes) : Except DeviceError Bytes × Device :=
  let called := { d with reads := d.reads + 1, calls := .read d.position wanted :: d.calls }
  if d.faults.failRead = some d.reads then (.error .readRefused, called)
  else (.ok bytes, { called with position := d.position + bytes.length })

/-- Reads at most `wanted` bytes from the position on. -/
def read (d : Device) (wanted : Nat) : Except DeviceError Bytes × Device :=
  d.deliver wanted (d.ahead.take (d.limit wanted))

/-- Reads exactly `wanted` bytes, with as many calls as that takes, where `ahead` are the bytes
from the position on; a call that delivers nothing ends it. -/
def fillFrom (d : Device) (ahead : Bytes) (wanted : Nat) : Except DeviceError Bytes × Device :=
  if wanted = 0 then (.ok [], d)
  else
    match d.deliver wanted (ahead.take (d.limit wanted)) with
    | (.error cause, after) => (.error cause, after)
    | (.ok [], after) => (.error .exhausted, after)
    | (.ok (b :: bs), after) =>
      match after.fillFrom (ahead.drop (d.limit wanted)) (wanted - (bs.length + 1)) with
      | (.error cause, last) => (.error cause, last)
      | (.ok rest, last) => (.ok (b :: bs ++ rest), last)
termination_by wanted

/-- Reads exactly `wanted` bytes from the position on. -/
def fill (d : Device) (wanted : Nat) : Except DeviceError Bytes × Device :=
  d.fillFrom d.ahead wanted

/-- A delivery moves the position past the delivered bytes. -/
theorem ahead_of_deliver {d after : Device} {wanted n : Nat} {bytes : Bytes}
    (h : d.deliver wanted (d.ahead.take n) = (.ok bytes, after)) :
    after.ahead = d.ahead.drop n := by
  unfold deliver at h
  split at h
  · cases h
  · cases h
    simp only [ahead, List.drop_drop, List.length_take, List.length_drop]
    rcases Nat.le_total n (d.content.length - d.position) with hn | hn
    · rw [Nat.min_eq_left hn]
    · rw [Nat.min_eq_right hn, List.drop_of_length_le (by omega),
        List.drop_of_length_le (by omega)]

/-- Filling is reading, and then filling with what is still wanted. -/
theorem fill_eq (d : Device) (wanted : Nat) :
    d.fill wanted =
      if wanted = 0 then (.ok [], d)
      else
        match d.read wanted with
        | (.error cause, after) => (.error cause, after)
        | (.ok [], after) => (.error .exhausted, after)
        | (.ok (b :: bs), after) =>
          match after.fill (wanted - (bs.length + 1)) with
          | (.error cause, last) => (.error cause, last)
          | (.ok rest, last) => (.ok (b :: bs ++ rest), last) := by
  rw [fill, fillFrom]
  refine ite_congr rfl (fun _ => rfl) fun _ => ?_
  unfold read fill
  generalize hr : d.deliver wanted (d.ahead.take (d.limit wanted)) = r
  match r, hr with
  | (.error _, _), _ => rfl
  | (.ok [], _), _ => rfl
  | (.ok (_ :: _), _), hr => simp only [ahead_of_deliver hr]

/-- Reads exactly `wanted` bytes from `offset` on. -/
def readAt (d : Device) (offset : UInt64) (wanted : Nat) : Except DeviceError Bytes × Device :=
  match d.seek offset with
  | (.error cause, d) => (.error cause, d)
  | (.ok (), d) => d.fill wanted

/-! ### Changes from outside -/

/-- Other content. -/
def replace (d : Device) (content : Bytes) : Device := { d with content }

/-- More content at the end. -/
def append (d : Device) (more : Bytes) : Device := { d with content := d.content ++ more }

/-- The content without what lies past `size` bytes. -/
def truncate (d : Device) (size : Nat) : Device := { d with content := d.content.take size }

/-- The content with other bytes from `offset` on, as far as the content goes. -/
def overwrite (d : Device) (offset : Nat) (bs : Bytes) : Device :=
  { d with content := d.content.take offset ++
      (bs.take (d.content.length - offset) ++ d.content.drop (offset + bs.length)) }

/-- Other faults; the calls are counted anew. -/
def withFaults (d : Device) (faults : Faults) : Device := { d with faults, reads := 0, seeks := 0 }

end Device

end ElfAnatomy
