import ElfAnatomy.Proofs.Comparison
import ElfAnatomy.Proofs.Extension

/-!
# Devices that report a length and deliver in pieces

A run believes the length that its device reports.  It cannot see the bytes past that length, and
it cannot see where one piece ends and the next one starts.  If the device has fewer bytes than it
says, either it fails or they are not missed.

* `Bytes.slice?_of_agree` : what two byte strings of which one starts the other have in common.
* `Source.Shows` : a source that may be taken for one that delivers a certain byte string at once.
* `Source.simulates_shows`, `Source.simulates_willing` : it answers like that one, unless it fails.
* `Decoder.exists_decode_of_ok` : every image is that of some file.
* `decodeTo_reporting` : **a run depends on the bytes below the measured length alone**.
-/

namespace ElfAnatomy

/-- One of two byte strings starts the other.  A slice that is there in full in the first one, and
does not lead out of the second one, is the same in both. -/
theorem Bytes.slice?_of_agree {content whole : Bytes} {offset size : Nat}
    (h : content <+: whole ∨ whole <+: content) (hin : offset + size ≤ whole.length)
    (hfull : ((content.drop offset).take size).length = size) :
    whole.slice? offset size = some ((content.drop offset).take size) := by
  rcases h with hpre | hpre
  · by_cases h0 : size = 0
    · -- an empty slice may start past the end of the first one
      subst h0
      exact slice?_eq_some_iff.2 ⟨hin, by simp⟩
    · refine slice?_of_prefix hpre (slice?_eq_some_iff.2 ⟨?_, rfl⟩)
      rw [List.length_take, List.length_drop] at hfull
      omega
  · have hwhole : whole.slice? offset size = some ((whole.drop offset).take size) :=
      slice?_eq_some_iff.2 ⟨hin, rfl⟩
    have hsame := slice?_of_prefix hpre hwhole
    obtain ⟨-, hcontent⟩ := slice?_eq_some_iff.1 hsame
    rw [hcontent]
    exact hwhole

namespace Source

/-- The source is as long as `whole`, and its device holds the same bytes, as far as both go. -/
structure Shows (s : Source) (whole : Bytes) : Prop where
  length : s.length = whole.length
  agree : s.device.content <+: whole ∨ whole <+: s.device.content

variable {s t : Source} {whole : Bytes}

theorem kept_fetch (s : Source) (r : Region) : s.device.Kept (s.fetch r).2.device := by
  have hfetched := s.fetched r
  rcases hs : s.fetch r with ⟨result, next⟩
  rw [hs] at hfetched
  cases hfetched with
  | refused hlt => exact .refl _
  | failed hle cause hkept => exact hkept
  | delivered hle hbytes hlength hkept => exact hkept

/-- A run leaves the content and the faults alone. -/
theorem kept_run {α : Type} (p : Plan α) (now : Progress) :
    now.source.device.Kept (p.run now).2.source.device := by
  induction p generalizing now with
  | done result => exact .refl _
  | askLength next ih => exact ih _ now
  | fetch region next ih =>
    have hkept := now.source.kept_fetch region
    unfold Plan.run
    split
    · rename_i hf
      rw [hf] at hkept
      exact hkept
    · rename_i bytes source hf
      rw [hf] at hkept
      exact hkept.trans (ih bytes { now with source })
  | reach stage next ih => exact ih { now with stage }

/-- Such a source answers like one that delivers `whole` at once, unless its device fails. -/
theorem Shows.fetch (h : s.Shows whole) (ht : t.Plain whole) (r : Region) :
    (∃ cause, (s.fetch r).1 = .error (.device cause)) ∨
      (s.fetch r).1 = (t.fetch r).1 ∧ (s.fetch r).2.Shows whole ∧ (t.fetch r).2.Plain whole := by
  obtain ⟨after, hafter, hplain⟩ := fetch_of_plain ht r
  have hfetched := s.fetched r
  rcases hs : s.fetch r with ⟨result, next⟩
  rw [hs] at hfetched
  rw [hplain]
  cases hfetched with
  | refused hlt =>
    have hnone : whole.slice? r.offset.toNat r.size.toNat = none :=
      Bytes.slice?_eq_none_iff.2 (h.length ▸ hlt)
    refine .inr ⟨?_, h, hafter⟩
    rw [hnone, h.length]
  | failed hle cause hkept => exact .inl ⟨cause, rfl⟩
  | delivered hle hbytes hlength hkept =>
    subst hbytes
    have hsome := Bytes.slice?_of_agree h.agree (h.length ▸ hle) hlength
    refine .inr ⟨?_, ⟨h.length, ?_⟩, hafter⟩
    · rw [hsome]
    · rw [hkept.content]
      exact h.agree

theorem simulates_shows (whole : Bytes) :
    Simulates (fun e => ∃ cause, e = .device cause) fun s t => s.Shows whole ∧ t.Plain whole where
  length := by
    rintro s t ⟨hs, ht⟩
    rw [hs.length, ht.length]
  fetch := by
    rintro s t ⟨hs, ht⟩ r
    rcases hs.fetch ht r with ⟨cause, hfail⟩ | ⟨hsame, hs', ht'⟩
    · exact .inl ⟨_, ⟨cause, rfl⟩, hfail⟩
    · exact .inr ⟨hsame, hs', ht'⟩

/-- A device that holds all of `whole`, and refuses nothing, does not fail. -/
theorem simulates_willing (whole : Bytes) :
    Simulates (fun _ => False) fun s t =>
      s.Shows whole ∧ t.Plain whole ∧ s.device.Willing ∧ whole <+: s.device.content where
  length := by
    rintro s t ⟨hs, ht, -, -⟩
    rw [hs.length, ht.length]
  fetch := by
    rintro s t ⟨hs, ht, hwilling, hpre⟩ r
    have hkept := s.kept_fetch r
    rcases hs.fetch ht r with ⟨cause, hfail⟩ | ⟨hsame, hs', ht'⟩
    · exfalso
      by_cases hle : r.stop ≤ s.length
      · have hin : r.stop ≤ s.device.content.length := by
          have hshort := hpre.length_le
          rw [hs.length] at hle
          omega
        obtain ⟨bytes, after, hok⟩ := exists_fetch hwilling hle hin
        rw [hok] at hfail
        cases hfail
      · have hrefused := s.fetched r
        rcases hf : s.fetch r with ⟨result, next⟩
        rw [hf] at hrefused hfail
        cases hrefused with
        | refused hlt => cases hfail
        | failed hin => exact hle hin
        | delivered hin => exact hle hin
    · refine .inr ⟨hsame, hs', ht', hwilling.kept hkept, ?_⟩
      rw [hkept.content]
      exact hpre

end Source

/-! ### Runs -/

/-- A device that reports a length, right or wrong, and delivers no more than `chunk` bytes with a
read call. -/
def Device.reporting (content : Bytes) (length : Nat) (chunk : Option Nat) : Device where
  content := content
  faults := { chunk, length := some length }

section

variable {data whole : Bytes} {n : Nat} {chunk : Option Nat}

/-- Such a device is measured without fault, and makes a source of the length that it reports. -/
theorem Source.attach_reporting (hagree : data <+: whole ∨ whole <+: data)
    (hlength : whole.length = n) (hchunk : ∀ c, chunk = some c → 0 < c) :
    ∃ s device, attach (.reporting data n chunk) = (.ok s, device) ∧ s.Shows whole ∧
      s.device.Willing ∧ s.device.content = data := by
  have hwilling : (Device.reporting data n chunk).Willing := ⟨rfl, rfl, hchunk⟩
  obtain ⟨s, device, hattach⟩ := exists_attach hwilling
  obtain ⟨hlen, hkept⟩ := of_attach hattach
  refine ⟨s, device, hattach, ⟨hlen.trans hlength.symm, ?_⟩, hwilling.kept hkept, hkept.content⟩
  rw [hkept.content]
  exact hagree

namespace Decoder

/-- A device that reports no more than it has. -/
theorem decodeTo_reporting_of_le (hchunk : ∀ c, chunk = some c → 0 < c) (hn : n ≤ data.length)
    (depth : Depth) :
    SameReport (Decoder.decodeTo { device := .reporting data n chunk } depth)
      (Decoder.decodeTo { device := .ofBytes (data.take n) } depth) := by
  have hpre : data.take n <+: data := List.take_prefix n data
  have hlength : (data.take n).length = n := List.length_take_of_le hn
  obtain ⟨s, device, hs, hshows, hwilling, hcontent⟩ :=
    Source.attach_reporting (.inr hpre) hlength hchunk
  obtain ⟨t, device', ht, hplain⟩ := attach_ofBytes (data.take n)
  have hR : s.Shows (data.take n) ∧ t.Plain (data.take n) ∧ s.device.Willing ∧
      data.take n <+: s.device.content := ⟨hshows, hplain, hwilling, hcontent.symm ▸ hpre⟩
  rcases decodeTo_of_simulates (d := { device := .reporting data n chunk })
    (e := { device := .ofBytes (data.take n) }) (Source.simulates_willing _) hs ht hR depth with
    ⟨_, hF, -⟩ | hsame
  · exact hF.elim
  · exact hsame

/-- A device that reports more than it has. -/
theorem decodeTo_reporting_of_append (hchunk : ∀ c, chunk = some c → 0 < c) {rest : Bytes}
    (hrest : (data ++ rest).length = n) (depth : Depth) :
    (∃ cause, (Decoder.decodeTo { device := .reporting data n chunk } depth).1 =
        .error (.device cause)) ∨
      SameReport (Decoder.decodeTo { device := .reporting data n chunk } depth)
        (Decoder.decodeTo { device := .ofBytes (data ++ rest) } depth) := by
  obtain ⟨s, device, hs, hshows, -, -⟩ :=
    Source.attach_reporting (.inl (List.prefix_append data rest)) hrest hchunk
  obtain ⟨t, device', ht, hplain⟩ := attach_ofBytes (data ++ rest)
  rcases decodeTo_of_simulates (d := { device := .reporting data n chunk })
    (e := { device := .ofBytes (data ++ rest) }) (Source.simulates_shows _) hs ht
    ⟨hshows, hplain⟩ depth with ⟨_, ⟨cause, rfl⟩, hfail⟩ | hsame
  · exact .inl ⟨cause, hfail⟩
  · exact .inr hsame

/-- An image comes from the bytes that the device may be taken for. -/
theorem decode_of_shows {d : Decoder} {image : Image} {s : Source} {device : Device}
    (hs : Source.attach d.device = (.ok s, device)) (hshows : s.Shows whole)
    (h : d.decode.1 = .ok image) : ElfAnatomy.decode whole = .ok image := by
  obtain ⟨t, other, ht, hplain⟩ := attach_ofBytes whole
  rcases run_of_simulates (e := { device := .ofBytes whole }) (Source.simulates_shows whole) hs ht
    ⟨hshows, hplain⟩ Image.read with ⟨_, ⟨cause, rfl⟩, hfail⟩ | hsame
  · rw [decode, hfail] at h
    cases h
  · exact hsame.result.symm.trans h

/-- **Every image is that of a file**, whatever device it was read from: of the first bytes that the
device has, or of these and some more, as many as the device reports. -/
theorem exists_decode_of_ok {d : Decoder} {image : Image} (h : d.decode.1 = .ok image) :
    ∃ whole, ElfAnatomy.decode whole = .ok image := by
  rcases hs : Source.attach d.device with ⟨e | s, device⟩
  · rw [decode, run_of_attach_error hs] at h
    cases h
  · obtain ⟨hlen, hkept⟩ := Source.of_attach hs
    rcases Nat.le_total s.length s.device.content.length with hle | hle
    · refine ⟨_, decode_of_shows hs ⟨?_, .inr (List.take_prefix s.length s.device.content)⟩ h⟩
      rw [List.length_take_of_le hle]
    · refine ⟨_, decode_of_shows hs ⟨?_, .inl (List.prefix_append s.device.content
        (List.replicate (s.length - s.device.content.length) 0))⟩ h⟩
      rw [List.length_append, List.length_replicate]
      omega

end Decoder

end

/-- **A run depends on the bytes below the measured length alone**, at either depth and whatever the
size of the pieces:

* if the device has as many bytes as it reports, it is decoded as a file of these bytes;
* bytes past the measured length, and the size of the pieces, make no difference;
* if it has fewer bytes, then either the device fails, or it is decoded as a file that goes on to
  the measured length, in any way. -/
theorem decodeTo_reporting (data : Bytes) (n : Nat) (chunk : Option Nat)
    (hchunk : ∀ c, chunk = some c → 0 < c) (depth : Depth) :
    (n ≤ data.length →
      SameReport (Decoder.decodeTo { device := .reporting data n chunk } depth)
        (Decoder.decodeTo { device := .ofBytes (data.take n) } depth)) ∧
    (n ≤ data.length → ∀ (other : Bytes) (pieces : Option Nat),
      (∀ c, pieces = some c → 0 < c) → n ≤ other.length → other.take n = data.take n →
      SameReport (Decoder.decodeTo { device := .reporting data n chunk } depth)
        (Decoder.decodeTo { device := .reporting other n pieces } depth)) ∧
    (data.length < n →
      (∃ cause, (Decoder.decodeTo { device := .reporting data n chunk } depth).1 =
        .error (.device cause)) ∨
      ∀ rest : Bytes, (data ++ rest).length = n →
        SameReport (Decoder.decodeTo { device := .reporting data n chunk } depth)
          (Decoder.decodeTo { device := .ofBytes (data ++ rest) } depth)) := by
  refine ⟨?_, ?_, ?_⟩
  · intro hn
    exact Decoder.decodeTo_reporting_of_le hchunk hn depth
  · intro hn other pieces hpieces hother htake
    have hone := Decoder.decodeTo_reporting_of_le hchunk hn depth
    have htwo := Decoder.decodeTo_reporting_of_le hpieces hother depth
    rw [htake] at htwo
    exact hone.trans htwo.symm
  · intro _
    by_cases hfail : ∃ cause, (Decoder.decodeTo { device := .reporting data n chunk } depth).1 =
        .error (.device cause)
    · exact .inl hfail
    · refine .inr ?_
      intro rest hrest
      exact (Decoder.decodeTo_reporting_of_append hchunk hrest depth).resolve_left hfail

/-- A file with seven bytes to a piece and more bytes behind it, and the same file on a device that
reports ten bytes too many. -/
theorem decodeTo_reporting_sample :
    SameReport
        (Decoder.decodeTo
          { device := .reporting (sampleFile ++ [1, 2, 3]) sampleFile.length (some 7) } .full)
        (Decoder.decodeTo
          { device := .ofBytes ((sampleFile ++ [1, 2, 3]).take sampleFile.length) } .full) ∧
      (Decoder.decodeTo
        { device := .reporting sampleFile (sampleFile.length + 10) none } .full).1 =
          .ok (.full sampleImage) ∧
      (Decoder.decodeTo
        { device := .ofBytes (sampleFile ++ List.replicate 10 0) } .full).1 =
          .ok (.full sampleImage) := by
  obtain ⟨hcut, -, -⟩ := decodeTo_reporting (sampleFile ++ [1, 2, 3]) sampleFile.length (some 7)
    (by simp) .full
  obtain ⟨-, -, hlong⟩ := decodeTo_reporting sampleFile (sampleFile.length + 10) none nofun .full
  have hresult : (Decoder.decodeTo
      { device := .reporting sampleFile (sampleFile.length + 10) none } .full).1 =
        .ok (.full sampleImage) := by
    decide +kernel
  refine ⟨hcut (by simp), hresult, ?_⟩
  rcases hlong (by omega) with ⟨cause, hfail⟩ | hsame
  · rw [hresult] at hfail
    cases hfail
  · rw [← hresult]
    exact (hsame (List.replicate 10 0) (by simp)).result.symm

end ElfAnatomy
