import ElfAnatomy.Proofs.Comparison
import ElfAnatomy.Proofs.Stages

/-!
# Runs one after another

A decoder may run many times, at either depth, while its device is changed in between.  A run
measures the device anew and seeks before it reads, and it starts from the first stage, so it does
not matter where earlier runs have left the device and what they came to.

* `Device.Alike`, `Device.Level` : devices that differ in their past only.
* `Source.simulates_alike` : such devices answer alike.
* `Command`, `Event`, `Decoder.history` : the runs of one decoder, in order.
* `Run.Exact` : what the decoder remembers is what the run came to.
* `Run.Fresh` : a new decoder would have reported the same.
* `exact_and_fresh` : **both hold of every run in every history**.
-/

namespace ElfAnatomy

/-! ### Devices that differ in their past -/

namespace Device

/-- The devices hold the same bytes, have the same faults and have counted as many calls. -/
structure Alike (d e : Device) : Prop where
  content : e.content = d.content
  faults : e.faults = d.faults
  reads : e.reads = d.reads
  seeks : e.seeks = d.seeks

/-- They stand at the same position as well, so only the calls they remember may differ. -/
structure Level (d e : Device) : Prop extends Alike d e where
  position : e.position = d.position

variable {d e : Device}

theorem Alike.length (h : d.Alike e) : e.length = d.length := by
  rw [Device.length, Device.length, h.faults, h.content]

/-- The devices answer alike, and differ in their past only afterwards. -/
theorem Alike.measure (h : d.Alike e) :
    ∃ answer d' e', d.measure = (answer, d') ∧ e.measure = (answer, e') ∧ d'.Alike e' := by
  unfold Device.measure
  rw [h.faults, h.seeks, h.length]
  split
  · exact ⟨_, _, _, rfl, rfl, h.content, rfl, h.reads, rfl⟩
  · exact ⟨_, _, _, rfl, rfl, h.content, rfl, h.reads, rfl⟩

/-- A seek that is accepted brings devices to the same position. -/
theorem Alike.seek (h : d.Alike e) (offset : UInt64) :
    (∃ cause d' e', d.seek offset = (.error cause, d') ∧ e.seek offset = (.error cause, e') ∧
        d'.Alike e') ∨
      ∃ d' e', d.seek offset = (.ok (), d') ∧ e.seek offset = (.ok (), e') ∧ d'.Level e' := by
  unfold Device.seek
  rw [h.faults, h.seeks]
  split
  · exact .inl ⟨_, _, _, rfl, rfl, h.content, rfl, h.reads, rfl⟩
  · exact .inr ⟨_, _, rfl, rfl, ⟨h.content, rfl, h.reads, rfl⟩, rfl⟩

theorem Level.read (h : d.Level e) (wanted : Nat) :
    ∃ answer d' e', d.read wanted = (answer, d') ∧ e.read wanted = (answer, e') ∧ d'.Level e' := by
  have hahead : e.ahead = d.ahead := by
    rw [ahead, ahead, h.content, h.position]
  have hlimit : e.limit wanted = d.limit wanted := by
    rw [limit, limit, h.faults]
  unfold Device.read deliver
  rw [hahead, hlimit, h.faults, h.reads, h.position]
  split
  · exact ⟨_, _, _, rfl, rfl, ⟨h.content, rfl, rfl, h.seeks⟩, rfl⟩
  · exact ⟨_, _, _, rfl, rfl, ⟨h.content, rfl, rfl, h.seeks⟩, rfl⟩

theorem Level.fill (h : d.Level e) (wanted : Nat) :
    ∃ answer d' e', d.fill wanted = (answer, d') ∧ e.fill wanted = (answer, e') ∧ d'.Level e' := by
  -- on the bytes still wanted: the first call leaves both devices at one position
  induction wanted using Nat.strongRecOn generalizing d e with
  | _ wanted ih =>
    rw [fill_eq d, fill_eq e]
    by_cases hw : wanted = 0
    · rw [if_pos hw, if_pos hw]
      exact ⟨_, _, _, rfl, rfl, h⟩
    · rw [if_neg hw, if_neg hw]
      obtain ⟨answer, d', e', hd, he, hnext⟩ := h.read wanted
      rw [hd, he]
      match answer with
      | .error cause => exact ⟨_, _, _, rfl, rfl, hnext⟩
      | .ok [] => exact ⟨_, _, _, rfl, rfl, hnext⟩
      | .ok (b :: bs) =>
        obtain ⟨rest, d'', e'', hd', he', hlast⟩ := ih (wanted - (bs.length + 1)) (by omega) hnext
        dsimp only
        rw [hd', he']
        cases rest with
        | error cause => exact ⟨_, _, _, rfl, rfl, hlast⟩
        | ok rest => exact ⟨_, _, _, rfl, rfl, hlast⟩

theorem Alike.readAt (h : d.Alike e) (offset : UInt64) (wanted : Nat) :
    ∃ answer d' e', d.readAt offset wanted = (answer, d') ∧
      e.readAt offset wanted = (answer, e') ∧ d'.Alike e' := by
  unfold Device.readAt
  rcases h.seek offset with ⟨cause, d', e', hd, he, halike⟩ | ⟨d', e', hd, he, hlevel⟩
  · rw [hd, he]
    exact ⟨_, _, _, rfl, rfl, halike⟩
  · rw [hd, he]
    obtain ⟨answer, d'', e'', hd', he', hlast⟩ := hlevel.fill wanted
    exact ⟨answer, d'', e'', hd', he', hlast.toAlike⟩

end Device

/-! ### Sources -/

namespace Source

/-- Sources on devices that differ in their past only. -/
structure Alike (s t : Source) : Prop where
  length : s.length = t.length
  device : s.device.Alike t.device

theorem Alike.fetch {s t : Source} (h : s.Alike t) (r : Region) :
    ∃ answer s' t', s.fetch r = (answer, s') ∧ t.fetch r = (answer, t') ∧ s'.Alike t' := by
  unfold Source.fetch
  rw [h.length]
  split
  · exact ⟨_, _, _, rfl, rfl, h⟩
  · by_cases h0 : r.size = 0
    · rw [if_pos h0, if_pos h0]
      exact ⟨_, _, _, rfl, rfl, h⟩
    · rw [if_neg h0, if_neg h0]
      obtain ⟨answer, d', e', hd, he, hlast⟩ := h.device.readAt r.offset r.size.toNat
      rw [hd, he]
      cases answer with
      | error cause => exact ⟨_, _, _, rfl, rfl, rfl, hlast⟩
      | ok bytes => exact ⟨_, _, _, rfl, rfl, rfl, hlast⟩

/-- **Devices that differ in their past only answer alike.** -/
theorem simulates_alike : Simulates (fun _ => False) Alike where
  length := fun h => h.length
  fetch := by
    intro s t h r
    obtain ⟨answer, s', t', hs, ht, halike⟩ := h.fetch r
    rw [hs, ht]
    exact .inr ⟨rfl, halike⟩

end Source

/-- Such devices are measured alike. -/
theorem Source.attach_alike {d e : Device} (h : d.Alike e) :
    (∃ cause device device', attach d = (.error cause, device) ∧
        attach e = (.error cause, device')) ∨
      ∃ s t device device', attach d = (.ok s, device) ∧ attach e = (.ok t, device') ∧
        s.Alike t := by
  obtain ⟨answer, d', e', hd, he, halike⟩ := h.measure
  unfold attach
  rw [hd, he]
  cases answer with
  | error cause => exact .inl ⟨_, _, _, rfl, rfl⟩
  | ok length => exact .inr ⟨_, _, _, _, rfl, rfl, rfl, halike⟩

namespace Decoder

variable {d e : Decoder}

theorem decodeTo_of_attach_error {cause : DecodeError} {device : Device}
    (ha : Source.attach d.device = (.error cause, device)) (depth : Depth) :
    d.decodeTo depth = (.error cause, ⟨device, .unopened, true⟩) := by
  cases depth with
  | headerOnly => rw [decodeTo, decodeHeader, run_of_attach_error ha]; rfl
  | full => rw [decodeTo, decode, run_of_attach_error ha]; rfl

/-- **Decoders on devices that differ in their past only report the same**, whatever they remember
of their own past. -/
theorem decodeTo_of_alike (h : d.device.Alike e.device) (depth : Depth) :
    SameReport (d.decodeTo depth) (e.decodeTo depth) := by
  rcases Source.attach_alike h with ⟨cause, device, device', hd, he⟩ |
    ⟨s, t, device, device', hd, he, halike⟩
  · rw [decodeTo_of_attach_error hd, decodeTo_of_attach_error he]
    exact ⟨rfl, rfl, rfl⟩
  · rcases decodeTo_of_simulates Source.simulates_alike hd he halike depth with ⟨_, hF, -⟩ | hsame
    · exact hF.elim
    · exact hsame

end Decoder

/-! ### Histories -/

/-- What a decoder can be told to do. -/
inductive Command
  | decode
  | decodeHeader
  | decodeTo (depth : Depth)
deriving DecidableEq, Repr

namespace Command

/-- How far the run of a command goes. -/
def depth : Command → Depth
  | decode => .full
  | decodeHeader => .headerOnly
  | decodeTo depth => depth

/-- Carries out a command. -/
def perform (d : Decoder) : Command → Except DecodeError Decoded × Decoder
  | decode => let (result, d) := d.decode; (result.map .full, d)
  | decodeHeader => let (result, d) := d.decodeHeader; (result.map .headerOnly, d)
  | decodeTo depth => d.decodeTo depth

theorem perform_eq (d : Decoder) (c : Command) : c.perform d = d.decodeTo c.depth := by
  cases c with
  | decode => rfl
  | decodeHeader => rfl
  | decodeTo depth => rfl

end Command

/-- What can happen to a decoder. -/
inductive Event
  | command (c : Command)
  /-- The device is changed from outside, in any way. -/
  | change (f : Device → Device)

/-- One run of a decoder: what it was told to do, the device as it was then, the result, and the
decoder afterwards. -/
structure Run where
  command : Command
  found : Device
  result : Except DecodeError Decoded
  after : Decoder

/-- The runs of a decoder to which all this happens, in order. -/
def Decoder.history : Decoder → List Event → List Run
  | _, [] => []
  | d, .command c :: events =>
    let (result, after) := c.perform d
    ⟨c, d.device, result, after⟩ :: after.history events
  | d, .change f :: events => (d.modify f).history events

namespace Run

/-- What the decoder remembers is what the run came to. -/
structure Exact (r : Run) : Prop where
  failed : r.after.failed = true ↔ ∃ e, r.result = .error e
  complete : r.after.stage = .complete ↔ r.command.depth = .full ∧ ∃ a, r.result = .ok a
  headerDecoded : r.command.depth = .headerOnly →
    ∀ a, r.result = .ok a → r.after.stage = .headerDecoded
  lt_headerDecoded : r.command.depth = .headerOnly →
    ∀ e, r.result = .error e → r.after.stage < .headerDecoded
  lt_complete : r.command.depth = .full →
    ∀ e, r.result = .error e → r.after.stage < .complete

/-- A new decoder reports the same, on any device that differs from the one of the run in its past
only. -/
def Fresh (r : Run) : Prop :=
  ∀ device : Device, r.found.Alike device →
    SameReport (r.result, r.after) (r.command.perform { device })

end Run

/-- The stage at which a run to this depth ends if nothing fails. -/
def Depth.goal : Depth → Stage
  | headerOnly => .headerDecoded
  | full => .complete

namespace Decoder

variable {α : Type}

theorem failed_run (d : Decoder) (p : Plan α) : (d.run p).2.failed = !(d.run p).1.isOk := by
  rcases ha : Source.attach d.device with ⟨e | source, device⟩
  · rw [run_of_attach_error ha]
    rfl
  · rw [run_of_attach_ok ha rfl]

theorem failed_decodeTo (d : Decoder) (depth : Depth) :
    (d.decodeTo depth).2.failed = true ↔ ∃ e, (d.decodeTo depth).1 = .error e := by
  have hmap : ∀ {β : Type} (p : Plan β) (f : β → Decoded),
      (d.run p).2.failed = true ↔ ∃ e, (d.run p).1.map f = .error e := by
    intro β p f
    rw [failed_run]
    cases (d.run p).1 with
    | ok a => simp [Except.isOk, Except.toBool, Except.map]
    | error e => simp [Except.isOk, Except.toBool, Except.map]
  cases depth with
  | headerOnly => exact hmap FileHeader.readStaged .headerOnly
  | full => exact hmap Image.read .full

theorem stage_of_decodeTo {d : Decoder} {depth : Depth} {a : Decoded}
    (h : (d.decodeTo depth).1 = .ok a) : (d.decodeTo depth).2.stage = depth.goal := by
  cases depth with
  | headerOnly =>
    obtain ⟨header, hheader, -⟩ := map_eq_ok_iff.1 h
    exact ((FileHeader.explained_decodeHeader d).ok header hheader).1
  | full =>
    obtain ⟨image, himage, -⟩ := map_eq_ok_iff.1 h
    exact ((Image.explained_decode d).ok image himage).1

theorem stage_lt_of_decodeTo {d : Decoder} {depth : Depth} {e : DecodeError}
    (h : (d.decodeTo depth).1 = .error e) : (d.decodeTo depth).2.stage < depth.goal := by
  cases depth with
  | headerOnly =>
    exact stage_lt_of_error (by decide) FileHeader.endsAt_readStaged (map_eq_error_iff.1 h)
  | full =>
    -- no cause can arise at the last stage
    have hkind := (Image.explained_decode d).kind e (map_eq_error_iff.1 h)
    show d.decode.2.stage < .complete
    cases hs : d.decode.2.stage with
    | complete =>
      rw [hs] at hkind
      exact absurd hkind List.not_mem_nil
    | _ => decide

end Decoder

namespace Run

theorem exact_of_goal {r : Run} (hfailed : r.after.failed = true ↔ ∃ e, r.result = .error e)
    (hok : ∀ a, r.result = .ok a → r.after.stage = r.command.depth.goal)
    (herror : ∀ e, r.result = .error e → r.after.stage < r.command.depth.goal) : r.Exact where
  failed := hfailed
  complete := by
    constructor
    · intro hcomplete
      cases hresult : r.result with
      | error e =>
        have hlt := herror e hresult
        rw [hcomplete] at hlt
        cases hdepth : r.command.depth with
        | headerOnly =>
          rw [hdepth] at hlt
          exact absurd hlt (by decide)
        | full =>
          rw [hdepth] at hlt
          exact absurd hlt (by decide)
      | ok a =>
        have hgoal := hok a hresult
        rw [hcomplete] at hgoal
        cases hdepth : r.command.depth with
        | headerOnly =>
          rw [hdepth] at hgoal
          cases hgoal
        | full => exact ⟨rfl, a, rfl⟩
    · rintro ⟨hdepth, a, ha⟩
      rw [hok a ha, hdepth]
      rfl
  headerDecoded := by
    intro hdepth a ha
    rw [hok a ha, hdepth]
    rfl
  lt_headerDecoded := by
    intro hdepth e he
    have hlt := herror e he
    rwa [hdepth] at hlt
  lt_complete := by
    intro hdepth e he
    have hlt := herror e he
    rwa [hdepth] at hlt

/-- What a decoder remembers of a run is exact, whatever it has been through. -/
theorem exact_of_perform (d : Decoder) (c : Command) :
    Exact ⟨c, d.device, (c.perform d).1, (c.perform d).2⟩ := by
  rw [c.perform_eq]
  refine exact_of_goal (d.failed_decodeTo c.depth) ?_ ?_
  · intro a ha
    exact Decoder.stage_of_decodeTo ha
  · intro e he
    exact Decoder.stage_lt_of_decodeTo he

/-- What a run comes to depends on the device as it is then. -/
theorem fresh_of_perform (d : Decoder) (c : Command) :
    Fresh ⟨c, d.device, (c.perform d).1, (c.perform d).2⟩ := by
  intro device halike
  show SameReport (c.perform d) (c.perform { device })
  rw [c.perform_eq, c.perform_eq]
  exact Decoder.decodeTo_of_alike halike c.depth

end Run

/-- Every run of a history is the run of some command on some decoder. -/
theorem Decoder.exists_of_mem_history {d : Decoder} {events : List Event} {r : Run}
    (h : r ∈ d.history events) :
    ∃ (e : Decoder) (c : Command), r = ⟨c, e.device, (c.perform e).1, (c.perform e).2⟩ := by
  induction events generalizing d with
  | nil => cases h
  | cons event events ih =>
    cases event with
    | command c =>
      rcases List.mem_cons.1 h with rfl | h
      · exact ⟨d, c, rfl⟩
      · exact ih h
    | change f => exact ih h

/-- **In every history, every run is exact and fresh**: what the decoder remembers afterwards is
what this run came to, and a new decoder would have reported the same. -/
theorem exact_and_fresh (d : Decoder) (events : List Event) :
    ∀ r ∈ d.history events, r.Exact ∧ r.Fresh := by
  intro r hr
  obtain ⟨e, c, rfl⟩ := Decoder.exists_of_mem_history hr
  exact ⟨Run.exact_of_perform e c, Run.fresh_of_perform e c⟩

/-- A device that is refused its third read call, and then is no longer: the first run fails
halfway through, the second one comes to its end. -/
theorem exact_and_fresh_sample :
    ∃ first second : Run,
      Decoder.history { device := { content := sampleFile, faults := { failRead := some 2 } } }
          [.command .decode, .change fun d => d.withFaults {}, .command (.decodeTo .full)] =
        [first, second] ∧
      (first.result = .error (.device .readRefused) ∧ first.Exact ∧ first.Fresh) ∧
      second.result = .ok (.full sampleImage) ∧ second.Exact ∧ second.Fresh := by
  have hall := exact_and_fresh
    { device := { content := sampleFile, faults := { failRead := some 2 } } }
    [.command .decode, .change fun d => d.withFaults {}, .command (.decodeTo .full)]
  have hresults : (Decoder.history
      { device := { content := sampleFile, faults := { failRead := some 2 } } }
      [.command .decode, .change fun d => d.withFaults {}, .command (.decodeTo .full)]).map
        Run.result = [.error (.device .readRefused), .ok (.full sampleImage)] := by
    decide +kernel
  obtain ⟨first, rest, hruns, hfirst, hrest⟩ := List.map_eq_cons_iff.1 hresults
  obtain ⟨second, others, rfl, hsecond, hothers⟩ := List.map_eq_cons_iff.1 hrest
  rw [List.map_eq_nil_iff.1 hothers] at hruns
  rw [hruns] at hall
  refine ⟨first, second, hruns, ⟨hfirst, hall first ?_⟩, hsecond, hall second ?_⟩
  · exact List.mem_cons_self
  · exact List.mem_cons_of_mem _ List.mem_cons_self

end ElfAnatomy
