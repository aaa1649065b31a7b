import ElfAnatomy.Proofs.Depths

/-!
# A call that is refused

A device may refuse one of its calls, and otherwise do what it is asked.  The run on it is compared
with the run that is not disturbed: they make the same calls up to the refused one, and with that
call the run is over.

* `Obstruction` : which call is refused.
* `Plan.journal`, `Decoder.journalTo` : the calls of a run, each with the stage that was completed
  when it was made.
* `Interruption` : what an obstruction does to a run.
* `Plan.interruption` : one plan, from any point of a run on.
* `interruption_decodeTo` : **a refused call is the last one**, and its failure is what the run
  reports; without such a call nothing changes.
-/

namespace ElfAnatomy

/-! ### Obstructions -/

/-- The call that a device refuses, by its number among the calls of its kind. -/
inductive Obstruction
  | read (number : Nat)
  /-- Measuring is a seek, too. -/
  | seek (number : Nat)
deriving DecidableEq, Repr

namespace Obstruction

/-- The faults of a device that refuses this call and does everything else. -/
def faults : Obstruction → Faults
  | read number => { failRead := some number }
  | seek number => { failSeek := some number }

/-- What the device reports. -/
def cause : Obstruction → DeviceError
  | read _ => .readRefused
  | seek _ => .seekRefused

def number : Obstruction → Nat
  | read number => number
  | seek number => number

/-- The call is of the kind that is counted. -/
def concerns : Obstruction → Call → Bool
  | read _, .read _ _ => true
  | read _, _ => false
  | seek _, .read _ _ => false
  | seek _, _ => true

/-- How many calls of this kind a device has counted. -/
def made : Obstruction → Device → Nat
  | read _, d => d.reads
  | seek _, d => d.seeks

end Obstruction

/-- How a device remembers a call that it refuses. -/
def Call.refused : Call → Call
  | measure _ => measure none
  | seek offset _ => seek offset false
  | read position wanted => read position wanted

/-! ### Journals -/

/-- A call, and the stage that the run had completed when it was made. -/
structure StagedCall where
  stage : Stage
  call : Call
deriving DecidableEq, Repr

/-- The calls that a device has got since it was `d`, in order. -/
def Device.callsSince (d after : Device) : List Call :=
  (after.calls.take (after.calls.length - d.calls.length)).reverse

/-- The calls of a run. -/
def Plan.journal {α : Type} : Plan α → Progress → List StagedCall
  | done _, _ => []
  | askLength next, now => (next now.source.length).journal now
  | fetch region next, now =>
    match now.source.fetch region with
    | (.error _, source) =>
      (now.source.device.callsSince source.device).map fun call => ⟨now.stage, call⟩
    | (.ok bytes, source) =>
      ((now.source.device.callsSince source.device).map fun call => ⟨now.stage, call⟩) ++
        (next bytes).journal { now with source }
  | reach stage next, now => next.journal { now with stage }

namespace Decoder

/-- The calls of a run, that which measures the device included. -/
def journal {α : Type} (d : Decoder) (p : Plan α) : List StagedCall :=
  match Source.attach d.device with
  | (.error _, device) => (d.device.callsSince device).map fun call => ⟨.unopened, call⟩
  | (.ok source, _) =>
    ((d.device.callsSince source.device).map fun call => ⟨.unopened, call⟩) ++
      p.journal ⟨source, .unopened⟩

/-- The calls of a run to a depth. -/
def journalTo (d : Decoder) : Depth → List StagedCall
  | .headerOnly => d.journal FileHeader.readStaged
  | .full => d.journal Image.read

end Decoder

/-! ### What an obstruction does -/

/-- What a run comes to: its result, the stage, whether it failed, and all calls in order. -/
structure Conclusion (α : Type) where
  result : Except DecodeError α
  stage : Stage
  failed : Bool
  calls : List Call

namespace Conclusion

variable {α β : Type}

/-- What the run of a decoder comes to. -/
def ofRun (x : Except DecodeError α × Decoder) : Conclusion α :=
  ⟨x.1, x.2.stage, x.2.failed, x.2.device.calls.reverse⟩

/-- What the run of a plan comes to, as a decoder would report it. -/
def ofPlan (x : Except DecodeError α × Progress) : Conclusion α :=
  ⟨x.1, x.2.stage, !x.1.isOk, x.2.source.device.calls.reverse⟩

end Conclusion

/-- A run that is not disturbed makes the calls of the journal and comes to `free`.  The same run
with an obstruction comes to `faulty`. -/
inductive Interruption {α : Type} (r : Obstruction) (journal : List StagedCall)
    (free faulty : Conclusion α) : Prop
  /-- There is no such call. -/
  | unharmed (hfew : journal.countP (fun c => r.concerns c.call) ≤ r.number)
      (hsame : faulty = free)
  /-- The call `c` is refused, and the run is over. -/
  | stopped (before : List StagedCall) (c : StagedCall) (after : List StagedCall)
      (hjournal : journal = before ++ c :: after) (hc : r.concerns c.call = true)
      (hnumber : before.countP (fun c => r.concerns c.call) = r.number)
      (hresult : faulty.result = .error (.device r.cause)) (hfailed : faulty.failed = true)
      (hstage : faulty.stage = c.stage)
      (hcalls : faulty.calls = before.map StagedCall.call ++ [c.call.refused])

/-- The device `d` was to get these calls, and has refused one of them as the last one. -/
inductive Obstruction.StopsIn (r : Obstruction) (d : Device) (calls : List Call)
    (after : Device) : Prop
  | intro (before : List Call) (c : Call) (rest : List Call) (hcalls : calls = before ++ c :: rest)
      (hc : r.concerns c = true) (hnumber : r.made d + before.countP r.concerns = r.number)
      (hafter : after.calls.reverse = d.calls.reverse ++ before ++ [c.refused])

/-! ### Devices -/

namespace Device

variable {d : Device} {offset : UInt64} {wanted : Nat}

/-- The same device, but it refuses a call. -/
def obstructed (d : Device) (r : Obstruction) : Device := { d with faults := r.faults }

/-- The device after it has been sent to an offset and has delivered as many bytes. -/
def served (d : Device) (offset : UInt64) (wanted : Nat) : Device :=
  { d with
    position := offset.toNat + wanted, reads := d.reads + 1, seeks := d.seeks + 1,
    calls := .read offset.toNat wanted :: .seek offset true :: d.calls }

theorem callsSince_of_append {after : Device} {new : List Call}
    (h : after.calls = new.reverse ++ d.calls) : d.callsSince after = new := by
  rw [callsSince, h, List.length_append, Nat.add_sub_cancel, List.take_left, List.reverse_reverse]

/-- A device that delivers in one piece and refuses neither of the next two calls. -/
theorem readAt_of_accepted (hchunk : d.faults.chunk = none)
    (hseek : d.faults.failSeek ≠ some d.seeks) (hread : d.faults.failRead ≠ some d.reads)
    (hpos : 0 < wanted) (hin : offset.toNat + wanted ≤ d.content.length) :
    d.readAt offset wanted =
      (.ok ((d.content.drop offset.toNat).take wanted), d.served offset wanted) := by
  rw [readAt, seek, if_neg hseek]
  refine fill_of_unchunked (d := { d with
    position := offset.toNat, seeks := d.seeks + 1, calls := .seek offset true :: d.calls })
    hchunk hread hpos ?_
  rw [ahead, List.length_drop]
  show wanted ≤ d.content.length - offset.toNat
  omega

theorem readAt_of_seek_refused (hseek : d.faults.failSeek = some d.seeks) :
    d.readAt offset wanted =
      (.error .seekRefused,
        { d with seeks := d.seeks + 1, calls := .seek offset false :: d.calls }) := by
  rw [readAt, seek, if_pos hseek]

theorem readAt_of_read_refused (hseek : d.faults.failSeek ≠ some d.seeks)
    (hread : d.faults.failRead = some d.reads) (hpos : 0 < wanted) :
    d.readAt offset wanted =
      (.error .readRefused,
        { d with
          position := offset.toNat, reads := d.reads + 1, seeks := d.seeks + 1,
          calls := .read offset.toNat wanted :: .seek offset true :: d.calls }) := by
  rw [readAt, seek, if_neg hseek]
  dsimp only
  rw [fill_eq, if_neg (by omega), read, deliver, if_pos hread]

/-- Reading a region takes a seek and a read call.  Either both are accepted, or the refused call is
one of them. -/
theorem readAt_obstructed (r : Obstruction) (hle : r.made d ≤ r.number) (hpos : 0 < wanted)
    (hin : offset.toNat + wanted ≤ d.content.length) :
    (r.made d < r.number ∧
      (d.obstructed r).readAt offset wanted =
        (.ok ((d.content.drop offset.toNat).take wanted),
          (d.served offset wanted).obstructed r)) ∨
    ∃ after, (d.obstructed r).readAt offset wanted = (.error r.cause, after) ∧
      r.StopsIn d [.seek offset true, .read offset.toNat wanted] after := by
  cases r with
  | read number =>
    rcases Nat.lt_or_eq_of_le hle with hlt | heq
    · refine .inl ⟨hlt, ?_⟩
      have hne : number ≠ d.reads := Nat.ne_of_gt hlt
      exact readAt_of_accepted (d := d.obstructed (.read number)) rfl nofun
        (fun h => hne (Option.some.inj h)) hpos hin
    · have hrefused : (d.obstructed (.read number)).faults.failRead = some d.reads :=
        congrArg some heq.symm
      refine .inr ⟨_, readAt_of_read_refused nofun hrefused hpos, ?_⟩
      refine .intro [.seek offset true] (.read offset.toNat wanted) [] rfl rfl heq ?_
      simp [obstructed, Call.refused]
  | seek number =>
    rcases Nat.lt_or_eq_of_le hle with hlt | heq
    · refine .inl ⟨hlt, ?_⟩
      have hne : number ≠ d.seeks := Nat.ne_of_gt hlt
      exact readAt_of_accepted (d := d.obstructed (.seek number)) rfl
        (fun h => hne (Option.some.inj h)) nofun hpos hin
    · have hrefused : (d.obstructed (.seek number)).faults.failSeek = some d.seeks :=
        congrArg some heq.symm
      refine .inr ⟨_, readAt_of_seek_refused hrefused, ?_⟩
      refine .intro [] (.seek offset true) [.read offset.toNat wanted] rfl rfl heq ?_
      simp [obstructed, Call.refused]

end Device

/-! ### Regions -/

namespace Source

/-- The same source, but its device refuses a call. -/
def obstructed (s : Source) (r : Obstruction) : Source :=
  { s with device := s.device.obstructed r }

/-- A region that does not lie in the source, or has no bytes, is answered without a call. -/
theorem fetch_of_idle {s : Source} {region : Region}
    (h : s.length < region.stop ∨ region.size = 0) :
    ∃ answer, ∀ device : Device,
      ({ s with device } : Source).fetch region = (answer, { s with device }) := by
  rcases Nat.lt_or_ge s.length region.stop with hlt | hle
  · refine ⟨.error (.truncatedTable region.offset region.size s.length), ?_⟩
    intro device
    rw [fetch, (Region.check_eq_error_iff.2 ⟨hlt, rfl⟩ :
      region.check s.length = .error (.truncatedTable region.offset region.size s.length))]
  · refine ⟨.ok [], ?_⟩
    intro device
    rw [fetch, (Region.check_eq_ok_iff.2 hle : region.check s.length = .ok ())]
    exact if_pos (h.resolve_left (Nat.not_lt.2 hle))

/-- Any other region is read from the device. -/
theorem fetch_of_busy {s : Source} {region : Region} (hle : region.stop ≤ s.length)
    (hsize : region.size ≠ 0) :
    s.fetch region =
      match s.device.readAt region.offset region.size.toNat with
      | (.error cause, device) => (.error (.device cause), { s with device })
      | (.ok bytes, device) => (.ok bytes, { s with device }) := by
  rw [fetch, (Region.check_eq_ok_iff.2 hle : region.check s.length = .ok ())]
  exact if_neg hsize

/-- The source after a region has been read. -/
def served (s : Source) (region : Region) : Source :=
  { s with device := s.device.served region.offset region.size.toNat }

/-- The calls that a region takes. -/
def callsFor (region : Region) : List Call :=
  [.seek region.offset true, .read region.offset.toNat region.size.toNat]

section

variable {s : Source} {data : Bytes} {region : Region}

theorem stop_le_content (hplain : s.Plain data) (hle : region.stop ≤ s.length) :
    region.offset.toNat + region.size.toNat ≤ s.device.content.length := by
  rw [hplain.content, ← hplain.length]
  exact hle

theorem fetch_served (hplain : s.Plain data) (hle : region.stop ≤ s.length)
    (hsize : region.size ≠ 0) :
    s.fetch region =
      (.ok ((s.device.content.drop region.offset.toNat).take region.size.toNat),
        s.served region) := by
  have hpos : 0 < region.size.toNat := Nat.pos_of_ne_zero fun h0 => hsize (UInt64.toNat.inj h0)
  rw [fetch_of_busy hle hsize, Device.readAt_of_accepted (by rw [hplain.faults])
    (by simp [hplain.faults]) (by simp [hplain.faults]) hpos (stop_le_content hplain hle)]
  rfl

theorem fetch_obstructed (hplain : s.Plain data) (hle : region.stop ≤ s.length)
    (hsize : region.size ≠ 0) (r : Obstruction) (hmade : r.made s.device ≤ r.number) :
    (r.made s.device < r.number ∧
      (s.obstructed r).fetch region =
        (.ok ((s.device.content.drop region.offset.toNat).take region.size.toNat),
          (s.served region).obstructed r)) ∨
    ∃ after, (s.obstructed r).fetch region = (.error (.device r.cause), after) ∧
      r.StopsIn s.device (callsFor region) after.device := by
  have hpos : 0 < region.size.toNat := Nat.pos_of_ne_zero fun h0 => hsize (UInt64.toNat.inj h0)
  have hfaulty := fetch_of_busy (s := s.obstructed r) hle hsize
  rw [obstructed] at hfaulty
  rcases Device.readAt_obstructed r hmade hpos (stop_le_content hplain hle) with
    ⟨hlt, hread⟩ | ⟨after, hread, hstop⟩
  · rw [hread] at hfaulty
    exact .inl ⟨hlt, hfaulty⟩
  · rw [hread] at hfaulty
    exact .inr ⟨_, hfaulty, hstop⟩

end

end Source

/-! ### Runs -/

/-- The same point of a run, but the device refuses a call. -/
def Progress.obstructed (now : Progress) (r : Obstruction) : Progress :=
  { now with source := now.source.obstructed r }

/-- The journal up to some point of a run: the device remembers its calls, has counted those that
the obstruction is about, and has not come to the refused one. -/
structure Obstruction.Past (r : Obstruction) (past : List StagedCall) (d : Device) : Prop where
  calls : past.map StagedCall.call = d.calls.reverse
  made : past.countP (fun c => r.concerns c.call) = r.made d
  le : r.made d ≤ r.number

namespace Obstruction.Past

variable {α : Type} {r : Obstruction} {past : List StagedCall} {d after : Device}
  {calls : List Call}

/-- After more calls, none of which was refused. -/
theorem append (h : r.Past past d) (stage : Stage)
    (hafter : after.calls.reverse = d.calls.reverse ++ calls)
    (hmade : r.made after = r.made d + calls.countP r.concerns) (hle : r.made after ≤ r.number) :
    r.Past (past ++ calls.map fun call => ⟨stage, call⟩) after where
  calls := by
    rw [List.map_append, h.calls, hafter, List.map_map]
    exact congrArg _ (List.map_id calls)
  made := by
    rw [List.countP_append, h.made, List.countP_map, hmade]
    rfl
  le := hle

/-- After a call that was refused. -/
theorem stopped (h : r.Past past d) (hstop : r.StopsIn d calls after) (stage : Stage)
    (later : List StagedCall) (free : Conclusion α) :
    Interruption r (past ++ (calls.map (fun call => ⟨stage, call⟩) ++ later)) free
      ⟨.error (.device r.cause), stage, true, after.calls.reverse⟩ := by
  obtain ⟨before, c, rest, rfl, hc, hnumber, hafter⟩ := hstop
  refine .stopped (past ++ before.map fun call => ⟨stage, call⟩) ⟨stage, c⟩
    ((rest.map fun call => ⟨stage, call⟩) ++ later) ?_ hc ?_ rfl rfl rfl ?_
  · simp
  · rw [List.countP_append, h.made, List.countP_map]
    exact hnumber
  · simp [hafter, h.calls, Function.comp_def]

end Obstruction.Past

namespace Plan

variable {α : Type} {region : Region} {next : Bytes → Plan α} {now : Progress} {source : Source}
  {bytes : Bytes} {e : DecodeError} {new : List Call}

theorem run_fetch_of_ok (h : now.source.fetch region = (.ok bytes, source)) :
    (fetch region next).run now = (next bytes).run { now with source } := by
  rw [run, h]

theorem run_fetch_of_error (h : now.source.fetch region = (.error e, source)) :
    (fetch region next).run now = (.error e, { now with source }) := by
  rw [run, h]

theorem journal_fetch_of_ok (h : now.source.fetch region = (.ok bytes, source))
    (hnew : source.device.calls = new.reverse ++ now.source.device.calls) :
    (fetch region next).journal now =
      new.map (fun call => ⟨now.stage, call⟩) ++ (next bytes).journal { now with source } := by
  rw [journal, h]
  show (now.source.device.callsSince source.device).map _ ++ _ = _
  rw [Device.callsSince_of_append hnew]

theorem journal_fetch_of_error (h : now.source.fetch region = (.error e, source))
    (hnew : source.device.calls = new.reverse ++ now.source.device.calls) :
    (fetch region next).journal now = new.map fun call => ⟨now.stage, call⟩ := by
  rw [journal, h]
  show (now.source.device.callsSince source.device).map _ = _
  rw [Device.callsSince_of_append hnew]

variable {data : Bytes} {r : Obstruction}

/-- **From any point of a run on**, an obstruction either concerns no call of the journal, or the
run is over with the call that it concerns. -/
theorem interruption (p : Plan α) (now : Progress) (hplain : now.source.Plain data)
    (past : List StagedCall) (hpast : r.Past past now.source.device) :
    Interruption r (past ++ p.journal now) (.ofPlan (p.run now))
      (.ofPlan (p.run (now.obstructed r))) := by
  -- on the plan: until the refused call is made, both runs get the same answers
  induction p generalizing now past with
  | done result =>
    refine .unharmed ?_ rfl
    rw [journal, List.append_nil, hpast.made]
    exact hpast.le
  | askLength next ih => exact ih _ now hplain past hpast
  | reach stage next ih => exact ih { now with stage } hplain past hpast
  | fetch region next ih =>
    by_cases hidle : now.source.length < region.stop ∨ region.size = 0
    · obtain ⟨answer, hanswer⟩ := Source.fetch_of_idle hidle
      have hfree : now.source.fetch region = (answer, now.source) := hanswer now.source.device
      have hnone : now.source.device.calls =
        ([] : List Call).reverse ++ now.source.device.calls := rfl
      have hfaulty : (now.obstructed r).source.fetch region =
        (answer, (now.obstructed r).source) := hanswer (now.source.device.obstructed r)
      cases answer with
      | error e =>
        rw [journal_fetch_of_error hfree hnone, run_fetch_of_error hfree,
          run_fetch_of_error hfaulty]
        refine .unharmed ?_ rfl
        rw [List.map_nil, List.append_nil, hpast.made]
        exact hpast.le
      | ok bytes =>
        rw [journal_fetch_of_ok hfree hnone, run_fetch_of_ok hfree,
          run_fetch_of_ok hfaulty]
        exact ih bytes now hplain past hpast
    · obtain ⟨hin, hsize⟩ := not_or.1 hidle
      have hfree := Source.fetch_served hplain (Nat.not_lt.1 hin) hsize
      have hfaulty := Source.fetch_obstructed hplain (Nat.not_lt.1 hin) hsize r hpast.le
      have hnew : (now.source.served region).device.calls =
          (Source.callsFor region).reverse ++ now.source.device.calls := rfl
      rw [journal_fetch_of_ok hfree hnew, run_fetch_of_ok hfree]
      rcases hfaulty with ⟨hlt, hfaulty⟩ | ⟨after, hfaulty, hstop⟩
      · rw [run_fetch_of_ok hfaulty, ← List.append_assoc]
        refine ih _ { now with source := now.source.served region }
          ⟨hplain.content, hplain.faults, hplain.length⟩ _ (hpast.append now.stage ?_ ?_ ?_)
        · simp [Source.served, Device.served, Source.callsFor]
        · cases r with
          | read number => rfl
          | seek number => rfl
        · cases r with
          | read number => exact hlt
          | seek number => exact hlt
      · rw [run_fetch_of_error hfaulty]
        exact hpast.stopped hstop now.stage _ _

/-- The calls of an undisturbed run are those of its journal. -/
theorem calls_of_journal (p : Plan α) (now : Progress) (hplain : now.source.Plain data) :
    (p.run now).2.source.device.calls.reverse =
      now.source.device.calls.reverse ++ (p.journal now).map StagedCall.call := by
  induction p generalizing now with
  | done result => exact (List.append_nil _).symm
  | askLength next ih => exact ih _ now hplain
  | reach stage next ih => exact ih { now with stage } hplain
  | fetch region next ih =>
    by_cases hidle : now.source.length < region.stop ∨ region.size = 0
    · obtain ⟨answer, hanswer⟩ := Source.fetch_of_idle hidle
      have hfetch : now.source.fetch region = (answer, now.source) := hanswer now.source.device
      have hnone : now.source.device.calls =
        ([] : List Call).reverse ++ now.source.device.calls := rfl
      cases answer with
      | error e =>
        rw [journal_fetch_of_error hfetch hnone, run_fetch_of_error hfetch]
        exact (List.append_nil _).symm
      | ok bytes =>
        rw [journal_fetch_of_ok hfetch hnone, run_fetch_of_ok hfetch]
        exact ih bytes now hplain
    · obtain ⟨hin, hsize⟩ := not_or.1 hidle
      have hfetch := Source.fetch_served hplain (Nat.not_lt.1 hin) hsize
      have hnew : (now.source.served region).device.calls =
          (Source.callsFor region).reverse ++ now.source.device.calls := rfl
      rw [journal_fetch_of_ok hfetch hnew, run_fetch_of_ok hfetch]
      refine (ih _ { now with source := now.source.served region }
        ⟨hplain.content, hplain.faults, hplain.length⟩).trans ?_
      rw [hnew]
      simp [Function.comp_def]

end Plan

/-! ### Decoders -/

/-- The source of a file that has just been measured. -/
def Source.measured (data : Bytes) : Source where
  device := {
    content := data, position := data.length, seeks := 1,
    calls := [.measure (some data.length)] }
  length := data.length

theorem Source.attach_measured (data : Bytes) :
    attach (.ofBytes data) = (.ok (measured data), (measured data).device) := rfl

theorem Source.plain_measured (data : Bytes) : (measured data).Plain data := ⟨rfl, rfl, rfl⟩

/-- Measuring is the first call.  Either it is accepted, or it is the refused one. -/
theorem Source.attach_obstructed (data : Bytes) (r : Obstruction) :
    (∃ device, attach { content := data, faults := r.faults } =
        (.ok ((measured data).obstructed r), device) ∧
      r.made (measured data).device ≤ r.number) ∨
    ∃ after, attach { content := data, faults := r.faults } = (.error (.device r.cause), after) ∧
      r.StopsIn (.ofBytes data) [.measure (some data.length)] after := by
  cases r with
  | read number => exact .inl ⟨_, rfl, Nat.zero_le _⟩
  | seek number =>
    cases number with
    | zero => exact .inr ⟨_, rfl, .intro [] _ [] rfl rfl rfl rfl⟩
    | succ number => exact .inl ⟨_, rfl, Nat.succ_le_succ (Nat.zero_le _)⟩

namespace Decoder

variable {α : Type}

theorem journal_ofBytes (data : Bytes) (p : Plan α) :
    Decoder.journal { device := .ofBytes data } p =
      [Call.measure (some data.length)].map (fun call => ⟨.unopened, call⟩) ++
        p.journal ⟨.measured data, .unopened⟩ := rfl

/-- A run from its first call on, on a device that has not got any call before. -/
theorem interruption_run (data : Bytes) (p : Plan α) (r : Obstruction) :
    Interruption r (Decoder.journal { device := .ofBytes data } p)
      (.ofRun (Decoder.run p { device := .ofBytes data }))
      (.ofRun (Decoder.run p { device := { content := data, faults := r.faults } })) := by
  have hpast : r.Past [] (.ofBytes data) := by
    cases r with
    | read number => exact ⟨rfl, rfl, Nat.zero_le _⟩
    | seek number => exact ⟨rfl, rfl, Nat.zero_le _⟩
  rw [journal_ofBytes, run_of_attach_ok (Source.attach_measured data) rfl]
  rcases Source.attach_obstructed data r with ⟨device, hattach, hle⟩ | ⟨after, hattach, hstop⟩
  · rw [run_of_attach_ok (d := { device := { content := data, faults := r.faults } }) hattach rfl]
    refine p.interruption ⟨.measured data, .unopened⟩ (Source.plain_measured data) _
      (hpast.append .unopened rfl ?_ hle)
    cases r with
    | read number => rfl
    | seek number => rfl
  · rw [run_of_attach_error (d := { device := { content := data, faults := r.faults } }) hattach]
    exact hpast.stopped hstop .unopened _ _

theorem calls_run (data : Bytes) (p : Plan α) :
    (Decoder.journal { device := .ofBytes data } p).map StagedCall.call =
      (Decoder.run p { device := .ofBytes data }).2.device.calls.reverse := by
  rw [journal_ofBytes, run_of_attach_ok (Source.attach_measured data) rfl]
  exact (p.calls_of_journal ⟨.measured data, .unopened⟩ (Source.plain_measured data)).symm

end Decoder

/-- What is made of the result plays no part. -/
theorem Interruption.map {α β : Type} {r : Obstruction} {journal : List StagedCall}
    {x y : Except DecodeError α × Decoder} (h : Interruption r journal (.ofRun x) (.ofRun y))
    (f : α → β) : Interruption r journal (.ofRun (x.1.map f, x.2)) (.ofRun (y.1.map f, y.2)) := by
  cases h with
  | unharmed hfew hsame =>
    refine .unharmed hfew ?_
    obtain ⟨hresult, hstage, hfailed, hcalls⟩ := Conclusion.mk.inj hsame
    rw [Conclusion.ofRun, hresult, hstage, hfailed, hcalls]
    rfl
  | stopped before c after hjournal hc hnumber hresult hfailed hstage hcalls =>
    exact .stopped before c after hjournal hc hnumber (map_eq_error_iff.2 hresult) hfailed hstage
      hcalls

/-- **No refused call is passed over, and none is made again.**  For every file, either depth and
every obstruction: either the undisturbed run makes no such call, and the disturbed one comes to the
same; or the disturbed run makes the same calls up to that one and no other, reports its failure,
and stops at the stage that the undisturbed run had completed by then. -/
theorem interruption_decodeTo (data : Bytes) (depth : Depth) (r : Obstruction) :
    (Decoder.journalTo { device := .ofBytes data } depth).map StagedCall.call =
        (Decoder.decodeTo { device := .ofBytes data } depth).2.device.calls.reverse ∧
      Interruption r (Decoder.journalTo { device := .ofBytes data } depth)
        (.ofRun (Decoder.decodeTo { device := .ofBytes data } depth))
        (.ofRun (Decoder.decodeTo { device := { content := data, faults := r.faults } } depth)) := by
  cases depth with
  | headerOnly =>
    exact ⟨Decoder.calls_run data FileHeader.readStaged,
      (Decoder.interruption_run data FileHeader.readStaged r).map Decoded.headerOnly⟩
  | full =>
    exact ⟨Decoder.calls_run data Image.read,
      (Decoder.interruption_run data Image.read r).map Decoded.full⟩

/-- A file that consists of a signature is measured and read once. -/
example : Decoder.journalTo { device := .ofBytes signature } .full =
    [⟨.unopened, .measure (some 4)⟩, ⟨.unopened, .seek 0 true⟩, ⟨.unopened, .read 0 4⟩] := by
  decide +kernel

end ElfAnatomy
