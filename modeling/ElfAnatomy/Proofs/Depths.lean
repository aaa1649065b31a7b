import ElfAnatomy.Proofs.Domains
import ElfAnatomy.Proofs.Fidelity

/-!
# The two depths of decoding

Decoding the header and decoding everything start alike, so one can be told from the other, on
every device and whatever goes wrong.  Stages are notes only: the header that is taken apart at
once is the one that is read stage by stage.

* `Plan.unstaged`, `Plan.run_unstaged` : a plan without its notes has the same result and makes
  the same calls.
* `Plan.EndsAt`, `Plan.run_of_endsAt` : what holds of every end of a plan, given its stage.
* `FileHeader.unstaged_readStaged` : the two plans that read a header differ in their notes only.
* `Decoder.run_bind_of_error`, `Decoder.exists_of_run_bind_ok` : a run of one plan after another.
* `depths_agree` : what the two depths have to do with each other.
-/

namespace ElfAnatomy

/-! ### Notes of stages -/

namespace Plan

variable {α β : Type}

/-- The plan without its notes of completed stages. -/
def unstaged : Plan α → Plan α
  | done result => done result
  | askLength next => askLength fun n => (next n).unstaged
  | fetch region next => fetch region fun bytes => (next bytes).unstaged
  | reach _ next => next.unstaged

@[simp] theorem unstaged_done (result : Except DecodeError α) :
    (done result).unstaged = done result := rfl

@[simp] theorem unstaged_length : length.unstaged = length := rfl

@[simp] theorem unstaged_leading (max : Nat) : (leading max).unstaged = leading max := rfl

@[simp] theorem unstaged_reached (stage : Stage) : (reached stage).unstaged = done (.ok ()) := rfl

@[simp] theorem unstaged_bind (p : Plan α) (f : α → Plan β) :
    (p.bind f).unstaged = p.unstaged.bind fun a => (f a).unstaged := by
  induction p with
  | done result => cases result <;> rfl
  | askLength next ih => exact congrArg askLength (funext ih)
  | fetch region next ih => exact congrArg (fetch region) (funext ih)
  | reach stage next ih => exact ih

/-- Steps that may fail are plans without questions. -/
theorem done_bind (x : Except DecodeError α) (f : α → Except DecodeError β) :
    done (x >>= f) = (done x).bind fun a => done (f a) := by
  cases x <;> rfl

/-- Without its notes, a run gives the same result and leaves the same source. -/
theorem run_unstaged (p : Plan α) (now : Progress) (stage : Stage) :
    (p.unstaged.run { now with stage }).1 = (p.run now).1 ∧
      (p.unstaged.run { now with stage }).2.source = (p.run now).2.source := by
  -- on the plan: the stage of the run without notes never changes, and nothing depends on it
  induction p generalizing now with
  | done result => exact ⟨rfl, rfl⟩
  | askLength next ih => exact ih _ now
  | fetch region next ih =>
    simp only [unstaged, run]
    split
    · exact ⟨rfl, rfl⟩
    · rename_i bytes source _
      exact ih bytes { now with source }
  | reach reached next ih => exact ih { now with stage := reached }

/-! ### Ends of a plan, stage by stage -/

/-- Every end of the plan satisfies `P`, given the stage at which it comes, whatever the answers
to its questions are; a region may also fail to come. -/
def EndsAt (P : Stage → Except DecodeError α → Prop) : Stage → Plan α → Prop
  | s, done result => P s result
  | s, askLength next => ∀ n, EndsAt P s (next n)
  | s, fetch _ next => (∀ e, P s (.error e)) ∧ ∀ bytes, EndsAt P s (next bytes)
  | _, reach s next => EndsAt P s next

variable {P : Stage → Except DecodeError α → Prop} {p : Plan α} {s : Stage}

/-- A run ends as its plan does. -/
theorem run_of_endsAt (now : Progress) (h : EndsAt P now.stage p) :
    P (p.run now).2.stage (p.run now).1 := by
  induction p generalizing now with
  | done result => exact h
  | askLength next ih => exact ih _ now (h _)
  | fetch region next ih =>
    unfold run
    split
    · exact h.1 _
    · exact ih _ _ (h.2 _)
  | reach stage next ih => exact ih { now with stage } h

/-- The ends of two plans, one after the other, are those of the second one, which starts at the
stage where the first one ends, and the failures of the first one. -/
theorem EndsAt.bind {f : α → Plan β} {Q : Stage → Except DecodeError β → Prop}
    (h : EndsAt P s p) (hok : ∀ t a, P t (.ok a) → EndsAt Q t (f a))
    (herror : ∀ t e, P t (.error e) → Q t (.error e)) : EndsAt Q s (p.bind f) := by
  induction p generalizing s with
  | done result =>
    cases result with
    | ok a => exact hok s a h
    | error e => exact herror s e h
  | askLength next ih => exact fun n => ih n (h n)
  | fetch region next ih =>
    exact ⟨fun e => herror s e (h.1 e), fun bytes => ih bytes (h.2 bytes)⟩
  | reach stage next ih => exact ih h

/-- A run that fails has not come to the stage `bound`. -/
def FailsBelow (bound s : Stage) (result : Except DecodeError α) : Prop :=
  ∀ e, result = .error e → s < bound

/-- A plan that ends at a stage below the bound may come first. -/
theorem failsBelow_bind {bound t : Stage} {f : α → Plan β}
    (h : EndsAt (fun stage _ => stage = t) s p) (ht : t < bound)
    (hf : ∀ a, EndsAt (FailsBelow bound) t (f a)) : EndsAt (FailsBelow bound) s (p.bind f) := by
  refine h.bind (fun t' a ht' => ?_) fun t' e ht' _ _ => ?_
  · rw [ht']
    exact hf a
  · rw [ht']
    exact ht

theorem endsAt_leading (max : Nat) : EndsAt (fun stage _ => stage = s) s (leading max) :=
  fun _ => ⟨fun _ => rfl, fun _ => rfl⟩

end Plan

/-! ### The header -/

namespace FileHeader

/-- Looking at the signature beforehand changes nothing. -/
theorem parse_eq (bs : Bytes) :
    parse bs = (do checkSignature bs; (← FileClass.ofStart bs).require64; parseFields bs) := by
  unfold parse FileClass.ofStart
  cases checkSignature bs <;> rfl

/-- **The two plans that read a header differ in their notes only**, although one of them looks at
the signature twice. -/
theorem unstaged_readStaged : readStaged.unstaged = read := by
  have hok : ∀ {β : Type} (f : Unit → Plan β), (Plan.done (.ok ())).bind f = f () := fun _ => rfl
  simp only [readStaged, read, parse_eq, Plan.done_bind, Plan.bind_assoc, Plan.bind_eq, Plan.lift_eq,
    Plan.pure_eq, Plan.unstaged_bind, Plan.unstaged_done, Plan.unstaged_length,
    Plan.unstaged_leading, Plan.unstaged_reached, hok]

/-- A header that cannot be read has not been decoded. -/
theorem endsAt_readStaged :
    Plan.EndsAt (Plan.FailsBelow .headerDecoded) .unopened readStaged := by
  refine Plan.failsBelow_bind (Plan.endsAt_leading _) (by decide) fun start => ?_
  refine Plan.failsBelow_bind (t := .unopened) rfl (by decide) fun _ => ?_
  refine Plan.failsBelow_bind (t := .magicChecked) rfl (by decide) fun _ => ?_
  refine Plan.failsBelow_bind (t := .magicChecked) rfl (by decide) fun _ => ?_
  refine Plan.failsBelow_bind (t := .magicChecked) rfl (by decide) fun _ => ?_
  refine Plan.failsBelow_bind (t := .classChecked) rfl (by decide) fun _ => ?_
  refine Plan.failsBelow_bind (t := .classChecked) rfl (by decide) fun header => ?_
  refine Plan.failsBelow_bind (t := .classChecked) (fun _ => rfl) (by decide) fun _ => ?_
  refine Plan.failsBelow_bind (t := .classChecked) rfl (by decide) fun _ => ?_
  exact nofun

/-- The header of a device, which is measured and then taken apart at once. -/
def ofDevice (d : Device) : Except DecodeError FileHeader :=
  match Source.attach d with
  | (.error e, _) => .error e
  | (.ok source, _) => (read.perform source).1

end FileHeader

/-! ### Everything after the header -/

/-- Decoding everything goes on where decoding the header ends, and the image shows that header. -/
theorem Image.exists_read_eq_bind :
    ∃ rest : FileHeader → Plan Image, read = FileHeader.readStaged.bind rest ∧
      ∀ h, (rest h).Ends fun result => ∀ image, result = .ok image → image.header = h := by
  refine ⟨_, rfl, fun h => ?_⟩
  refine Plan.ends_bind_of_forall fun table => Plan.ends_bind_of_forall fun segments =>
    Plan.ends_bind_of_forall fun length => Plan.ends_bind_of_forall fun _ =>
    Plan.ends_bind_of_forall fun _ => Plan.ends_bind_of_forall fun names =>
    Plan.ends_bind_of_forall fun _ => Plan.ends_bind_of_forall fun interpreter =>
    Plan.ends_bind_of_forall fun linkage => Plan.ends_bind_of_forall fun _ => ?_
  rintro _ ⟨⟩
  rfl

/-! ### Runs -/

namespace Decoder

variable {α β : Type} {p : Plan α} {f : α → Plan β} {d : Decoder}

theorem run_of_attach_error {e : DecodeError} {device : Device}
    (ha : Source.attach d.device = (.error e, device)) :
    d.run p = (.error e, ⟨device, .unopened, true⟩) := by
  rw [run, ha]

/-- A run on a device that has been measured is a run of the plan from the first stage. -/
theorem run_of_attach_ok {source : Source} {device : Device} {result : Except DecodeError α}
    {now : Progress} (ha : Source.attach d.device = (.ok source, device))
    (hrun : p.run ⟨source, .unopened⟩ = (result, now)) :
    d.run p = (result, ⟨now.source.device, now.stage, !result.isOk⟩) := by
  rw [run, ha]
  simp only [hrun]
  cases result <;> rfl

/-- A run that fails in the first of two plans never comes to the second one. -/
theorem run_bind_of_error {e : DecodeError} (h : (d.run p).1 = .error e) :
    d.run (p.bind f) = (.error e, (d.run p).2) := by
  rcases ha : Source.attach d.device with ⟨e' | source, device⟩
  · rw [run_of_attach_error ha] at h ⊢
    rw [run_of_attach_error ha]
    cases h
    rfl
  · rcases hrun : p.run ⟨source, .unopened⟩ with ⟨result, now⟩
    rw [run_of_attach_ok ha hrun] at h ⊢
    cases h
    exact run_of_attach_ok ha (by rw [Plan.run_bind, hrun])

/-- A run that succeeds with two plans has succeeded with the first one. -/
theorem exists_of_run_bind_ok {b : β} (h : (d.run (p.bind f)).1 = .ok b) :
    ∃ a now, (d.run p).1 = .ok a ∧ ((f a).run now).1 = .ok b := by
  cases hp : (d.run p).1 with
  | error e =>
    rw [run_bind_of_error hp] at h
    cases h
  | ok a =>
    rcases ha : Source.attach d.device with ⟨e | source, device⟩
    · rw [run_of_attach_error ha] at h
      cases h
    · rcases hrun : p.run ⟨source, .unopened⟩ with ⟨result, now⟩
      rw [run_of_attach_ok ha hrun] at hp
      cases hp
      have hboth : (p.bind f).run ⟨source, .unopened⟩ = (f a).run now := by
        rw [Plan.run_bind, hrun]
      rw [run_of_attach_ok ha hboth] at h
      exact ⟨a, now, rfl, h⟩

/-- A run that fails stops below the bound, if its plan does. -/
theorem stage_lt_of_error {bound : Stage} {e : DecodeError} (hbound : .unopened < bound)
    (hp : Plan.EndsAt (Plan.FailsBelow bound) .unopened p) (h : (d.run p).1 = .error e) :
    (d.run p).2.stage < bound := by
  rcases ha : Source.attach d.device with ⟨e' | source, device⟩
  · rw [run_of_attach_error ha]
    exact hbound
  · have hend := Plan.run_of_endsAt ⟨source, .unopened⟩ hp
    rcases hrun : p.run ⟨source, .unopened⟩ with ⟨result, now⟩
    rw [run_of_attach_ok ha hrun] at h ⊢
    rw [hrun] at hend
    exact hend e h

/-- A run without notes of stages has the same result. -/
theorem fst_run_unstaged (p : Plan α) (d : Decoder) : (d.run p.unstaged).1 = (d.run p).1 := by
  rcases ha : Source.attach d.device with ⟨e | source, device⟩
  · rw [run_of_attach_error ha, run_of_attach_error ha]
  · rw [run_of_attach_ok ha rfl, run_of_attach_ok ha rfl]
    exact (p.run_unstaged ⟨source, .unopened⟩ .unopened).1

end Decoder

theorem FileHeader.ofDevice_eq (d : Decoder) : ofDevice d.device = d.decodeHeader.1 := by
  rw [Decoder.decodeHeader, ← Decoder.fst_run_unstaged, unstaged_readStaged, ofDevice]
  rcases ha : Source.attach d.device with ⟨e | source, device⟩
  · rw [Decoder.run_of_attach_error ha]
  · rw [Decoder.run_of_attach_ok ha rfl]
    rfl

/-- **The two depths of decoding agree**, on every device, whatever it holds, reports and refuses:

* where the header cannot be decoded, decoding everything fails with the same cause, at the same
  stage and with the same calls;
* an image shows the header that decoding the header gives;
* where decoding everything fails at a later stage, the header can be decoded;
* taking the header apart at once gives the same result as reading it stage by stage. -/
theorem depths_agree (d : Decoder) :
    (∀ e, d.decodeHeader.1 = .error e →
      d.decode.1 = .error e ∧ d.decode.2.stage = d.decodeHeader.2.stage ∧
        d.decode.2 = d.decodeHeader.2) ∧
    (∀ image, d.decode.1 = .ok image → d.decodeHeader.1 = .ok image.header) ∧
    (∀ e, d.decode.1 = .error e → .headerDecoded ≤ d.decode.2.stage →
      ∃ h, d.decodeHeader.1 = .ok h) ∧
    FileHeader.ofDevice d.device = d.decodeHeader.1 := by
  obtain ⟨rest, hread, hrest⟩ := Image.exists_read_eq_bind
  have hdecode : d.decode = d.run (FileHeader.readStaged.bind rest) := by
    rw [Decoder.decode, hread]
  have hfail : ∀ e, d.decodeHeader.1 = .error e → d.decode = (.error e, d.decodeHeader.2) := by
    intro e h
    rw [hdecode]
    exact Decoder.run_bind_of_error h
  refine ⟨fun e h => ?_, fun image h => ?_, fun e h hstage => ?_, FileHeader.ofDevice_eq d⟩
  · rw [hfail e h]
    exact ⟨rfl, rfl, rfl⟩
  · rw [hdecode] at h
    obtain ⟨header, now, hheader, himage⟩ := Decoder.exists_of_run_bind_ok h
    rcases Plan.run_of_ends (hrest header) now with hend | ⟨_, _, e, -, he⟩
    · rw [hend image himage]
      exact hheader
    · rw [himage] at he
      cases he
  · cases hheader : d.decodeHeader.1 with
    | ok header => exact ⟨header, rfl⟩
    | error e' =>
      -- then both depths stop at one stage, which is below that of a decoded header
      have hlt := Decoder.stage_lt_of_error (by decide) FileHeader.endsAt_readStaged hheader
      rw [hfail e' hheader] at hstage
      exact absurd hlt (Nat.not_lt.2 hstage)

/-- A file that is cut off, a whole file, and a device that refuses the second read call for it. -/
theorem depths_agree_sample :
    (Decoder.decode { device := .ofBytes signature }).1 = .error (.truncatedTable 4 1 4) ∧
    (Decoder.decode { device := .ofBytes signature }).2.stage = .magicChecked ∧
    (Decoder.decodeHeader { device := .ofBytes sampleFile }).1 = .ok sampleImage.header ∧
    (∃ h, (Decoder.decodeHeader
      { device := { content := sampleFile, faults := { failRead := some 1 } } }).1 = .ok h) ∧
    FileHeader.ofDevice (.ofBytes signature) = .error (.truncatedTable 4 1 4) := by
  obtain ⟨hcut, -, -, hfresh⟩ := depths_agree { device := .ofBytes signature }
  obtain ⟨-, hwhole, -, -⟩ := depths_agree { device := .ofBytes sampleFile }
  obtain ⟨-, -, hlate, -⟩ :=
    depths_agree { device := { content := sampleFile, faults := { failRead := some 1 } } }
  have hshort : (Decoder.decodeHeader { device := .ofBytes signature }) =
      (.error (.truncatedTable 4 1 4),
        ⟨(Decoder.decodeHeader { device := .ofBytes signature }).2.device, .magicChecked, true⟩) := by
    decide +kernel
  have hrefused : (Decoder.decode
      { device := { content := sampleFile, faults := { failRead := some 1 } } }).1 =
        .error (.device .readRefused) ∧
      (Decoder.decode
        { device := { content := sampleFile, faults := { failRead := some 1 } } }).2.stage =
        .headerDecoded := by
    decide +kernel
  obtain ⟨herror, hstage, -⟩ := hcut _ (congrArg Prod.fst hshort)
  refine ⟨herror, hstage.trans (by rw [hshort]), hwhole _ decode_sampleFile,
    hlate _ hrefused.1 (by rw [hrefused.2]; decide), hfresh.trans (congrArg Prod.fst hshort)⟩

end ElfAnatomy
