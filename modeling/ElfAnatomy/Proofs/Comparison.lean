import ElfAnatomy.Proofs.Delivery
import ElfAnatomy.Proofs.Depths

/-!
# Comparing runs

A plan learns of a source only its length and its answers for regions.  So two sources that answer
alike are told apart by no plan, whatever their devices do to give these answers.

* `Source.Simulates` : related sources answer alike and stay related; the first one may fail
  instead, with causes of a certain kind.
* `Plan.run_of_simulates` : runs on related sources have the same result and stage, unless the
  first one fails with such a cause.
* `SameReport`, `Decoder.decodeTo_of_simulates` : the same for a decoder, at either depth.
-/

namespace ElfAnatomy

variable {α : Type} {F : DecodeError → Prop} {R : Source → Source → Prop}

/-- Related sources are equally long, answer for every region alike and are related afterwards;
only the first one may fail with a cause in `F` instead. -/
structure Source.Simulates (F : DecodeError → Prop) (R : Source → Source → Prop) : Prop where
  length : ∀ {s t : Source}, R s t → s.length = t.length
  fetch : ∀ {s t : Source}, R s t → ∀ r : Region,
    (∃ e, F e ∧ (s.fetch r).1 = .error e) ∨
      (s.fetch r).1 = (t.fetch r).1 ∧ R (s.fetch r).2 (t.fetch r).2

/-- **Runs on related sources come to the same**, unless the first one fails with a cause
in `F`. -/
theorem Plan.run_of_simulates (h : Source.Simulates F R) (p : Plan α) :
    ∀ now other : Progress, R now.source other.source → now.stage = other.stage →
      (∃ e, F e ∧ (p.run now).1 = .error e) ∨
        (p.run now).1 = (p.run other).1 ∧ (p.run now).2.stage = (p.run other).2.stage := by
  -- on the plan: both runs get the same answer, so they go on with the same plan
  induction p with
  | done result =>
    intro now other _ hstage
    exact .inr ⟨rfl, hstage⟩
  | askLength next ih =>
    intro now other hR hstage
    simp only [run, h.length hR]
    exact ih _ now other hR hstage
  | fetch region next ih =>
    intro now other hR hstage
    have hfetch := h.fetch hR region
    simp only [run]
    rcases hs : now.source.fetch region with ⟨result, s⟩
    rcases ht : other.source.fetch region with ⟨result', t⟩
    rw [hs, ht] at hfetch
    rcases hfetch with ⟨e, he, hfail⟩ | ⟨hsame, hafter⟩
    · cases hfail
      exact .inl ⟨e, he, rfl⟩
    · dsimp only at hsame hafter
      subst hsame
      cases result with
      | error e => exact .inr ⟨rfl, hstage⟩
      | ok bytes => exact ih bytes { now with source := s } { other with source := t } hafter hstage
  | reach stage next ih =>
    intro now other hR _
    exact ih { now with stage } { other with stage } hR rfl

/-! ### Decoders -/

/-- Two calls of decoders report the same: the result, the stage and whether the run failed. -/
structure SameReport (x y : Except DecodeError α × Decoder) : Prop where
  result : x.1 = y.1
  stage : x.2.stage = y.2.stage
  failed : x.2.failed = y.2.failed

namespace SameReport

variable {x y z : Except DecodeError α × Decoder}

theorem symm (h : SameReport x y) : SameReport y x :=
  ⟨h.result.symm, h.stage.symm, h.failed.symm⟩

theorem trans (h : SameReport x y) (h' : SameReport y z) : SameReport x z :=
  ⟨h.result.trans h'.result, h.stage.trans h'.stage, h.failed.trans h'.failed⟩

end SameReport

namespace Decoder

variable {d e : Decoder} {s t : Source} {device device' : Device}

theorem run_of_simulates (h : Source.Simulates F R)
    (hs : Source.attach d.device = (.ok s, device))
    (ht : Source.attach e.device = (.ok t, device')) (hR : R s t) (p : Plan α) :
    (∃ cause, F cause ∧ (d.run p).1 = .error cause) ∨ SameReport (d.run p) (e.run p) := by
  rw [run_of_attach_ok hs rfl, run_of_attach_ok ht rfl]
  refine (p.run_of_simulates h ⟨s, .unopened⟩ ⟨t, .unopened⟩ hR rfl).imp_right ?_
  rintro ⟨hresult, hstage⟩
  exact ⟨hresult, hstage, by rw [hresult]⟩

/-- **Decoders on related sources report the same**, at either depth, unless the first one fails
with a cause in `F`. -/
theorem decodeTo_of_simulates (h : Source.Simulates F R)
    (hs : Source.attach d.device = (.ok s, device))
    (ht : Source.attach e.device = (.ok t, device')) (hR : R s t) (depth : Depth) :
    (∃ cause, F cause ∧ (d.decodeTo depth).1 = .error cause) ∨
      SameReport (d.decodeTo depth) (e.decodeTo depth) := by
  have hmap : ∀ {β : Type} (p : Plan β) (f : β → Decoded),
      (∃ cause, F cause ∧ (d.run p).1.map f = .error cause) ∨
        SameReport ((d.run p).1.map f, (d.run p).2) ((e.run p).1.map f, (e.run p).2) := by
    intro β p f
    rcases run_of_simulates h hs ht hR p with ⟨cause, hcause, hfail⟩ | hsame
    · exact .inl ⟨cause, hcause, map_eq_error_iff.2 hfail⟩
    · exact .inr ⟨congrArg (Except.map f) hsame.result, hsame.stage, hsame.failed⟩
  cases depth with
  | headerOnly => exact hmap FileHeader.readStaged .headerOnly
  | full => exact hmap Image.read .full

end Decoder

end ElfAnatomy
