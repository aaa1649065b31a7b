import ElfAnatomy.Device
import ElfAnatomy.Plan

/-!
# Sources

A source is a device whose length has been measured, once and for all.  It answers the questions
of a plan; a region that does not lie in it is refused without a call, and an empty region needs
none.

* `Source.attach` : measures a device.
* `Source.fetch` : the bytes of a region.
* `Plan.run` : carries out a plan; `run_bind` splits a run at any point.
-/

namespace ElfAnatomy

/-- A device with its measured length. -/
structure Source where
  device : Device
  length : Nat
deriving DecidableEq, Repr

namespace Source

/-- Measures a device.  The device is given back too, since a failed call changes it as well. -/
def attach (d : Device) : Except DecodeError Source × Device :=
  match d.measure with
  | (.error cause, d) => (.error (.device cause), d)
  | (.ok length, d) => (.ok ⟨d, length⟩, d)

/-- The bytes of a region. -/
def fetch (s : Source) (r : Region) : Except DecodeError Bytes × Source :=
  match r.check s.length with
  | .error e => (.error e, s)
  | .ok () =>
    if r.size = 0 then (.ok [], s)
    else
      match s.device.readAt r.offset r.size.toNat with
      | (.error cause, device) => (.error (.device cause), { s with device })
      | (.ok bytes, device) => (.ok bytes, { s with device })

/-- A source whose device has been changed from outside. -/
def modify (s : Source) (change : Device → Device) : Source :=
  { s with device := change s.device }

end Source

/-- Where a run stands. -/
structure Progress where
  source : Source
  stage : Stage
deriving DecidableEq, Repr

namespace Plan

variable {α β : Type}

/-- Carries out a plan: the result, and where the run stands at its end. -/
def run : Plan α → Progress → Except DecodeError α × Progress
  | done result, now => (result, now)
  | askLength next, now => (next now.source.length).run now
  | fetch region next, now =>
    match now.source.fetch region with
    | (.error e, source) => (.error e, { now with source })
    | (.ok bytes, source) => (next bytes).run { now with source }
  | reach stage next, now => next.run { now with stage }

/-- A run of one plan after another goes on where the first one stopped, unless that failed. -/
theorem run_bind (p : Plan α) (f : α → Plan β) (now : Progress) :
    (p.bind f).run now =
      match p.run now with
      | (.ok a, now) => (f a).run now
      | (.error e, now) => (.error e, now) := by
  induction p generalizing now with
  | done result => cases result <;> rfl
  | askLength next ih => exact ih _ _
  | fetch region next ih =>
    simp only [Plan.bind, run]
    split
    · rfl
    · exact ih _ _
  | reach stage next ih => exact ih _

/-- Carries out a plan on a source, whatever stages it notes. -/
def perform (p : Plan α) (s : Source) : Except DecodeError α × Source :=
  let (result, now) := p.run ⟨s, .unopened⟩
  (result, now.source)

end Plan

end ElfAnatomy
