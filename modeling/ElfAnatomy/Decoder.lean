import ElfAnatomy.Image

/-!
# The decoder

A decoder runs a decoding plan on a device, as often as wanted, and remembers of the latest run
which stage it completed and whether it failed.  Every run measures the device anew and starts
from the first stage.

* `Decoder.run` : one run of any plan.
* `Decoder.decode`, `Decoder.decodeHeader`, `Decoder.decodeTo` : the runs at either depth.
* `decode`, `decodeHeader` : the same for bytes at hand.
-/

namespace ElfAnatomy

/-- How far a run goes. -/
inductive Depth
  /-- The file header alone; no table is read. -/
  | headerOnly
  /-- Everything. -/
  | full
deriving DecidableEq, Repr

/-- The result of a run at either depth. -/
inductive Decoded
  | headerOnly (header : FileHeader)
  | full (image : Image)
deriving DecidableEq, Repr

namespace Decoded

/-- The file header, which every run gives. -/
def fileHeader : Decoded → FileHeader
  | headerOnly h => h
  | full image => image.header

/-- The image, if the run went as far. -/
def image? : Decoded → Option Image
  | headerOnly _ => none
  | full image => some image

end Decoded

/-- A device, and what the latest run on it came to. -/
structure Decoder where
  device : Device
  stage : Stage := .unopened
  failed : Bool := false
deriving DecidableEq, Repr

namespace Decoder

variable {α : Type}

/-- One run of a plan. -/
def run (plan : Plan α) (d : Decoder) : Except DecodeError α × Decoder :=
  match Source.attach d.device with
  | (.error e, device) => (.error e, ⟨device, .unopened, true⟩)
  | (.ok source, _) =>
    match plan.run ⟨source, .unopened⟩ with
    | (.error e, now) => (.error e, ⟨now.source.device, now.stage, true⟩)
    | (.ok a, now) => (.ok a, ⟨now.source.device, now.stage, false⟩)

/-- Decodes everything. -/
def decode (d : Decoder) : Except DecodeError Image × Decoder := d.run Image.read

/-- Decodes the file header. -/
def decodeHeader (d : Decoder) : Except DecodeError FileHeader × Decoder :=
  d.run FileHeader.readStaged

/-- Decodes to a depth. -/
def decodeTo (d : Decoder) : Depth → Except DecodeError Decoded × Decoder
  | .headerOnly =>
    let (result, d) := d.decodeHeader
    (result.map .headerOnly, d)
  | .full =>
    let (result, d) := d.decode
    (result.map .full, d)

/-- A decoder whose device has been changed from outside. -/
def modify (d : Decoder) (change : Device → Device) : Decoder :=
  { d with device := change d.device }

end Decoder

/-- The image of a file with the given content. -/
def decode (content : Bytes) : Except DecodeError Image :=
  (Decoder.decode { device := .ofBytes content }).1

/-- The file header of a file with the given content. -/
def decodeHeader (content : Bytes) : Except DecodeError FileHeader :=
  (Decoder.decodeHeader { device := .ofBytes content }).1

end ElfAnatomy
