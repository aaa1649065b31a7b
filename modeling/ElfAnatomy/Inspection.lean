import ElfAnatomy.CommandLine
import ElfAnatomy.Folder
import ElfAnatomy.Notice
import ElfAnatomy.Report
import ElfAnatomy.Tables
import ElfAnatomy.Text.Column

/-!
# Inspections

One inspection from arguments to exit status: the file is opened and decoded to the depth that the
options ask for, and its tables or its report are the output.  Notices go a way of their own, so
the output stays the same at every verbosity, and a failed inspection has none.

How arguments are read, what opening a path gives and how a document is written is up to a host.

* `Host` : what an inspection leaves to others.
* `Inspection.run` : the ending of an inspection.
* `Inspection.inspect` : the inspection that arguments ask for, on any host.
* `Inspection.inFolder` : the same with the command line of this library, in a folder of files.
* `DecodeError.status` : the exit status of a cause of failure.
-/

namespace ElfAnatomy

/-- What an inspection leaves to others. -/
structure Host where
  /-- The options that arguments stand for. -/
  parse : List String → Except Stop Options
  /-- What can be read from the file at a path. -/
  opened : String → Except OpenError Device
  /-- The text of a document. -/
  write : Json → String

/-- The exit status of a cause: two for a file of another kind, one for trouble with the device,
three for a malformed file. -/
def DecodeError.status : DecodeError → UInt8
  | notElf _ | unsupportedClass _ | unsupportedEncoding _ => 2
  | device _ => 1
  | _ => 3

/-- The verbosity that the options ask for. -/
def Options.verbosity (o : Options) : Verbosity := .ofSwitches (o.has .quiet) (o.has .verbose)

/-- How an inspection ends. -/
structure Ending where
  status : UInt8
  output : String
  /-- What is told at the verbosity of the options, in order. -/
  notices : List Notice
deriving DecidableEq, Repr

namespace Ending

/-- The text of the notices, for a run that took `time`. -/
def diagnostics (time : String) (e : Ending) : String :=
  Lines.text (e.notices.map (Notice.line time))

end Ending

namespace Inspection

/-- The output that the options ask for. -/
def output (write : Json → String) (o : Options) (decoded : Decoded) : String :=
  if o.has .json then Report.writtenBy write o.path decoded o.views ++ "\n"
  else decoded.render o.views

/-- What is told about a full run that succeeded. -/
def imageNotices (image : Image) : List Notice :=
  .counts image.sections.length image.segments.length image.dependencies.length
    :: image.anomalies.map .anomaly

/-- The ending of a run of a decoder, with everything that can be told. -/
def ofRun (write : Json → String) (o : Options) : Except DecodeError Decoded × Decoder → Ending
  | (.ok decoded, d) =>
    ⟨0, output write o decoded,
      .decoding o.path o.depth :: .elapsed :: .stopped d.stage d.failed
        :: (decoded.image?.map imageNotices).getD []⟩
  | (.error cause, d) =>
    ⟨cause.status, "",
      [.decoding o.path o.depth, .elapsed, .stopped d.stage d.failed,
        .decodeFailed o.path cause]⟩

/-- The ending of an inspection whose file cannot be opened. -/
def ofOpenError (o : Options) (cause : OpenError) : Ending :=
  ⟨1, "", [.decoding o.path o.depth, .openFailed o.path cause]⟩

/-- The ending of an inspection, with everything that can be told. -/
def full (host : Host) (o : Options) : Ending :=
  match host.opened o.path with
  | .error cause => ofOpenError o cause
  | .ok device => ofRun host.write o (Decoder.decodeTo { device } o.depth)

/-- The ending of an inspection, telling what the verbosity admits. -/
def run (host : Host) (o : Options) : Ending :=
  let e := full host o
  { e with notices := e.notices.filter (Notice.shownAt o.verbosity) }

/-- The inspection that arguments ask for. -/
def inspect (host : Host) (arguments : List String) : Except Stop Ending := do
  return run host (← host.parse arguments)

/-- The inspection that arguments ask for, in a folder of files. -/
def inFolder (folder : Folder) (arguments : List String) : Except Stop Ending :=
  inspect ⟨CommandLine.parse, folder.find, Json.pretty⟩ arguments

end Inspection

end ElfAnatomy
