import ElfAnatomy.Decoder
import ElfAnatomy.OpenError

/-!
# Notices

What an inspection tells about itself, apart from the output that was asked for.  How much of it is
shown depends on the verbosity: errors always, warnings unless quiet, and the course of the run only
if verbose.
-/

namespace ElfAnatomy

/-- How much is told. -/
inductive Verbosity
  | quiet
  | normal
  | verbose
deriving DecidableEq, Repr

/-- The verbosity that two switches ask for; being quiet goes first. -/
def Verbosity.ofSwitches (quiet verbose : Bool) : Verbosity :=
  if quiet then .quiet else if verbose then .verbose else .normal

/-- The name of a depth. -/
def Depth.label : Depth → String
  | .headerOnly => "HeaderOnly"
  | .full => "Full"

/-- Something an inspection tells. -/
inductive Notice
  /-- A run is about to start. -/
  | decoding (path : String) (depth : Depth)
  /-- A run has ended, and took some time. -/
  | elapsed
  /-- The stage a run has completed. -/
  | stopped (stage : Stage) (failed : Bool)
  /-- How much has been decoded. -/
  | counts (sections segments dependencies : Nat)
  | anomaly (anomaly : Anomaly)
  | openFailed (path : String) (cause : OpenError)
  | decodeFailed (path : String) (cause : DecodeError)
deriving DecidableEq, Repr

namespace Notice

/-- The notice is shown at a verbosity. -/
def shownAt (v : Verbosity) : Notice → Bool
  | decoding .. | elapsed | stopped .. | counts .. => v == .verbose
  | anomaly _ => v != .quiet
  | openFailed .. | decodeFailed .. => true

/-- The line about the stage a run has completed. -/
def stageLine (stage : Stage) (failed : Bool) : String :=
  (if failed then "  failed after stage: " else "  reached stage: ") ++ stage.label

/-- The wording of a cause of failure, and after it that of the device error behind it. -/
def chain (cause : DecodeError) : String :=
  match cause.deviceError? with
  | none => cause.message
  | some behind => cause.message ++ ": " ++ behind.message

/-- The line of a notice, for a run that took `time`. -/
def line (time : String) : Notice → String
  | decoding path depth => "decoding " ++ path ++ " (" ++ depth.label ++ ")"
  | elapsed => "  decode took " ++ time
  | stopped stage failed => stageLine stage failed
  | counts sections segments dependencies =>
    "  " ++ sections.repr ++ " sections, " ++ segments.repr ++ " segments, "
      ++ dependencies.repr ++ " dependencies"
  | anomaly a => "warning: " ++ a.message
  | openFailed path cause => "error: failed to open " ++ path ++ ": " ++ cause.message
  | decodeFailed path cause => "error: failed to decode " ++ path ++ ": " ++ chain cause

end Notice

end ElfAnatomy
