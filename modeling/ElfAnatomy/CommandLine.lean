import ElfAnatomy.Decoder
import ElfAnatomy.Views

/-!
# The command line

Arguments are read from left to right.  Flags have a long name after `--`, and some have a letter,
of which several may follow one `-`; after a lone `--` every argument is a path.  There must be one
path.

* `CommandLine.parse` : the options that arguments stand for, or why there is nothing to inspect.
* `Options.views`, `Options.depth` : what the options ask for.

The first argument that cannot be taken decides; flags that exclude each other, and then a missing
path, are found at the end.

An inspection works with any parser of arguments; `ElfAnatomy.Proofs.Switches` has the law that it
relies on.
-/

namespace ElfAnatomy

/-- The switches of an inspection. -/
inductive Flag
  | fileHeader
  | sections
  | segments
  | dynamic
  | all
  | headerOnly
  | json
  | quiet
  | verbose
deriving DecidableEq, Repr

/-- What arguments ask for: a path and a set of flags. -/
structure Options where
  path : String
  flags : List Flag
deriving DecidableEq, Repr

namespace Options

/-- The flag is set. -/
def has (o : Options) (flag : Flag) : Bool := o.flags.contains flag

theorem has_eq_true_iff {o : Options} {flag : Flag} : o.has flag = true ↔ flag ∈ o.flags := by
  simp [has]

theorem has_eq_false_iff {o : Options} {flag : Flag} : o.has flag = false ↔ flag ∉ o.flags := by
  simp [has]

/-- The depth of the run. -/
def depth (o : Options) : Depth := if o.has .headerOnly then .headerOnly else .full

theorem depth_eq (o : Options) :
    o.depth = if .headerOnly ∈ o.flags then .headerOnly else .full := by
  simp [depth, has_eq_true_iff]

/-- The selected views; all of them if none is selected. -/
def views (o : Options) : Views :=
  if o.has .headerOnly then .headerOnly
  else if o.has .all ||
      !(o.has .fileHeader || o.has .sections || o.has .segments || o.has .dynamic) then .all
  else ⟨o.has .fileHeader, o.has .sections, o.has .segments, o.has .dynamic⟩

end Options

/-- Why arguments lead to no inspection. -/
inductive Stop
  /-- A flag nobody knows, or a second path. -/
  | unknownArgument
  /-- A flag given twice, or flags that exclude each other. -/
  | conflict
  /-- No path is given. -/
  | missingPath
  /-- A value is given to a flag. -/
  | unexpectedValue
  /-- The path is empty. -/
  | emptyPath
  /-- Help is asked for. -/
  | help
  /-- The version is asked for. -/
  | version
deriving DecidableEq, Repr

/-- The exit status: zero where the arguments asked for no inspection, two where they are wrong. -/
def Stop.status : Stop → UInt8
  | help | version => 0
  | unknownArgument | conflict | missingPath | unexpectedValue | emptyPath => 2

namespace CommandLine

/-- What a name or a letter stands for. -/
inductive Switch
  | flag (flag : Flag)
  | help
  | version
deriving DecidableEq, Repr

/-- The long names. -/
def longNames : List (String × Switch) :=
  [("file-header", .flag .fileHeader), ("sections", .flag .sections),
    ("segments", .flag .segments), ("dynamic", .flag .dynamic), ("all", .flag .all),
    ("header-only", .flag .headerOnly), ("json", .flag .json), ("quiet", .flag .quiet),
    ("verbose", .flag .verbose), ("help", .help), ("version", .version)]

/-- The letters. -/
def letters : List (Char × Switch) :=
  [('H', .flag .fileHeader), ('S', .flag .sections), ('l', .flag .segments),
    ('d', .flag .dynamic), ('a', .flag .all), ('q', .flag .quiet), ('v', .flag .verbose),
    ('h', .help), ('V', .version)]

/-- What the arguments read so far have given. -/
structure Draft where
  path : Option String := none
  flags : List Flag := []
deriving DecidableEq, Repr

/-- An empty path is refused once another argument has been understood. -/
def Draft.checkPath (d : Draft) : Except Stop Unit :=
  if d.path = some "" then .error .emptyPath else .ok ()

/-- Takes a switch. -/
def Draft.take (d : Draft) (switch : Switch) : Except Stop Draft := do
  d.checkPath
  match switch with
  | .help => .error .help
  | .version => .error .version
  | .flag flag =>
    if flag ∈ d.flags then .error .conflict else .ok { d with flags := flag :: d.flags }

/-- Takes a path. -/
def Draft.takePath (d : Draft) (path : String) : Except Stop Draft :=
  match d.path with
  | some _ => .error .unknownArgument
  | none => .ok { d with path := some path }

/-- Takes an argument that starts with `--`, given without it. -/
def Draft.takeLong (d : Draft) (argument : List Char) : Except Stop Draft :=
  match longNames.lookup (String.ofList (argument.takeWhile (· != '='))) with
  | none => .error .unknownArgument
  | some switch => if '=' ∈ argument then .error .unexpectedValue else d.take switch

/-- Takes the letters of an argument that starts with `-`, one after another. -/
def Draft.takeLetters (d : Draft) : List Char → Except Stop Draft
  | [] => .ok d
  | c :: cs =>
    match letters.lookup c with
    | none => .error .unknownArgument
    | some switch => do (← d.take switch).takeLetters cs

/-- Takes all arguments; once the flags have ended, each one is a path. -/
def Draft.takeAll (d : Draft) (flagsEnded : Bool) : List String → Except Stop Draft
  | [] => .ok d
  | argument :: rest =>
    if flagsEnded then do (← d.takePath argument).takeAll true rest
    else
      match argument.toList with
      | ['-', '-'] => d.takeAll true rest
      | '-' :: '-' :: name => do (← d.takeLong name).takeAll false rest
      | '-' :: c :: cs => do (← d.takeLetters (c :: cs)).takeAll false rest
      | _ => do (← d.takePath argument).takeAll false rest

/-- Flags that exclude each other are both set. -/
def Draft.conflicting (d : Draft) : Bool :=
  let set := fun flag => d.flags.contains flag
  (set .headerOnly && (set .sections || set .segments || set .dynamic || set .all))
    || (set .quiet && set .verbose)

/-- The options of a draft to which nothing is added any more. -/
def Draft.finish (d : Draft) : Except Stop Options := do
  d.checkPath
  if d.conflicting then .error .conflict
  match d.path with
  | none => .error .missingPath
  | some path => .ok ⟨path, d.flags⟩

/-- The options that arguments stand for. -/
def parse (arguments : List String) : Except Stop Options := do
  (← Draft.takeAll {} false arguments).finish

end CommandLine

end ElfAnatomy
