import ElfAnatomy.Inspection

/-!
# The program

Reads the file that the arguments name, inspects it, and writes output and diagnostics.
-/

namespace ElfAnatomy.Program

/-- The text shown for wrong arguments and on request. -/
def usageText : String :=
  "Inspect the structure of 64-bit ELF files.\n\n" ++
  "Usage: elf-anatomy [OPTIONS] <PATH>\n\n" ++
  "  -H, --file-header  Show the file header\n" ++
  "  -S, --sections     Show the section header table\n" ++
  "  -l, --segments     Show the program header table\n" ++
  "  -d, --dynamic      Show the dynamic section and library dependencies\n" ++
  "  -a, --all          Show everything (the default)\n" ++
  "      --header-only  Only decode and show the file header\n" ++
  "      --json         Print a JSON report instead of tables\n" ++
  "  -q, --quiet        Suppress everything but output and errors\n" ++
  "  -v, --verbose      Report pipeline stages and timings\n" ++
  "  -h, --help         Show this text\n" ++
  "  -V, --version      Show the version\n"

/-- The operating system's account of why a file cannot be opened. -/
def openErrorOf : IO.Error → OpenError
  | .noFileOrDirectory _ code details => ⟨details, code.toNat⟩
  | .permissionDenied _ code details => ⟨details, code.toNat⟩
  | .inappropriateType _ code details => ⟨details, code.toNat⟩
  | .invalidArgument _ code details => ⟨details, code.toNat⟩
  | e => ⟨e.toString, 0⟩

/-- The content of an opened file. -/
def readContent (handle : IO.FS.Handle) : IO Device := do
  try
    return .ofBytes (← handle.readBinToEnd).data.toList
  catch _ =>
    return .unreadable

/-- What can be read from the file at a path. -/
def openFile (path : String) : IO (Except OpenError Device) := do
  try
    return .ok (← readContent (← IO.FS.Handle.mk path .read))
  catch e =>
    return .error (openErrorOf e)

/-- A time in nanoseconds, in milliseconds with one decimal. -/
def timeText (nanos : Nat) : String :=
  (nanos / 1000000).repr ++ "." ++ (nanos / 100000 % 10).repr ++ "ms"

end ElfAnatomy.Program

open ElfAnatomy ElfAnatomy.Program in
/-- Inspects the file that the arguments name. -/
def main (arguments : List String) : IO UInt32 := do
  match CommandLine.parse arguments with
  | .error stop =>
    match stop with
    | .help => IO.print usageText
    | .version => IO.println "elf-anatomy 0.1.0"
    | _ => IO.eprint usageText
    return stop.status.toUInt32
  | .ok options =>
    let file ← openFile options.path
    let start ← IO.monoNanosNow
    let ending := Inspection.run ⟨CommandLine.parse, fun _ => file, Json.pretty⟩ options
    let stop ← IO.monoNanosNow
    IO.eprint (ending.diagnostics (timeText (stop - start)))
    IO.print ending.output
    return ending.status.toUInt32
