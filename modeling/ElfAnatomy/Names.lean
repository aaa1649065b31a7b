import ElfAnatomy.FileHeader
import ElfAnatomy.Section
import ElfAnatomy.Segment
import ElfAnatomy.Text.Hex

/-!
# Names of codes

The names under which tables and reports show the codes of a file.  Each set of names is a list of
pairs; a code without a name is shown in hexadecimal, or as unknown where the code itself is shown
beside it.  Flags are shown as one letter per bit.
-/

namespace ElfAnatomy.Names

/-- What stands for a name where there is none. -/
def unknown : String := "<unknown>"

/-- The name of a code, or else the code in hexadecimal. -/
def orHex {α : Type} [BEq α] [Word α] (names : List (α × String)) (code : α) : String :=
  (names.lookup code).getD (Hex.number (Word.toNat code))

/-! ### File header -/

/-- Machines. -/
def machines : List (UInt16 × String) :=
  [(3, "Intel 80386"), (21, "PowerPC64"), (22, "IBM S/390"), (40, "ARM"),
    (62, "Advanced Micro Devices X86-64"), (183, "AArch64"), (243, "RISC-V")]

/-- The name of a machine. -/
def machine (code : UInt16) : String := (machines.lookup code).getD unknown

/-- Operating systems and conventions. -/
def osAbis : List (UInt8 × String) :=
  [(0, "UNIX - System V"), (1, "UNIX - HP-UX"), (2, "UNIX - NetBSD"), (3, "UNIX - GNU"),
    (6, "UNIX - Solaris"), (9, "UNIX - FreeBSD"), (12, "UNIX - OpenBSD"), (97, "ARM"),
    (255, "Standalone App")]

/-- The name of an operating system or convention. -/
def osAbi (code : UInt8) : String := (osAbis.lookup code).getD unknown

/-- The name of a kind of object file. -/
def objectType : ObjectType → String
  | .unspecified => "NONE (None)"
  | .relocatable => "REL (Relocatable file)"
  | .executable => "EXEC (Executable file)"
  | .sharedObject => "DYN (Shared object file)"
  | .core => "CORE (Core file)"
  | .other _ => unknown

/-! ### Sections, segments and dynamic entries -/

/-- Types of sections. -/
def sectionTypes : List (UInt32 × String) :=
  [(0, "NULL"), (1, "PROGBITS"), (2, "SYMTAB"), (3, "STRTAB"), (4, "RELA"), (5, "HASH"),
    (6, "DYNAMIC"), (7, "NOTE"), (8, "NOBITS"), (9, "REL"), (10, "SHLIB"), (11, "DYNSYM"),
    (14, "INIT_ARRAY"), (15, "FINI_ARRAY"), (16, "PREINIT_ARRAY"), (17, "GROUP"),
    (18, "SYMTAB_SHNDX"), (0x6ffffff6, "GNU_HASH"), (0x6ffffffd, "VERDEF"),
    (0x6ffffffe, "VERNEED"), (0x6fffffff, "VERSYM")]

/-- The name of a type of sections. -/
def sectionType (code : UInt32) : String := orHex sectionTypes code

/-- Types of segments. -/
def segmentTypes : List (UInt32 × String) :=
  [(0, "NULL"), (1, "LOAD"), (2, "DYNAMIC"), (3, "INTERP"), (4, "NOTE"), (5, "SHLIB"),
    (6, "PHDR"), (7, "TLS"), (0x6474e550, "GNU_EH_FRAME"), (0x6474e551, "GNU_STACK"),
    (0x6474e552, "GNU_RELRO"), (0x6474e553, "GNU_PROPERTY")]

/-- The name of a type of segments. -/
def segmentType (code : UInt32) : String := orHex segmentTypes code

/-- Tags of dynamic entries. -/
def dynamicTags : List (Int64 × String) :=
  [(0, "NULL"), (1, "NEEDED"), (2, "PLTRELSZ"), (3, "PLTGOT"), (4, "HASH"), (5, "STRTAB"),
    (6, "SYMTAB"), (7, "RELA"), (8, "RELASZ"), (9, "RELAENT"), (10, "STRSZ"), (11, "SYMENT"),
    (12, "INIT"), (13, "FINI"), (14, "SONAME"), (15, "RPATH"), (16, "SYMBOLIC"), (17, "REL"),
    (18, "RELSZ"), (19, "RELENT"), (20, "PLTREL"), (21, "DEBUG"), (22, "TEXTREL"),
    (23, "JMPREL"), (24, "BIND_NOW"), (25, "INIT_ARRAY"), (26, "FINI_ARRAY"),
    (27, "INIT_ARRAYSZ"), (28, "FINI_ARRAYSZ"), (29, "RUNPATH"), (30, "FLAGS"),
    (0x6ffffef5, "GNU_HASH"), (0x6ffffff0, "VERSYM"), (0x6ffffff9, "RELACOUNT"),
    (0x6ffffffb, "FLAGS_1"), (0x6ffffffe, "VERNEED"), (0x6fffffff, "VERNEEDNUM")]

/-- The name of a tag. -/
def dynamicTag (code : Int64) : String := orHex dynamicTags code

/-! ### Flags -/

/-- The letters of section flags. -/
def sectionFlagLetters : List (UInt64 × Char) :=
  [(SectionFlag.write, 'W'), (SectionFlag.alloc, 'A'), (SectionFlag.execute, 'X'),
    (SectionFlag.merge, 'M'), (SectionFlag.strings, 'S'), (SectionFlag.infoLink, 'I'),
    (SectionFlag.linkOrder, 'L'), (SectionFlag.osNonconforming, 'O'), (SectionFlag.group, 'G'),
    (SectionFlag.threadLocal, 'T'), (SectionFlag.compressed, 'C')]

/-- Section flags: the letters of all set bits, and an `x` if a bit without a name is set. -/
def sectionFlags (flags : UInt64) : String :=
  String.ofList ((sectionFlagLetters.filter fun p => flags &&& p.1 == p.1).map Prod.snd ++
    if flags &&& ~~~SectionFlag.all != 0 then ['x'] else [])

/-- The letters of segment flags. -/
def segmentFlagLetters : List (UInt32 × Char) :=
  [(SegmentFlag.read, 'R'), (SegmentFlag.write, 'W'), (SegmentFlag.execute, 'E')]

/-- Segment flags: one place for each letter, blank if its bit is not set. -/
def segmentFlags (flags : UInt32) : String :=
  String.ofList (segmentFlagLetters.map fun p => if flags &&& p.1 == p.1 then p.2 else ' ')

/-- Segment flags without the blanks. -/
def segmentFlagsClosed (flags : UInt32) : String :=
  String.ofList ((segmentFlags flags).toList.filter (· != ' '))

end ElfAnatomy.Names
