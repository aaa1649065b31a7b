import ElfAnatomy.Device
import ElfAnatomy.OpenError

/-!
# Files in a folder

A folder to try the program out in: it holds nothing but some files.  A path is followed name by
name from there: an empty name and `.` stay where they are, `..` goes up, a name below a file leads
nowhere, and one of more than 255 bytes is no name.  A path can leave the folder, upwards or by
starting at the root; no files are known there, only the usual folders of a root.

* `Place` : where a path has led so far.
* `Folder.follow` : follows names, one after another.
* `Folder.find` : what is opened at a path.

This is one way to open paths among others.  The laws of inspections hold for all of them, and none
of the laws is about this one.
-/

namespace ElfAnatomy

/-- A folder that names can be counted from. -/
inductive Base
  /-- The folder itself. -/
  | here
  /-- A folder around it. -/
  | above
  /-- The root of all folders. -/
  | root
deriving DecidableEq, Repr

/-- Where a path has led: below a base, by some names. -/
structure Place where
  base : Base
  names : List String := []
deriving DecidableEq, Repr

namespace Place

/-- The place of a name in a folder. -/
def enter (p : Place) (name : String) : Place := { p with names := p.names ++ [name] }

/-- The folder that holds a place; the root holds itself. -/
def up : Place → Place
  | ⟨.here, []⟩ => ⟨.above, []⟩
  | ⟨base, names⟩ => ⟨base, names.dropLast⟩

end Place

/-- What is at a place. -/
inductive Occupant
  | folder
  | file (content : Bytes)
  | nothing
deriving DecidableEq, Repr

/-- The files of a folder, by their names. -/
structure Folder where
  files : List (String × Bytes)

namespace Folder

/-- The parts of a path between slashes. -/
def components (path : String) : List String := path.splitOn "/"

/-- The longest name that a file can have, in bytes. -/
def maxName : Nat := 255

/-- The longest path that can be opened, in bytes. -/
def maxPath : Nat := 4095

/-- The folders that every root holds. -/
def rootFolders : List String :=
  ["bin", "boot", "dev", "etc", "home", "lib", "media", "mnt", "opt", "root", "run", "sbin", "srv",
    "tmp", "usr", "var"]

/-- What is below the folder; a file whose name has slashes lies in folders of its own. -/
def below (f : Folder) (names : List String) : Occupant :=
  match f.files.find? fun p => components p.1 == names with
  | some p => .file p.2
  | none =>
    if names = [] || f.files.any fun p => names.isPrefixOf (components p.1) then .folder
    else .nothing

/-- What is at a place. -/
def occupant (f : Folder) : Place → Occupant
  | ⟨.here, names⟩ => f.below names
  | ⟨_, []⟩ => .folder
  | ⟨.root, [name]⟩ => if name ∈ rootFolders then .folder else .nothing
  | _ => .nothing

/-- Follows names from a place.  Whatever comes after a file or after nothing is not looked at, and
only a name that is looked up has to be short enough. -/
def follow (f : Folder) (p : Place) : List String → Except OpenError Device
  | [] =>
    match f.occupant p with
    | .file content => .ok (.ofBytes content)
    | .folder => .ok .unreadable
    | .nothing => .error .notFound
  | name :: rest =>
    match f.occupant p with
    | .nothing => .error .notFound
    | .file _ => .error .notDirectory
    | .folder =>
      if name = "" ∨ name = "." then f.follow p rest
      else if name = ".." then f.follow p.up rest
      else if maxName < name.utf8ByteSize then .error .nameTooLong
      else f.follow (p.enter name) rest

/-- Where a path starts. -/
def start (path : String) : Place :=
  if path.startsWith "/" then { base := .root } else { base := .here }

/-- What is opened at a path.  The length of the whole path is checked beforehand. -/
def find (f : Folder) (path : String) : Except OpenError Device :=
  if path = "" then .error .notFound
  else if maxPath < path.utf8ByteSize then .error .nameTooLong
  else f.follow (start path) (components path)

end Folder

end ElfAnatomy
