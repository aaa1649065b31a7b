/-!
# Errors of opening a file

An error has the words and the number that the operating system gives to it.
-/

namespace ElfAnatomy

/-- Why a file cannot be opened: the words of the operating system and its error number. -/
structure OpenError where
  text : String
  code : Nat
deriving DecidableEq, Repr

namespace OpenError

def notFound : OpenError := ⟨"No such file or directory", 2⟩
def notDirectory : OpenError := ⟨"Not a directory", 20⟩
def nameTooLong : OpenError := ⟨"File name too long", 36⟩

/-- The wording of the error. -/
def message (e : OpenError) : String := e.text ++ " (os error " ++ e.code.repr ++ ")"

end OpenError

end ElfAnatomy
