/-!
# Text in columns and lines

A column is filled with blanks up to its width, counted in characters; longer text is kept whole.
A block of lines is the text in which every line is followed by a line end.

* `Column.left`, `Column.right` : text at the left or at the right edge of its column.
* `Lines.text` : the text of a list of lines.
-/

namespace ElfAnatomy

namespace Column

/-- Text at the left edge of a column of `width` characters. -/
def left (width : Nat) (text : String) : String :=
  text ++ String.ofList (List.replicate (width - text.length) ' ')

/-- Text at the right edge of a column of `width` characters. -/
def right (width : Nat) (text : String) : String :=
  String.ofList (List.replicate (width - text.length) ' ') ++ text

end Column

/-- The text of a list of lines, each followed by a line end. -/
def Lines.text (lines : List String) : String := String.join (lines.map (· ++ "\n"))

end ElfAnatomy
