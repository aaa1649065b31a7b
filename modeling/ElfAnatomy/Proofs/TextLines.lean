import ElfAnatomy.Tables

/-!
# Texts read line by line

Whoever reads a table cuts its text at the line ends.  That gives the lines back which the table was
made of, as long as none of them has a line end inside.

* `Lacks` : a character that does not occur in a text; most parts of a row have only few characters.
* `Outside` : a character that neither blanks nor numbers bring into a row.
* `Lines.split` : the pieces of a text between its line ends.
* `Lines.split_text` : **each line of a table gives its own pieces**, and a line without line ends
  gives itself.
* `Lines.after`, `Lines.between` : the lines that follow a title, and those up to another line.
* `Lines.after_eq_iff` : when the lines after a title are those that were written.
* `Decoded.render_of_tables` : the text of a single view.
-/

namespace ElfAnatomy

/-! ### Characters that do not occur -/

/-- The character does not occur in the text. -/
def Lacks (c : Char) (text : String) : Prop := c ∉ text.toList

instance (c : Char) (text : String) : Decidable (Lacks c text) :=
  inferInstanceAs (Decidable (c ∉ text.toList))

/-- The character is not a blank, and it is not used to write numbers. -/
structure Outside (c : Char) : Prop where
  blank : c ≠ ' '
  x : c ≠ 'x'
  digit : ∀ d < 16, d.digitChar ≠ c

section

variable {c : Char} {s t : String}

@[simp] theorem lacks_append : Lacks c (s ++ t) ↔ Lacks c s ∧ Lacks c t := by
  simp [Lacks]

@[simp] theorem lacks_ofList {cs : List Char} : Lacks c (.ofList cs) ↔ c ∉ cs := by
  simp [Lacks]

theorem Column.lacks_left (hc : Outside c) (width : Nat) :
    Lacks c (left width s) ↔ Lacks c s := by
  simp [left, hc.blank]

theorem Column.lacks_right (hc : Outside c) (width : Nat) :
    Lacks c (right width s) ↔ Lacks c s := by
  simp [right, hc.blank]

/-- A number is written in digits. -/
theorem Outside.notMem_toDigits (hc : Outside c) {base : Nat} (hbase : 1 < base)
    (hle : base ≤ 16) (n : Nat) : c ∉ Nat.toDigits base n := by
  induction n using Nat.base_induction base hbase with
  | single m hm =>
    rw [Nat.toDigits_of_lt_base hm, List.mem_singleton]
    exact (hc.digit m (by omega)).symm
  | digit m k hk hm ih =>
    rw [← Nat.toDigits_append_toDigits hbase hm hk, Nat.toDigits_of_lt_base hk,
      List.mem_append, List.mem_singleton, not_or]
    exact ⟨ih, (hc.digit k (by omega)).symm⟩

theorem Outside.ne_zero (hc : Outside c) : c ≠ '0' := (hc.digit 0 (by decide)).symm

theorem Outside.lacks_repr (hc : Outside c) (n : Nat) : Lacks c n.repr := by
  rw [Nat.repr_eq_ofList_toDigits, lacks_ofList]
  exact hc.notMem_toDigits (by decide) (by decide) n

namespace Hex

theorem lacks_padded (hc : Outside c) (width n : Nat) : Lacks c (padded width n) := by
  have hdigits : c ∉ Nat.toDigits 16 n := hc.notMem_toDigits (by decide) (by decide) n
  simp [padded, List.leftpad, hc.ne_zero, hdigits]

theorem lacks_number (hc : Outside c) (n : Nat) : Lacks c (number n) := by
  have hdigits : c ∉ Nat.toDigits 16 n := hc.notMem_toDigits (by decide) (by decide) n
  simp [number, digits, Lacks, hc.x, hc.ne_zero, hdigits]

theorem lacks_wide (hc : Outside c) (width n : Nat) : Lacks c (wide width n) := by
  rw [wide, lacks_append]
  exact ⟨by simp [Lacks, hc.x, hc.ne_zero], lacks_padded hc width n⟩

end Hex

/-- A code is shown by one of the names, or by its number. -/
theorem Names.lacks_orHex {α : Type} [BEq α] [LawfulBEq α] [Word α] {names : List (α × String)}
    (hc : Outside c) (hnames : ∀ p ∈ names, Lacks c p.2) (code : α) :
    Lacks c (orHex names code) := by
  rw [orHex]
  cases hname : names.lookup code with
  | none => exact Hex.lacks_number hc _
  | some name =>
    obtain ⟨before, later, hsplit, -⟩ := List.lookup_eq_some_iff.1 hname
    exact hnames (code, name) (by simp [hsplit])

/-- Flags are shown by their letters. -/
theorem Names.lacks_sectionFlags (hc : Outside c) (hletters : ∀ p ∈ sectionFlagLetters, p.2 ≠ c)
    (flags : UInt64) : Lacks c (sectionFlags flags) := by
  rw [sectionFlags, lacks_ofList, List.mem_append, not_or]
  constructor
  · rintro hmem
    obtain ⟨p, hp, rfl⟩ := List.mem_map.1 hmem
    exact hletters p (List.mem_filter.1 hp).1 rfl
  · split <;> simp [hc.x]

theorem Names.lacks_segmentFlags (hc : Outside c) (hletters : ∀ p ∈ segmentFlagLetters, p.2 ≠ c)
    (flags : UInt32) : Lacks c (segmentFlags flags) := by
  rw [segmentFlags, lacks_ofList]
  intro hmem
  obtain ⟨p, hp, heq⟩ := List.mem_map.1 hmem
  split at heq
  · exact hletters p hp heq
  · exact hc.blank heq.symm

end

theorem outside_lineEnd : Outside '\n' := ⟨by decide, by decide, by decide⟩

/-- Texts that start with different characters are different. -/
theorem ne_of_head? {c c' : Char} {s t : String} (hs : s.toList.head? = some c)
    (ht : t.toList.head? = some c') (hne : c ≠ c') : s ≠ t := by
  rintro rfl
  exact hne (Option.some.inj (hs.symm.trans ht))

namespace Lines

/-! ### Pieces between line ends -/

/-- The pieces between separators have no separator inside. -/
theorem notMem_of_mem_splitOn {α : Type} [BEq α] [LawfulBEq α] {sep : α} {as piece : List α}
    (h : piece ∈ as.splitOn sep) : sep ∉ piece := by
  -- a separator starts a new piece, any other element joins the first one
  induction as generalizing piece with
  | nil =>
    rw [List.splitOn_nil, List.mem_singleton] at h
    rw [h]
    exact List.not_mem_nil
  | cons a as ih =>
    rw [List.splitOn_cons_eq_if_modifyHead] at h
    split at h
    · rcases List.mem_cons.1 h with rfl | hrest
      · exact List.not_mem_nil
      · exact ih hrest
    · rename_i ha
      obtain ⟨first, rest, hsplit⟩ := List.exists_cons_of_ne_nil (List.splitOn_ne_nil sep as)
      rw [hsplit] at h ih
      rcases List.mem_cons.1 h with rfl | hrest
      · rw [List.mem_cons, not_or]
        exact ⟨fun heq => ha (by simp [heq]), ih List.mem_cons_self⟩
      · exact ih (List.mem_cons_of_mem first hrest)

/-- The pieces of a text between its line ends.  If the text ends with a line end, the last piece is
empty. -/
def split (text : String) : List String := (text.toList.splitOn '\n').map String.ofList

variable {s t piece : String} {lines : List String}

theorem split_append_lineEnd (s t : String) : split (s ++ "\n" ++ t) = split s ++ split t := by
  have hchars : (s ++ "\n" ++ t).toList = s.toList ++ '\n' :: t.toList := by simp
  rw [split, hchars, List.splitOn_append_cons_self, List.map_append]
  rfl

theorem split_of_lacks (h : Lacks '\n' s) : split s = [s] := by
  rw [split, List.splitOn_eq_singleton h, List.map_singleton, String.ofList_toList]

theorem text_cons (line : String) (lines : List String) :
    text (line :: lines) = line ++ "\n" ++ text lines := by
  rw [text, List.map_cons, String.join_cons]
  rfl

theorem text_singleton (line : String) : text [line] = line ++ "\n" := by
  rw [text_cons]
  exact String.append_empty

/-- **Each line gives its own pieces**, and the last line end an empty one. -/
theorem split_text (lines : List String) : split (text lines) = lines.flatMap split ++ [""] := by
  induction lines with
  | nil => rfl
  | cons line lines ih =>
    rw [text_cons, split_append_lineEnd, ih, List.flatMap_cons, List.append_assoc]

theorem flatMap_split_of_lacks (h : ∀ line ∈ lines, Lacks '\n' line) :
    lines.flatMap split = lines := by
  induction lines with
  | nil => rfl
  | cons line lines ih =>
    rw [List.forall_mem_cons] at h
    rw [List.flatMap_cons, split_of_lacks h.1, ih h.2, List.singleton_append]

/-- No piece has a line end inside. -/
theorem lacks_of_mem_split (h : piece ∈ split s) : Lacks '\n' piece := by
  obtain ⟨chars, hchars, rfl⟩ := List.mem_map.1 h
  exact lacks_ofList.2 (notMem_of_mem_splitOn hchars)

/-- Every text has at least one piece. -/
theorem length_le_length_flatMap_split (lines : List String) :
    lines.length ≤ (lines.flatMap split).length := by
  induction lines with
  | nil => exact Nat.le_refl 0
  | cons line lines ih =>
    have hpos : 0 < (split line).length := by
      rw [split, List.length_map]
      exact List.length_pos_iff.2 (List.splitOn_ne_nil _ _)
    rw [List.flatMap_cons, List.length_append, List.length_cons]
    omega

theorem flatMap_split_eq_self_iff :
    lines.flatMap split = lines ↔ ∀ line ∈ lines, Lacks '\n' line := by
  refine ⟨fun heq line hline => ?_, flatMap_split_of_lacks⟩
  rw [← heq] at hline
  obtain ⟨text, -, hpiece⟩ := List.mem_flatMap.1 hline
  exact lacks_of_mem_split hpiece

/-! ### Lines after a title -/

/-- The lines after the first one that is the title. -/
def after (title : String) (lines : List String) : List String :=
  (lines.dropWhile (· != title)).tail

/-- The lines after the first one that is the title, up to the next one that is `last`. -/
def between (title last : String) (lines : List String) : List String :=
  (after title lines).takeWhile (· != last)

variable {title last : String} {before rows rest : List String}

theorem after_append_cons (h : title ∉ before) (rest : List String) :
    after title (before ++ title :: rest) = rest := by
  have hskip : ∀ line ∈ before, (line != title) = true := by
    intro line hline
    exact bne_iff_ne.2 fun heq => h (heq ▸ hline)
  rw [after, List.dropWhile_append_of_pos hskip, List.dropWhile_cons_of_neg (by simp), List.tail_cons]

theorem between_append_cons (hbefore : title ∉ before) (hrows : last ∉ rows) (rest : List String) :
    between title last (before ++ title :: (rows ++ last :: rest)) = rows := by
  have htake : ∀ line ∈ rows, (line != last) = true := by
    intro line hline
    exact bne_iff_ne.2 fun heq => hrows (heq ▸ hline)
  rw [between, after_append_cons hbefore, List.takeWhile_append_of_pos htake,
    List.takeWhile_cons_of_neg (by simp), List.append_nil]

theorem after_subset (title : String) (lines : List String) : after title lines ⊆ lines :=
  fun _ h => (List.dropWhile_sublist _).subset (List.mem_of_mem_tail h)

theorem between_subset (title last : String) (lines : List String) :
    between title last lines ⊆ lines :=
  fun _ h => after_subset title lines ((List.takeWhile_sublist _).subset h)

/-- A title that comes twice has more after it than what follows the second time. -/
theorem length_lt_length_after (h : title ∈ before) (rest : List String) :
    rest.length < (after title (before ++ title :: rest)).length := by
  obtain ⟨earlier, later, rfl, hearlier⟩ := List.eq_append_cons_of_mem h
  rw [List.append_assoc, List.cons_append, after_append_cons hearlier]
  simp only [List.length_append, List.length_cons]
  omega

/-- The lines after a title are those that were written exactly if there is no such title before and
no line has a line end inside. -/
theorem after_eq_iff {shown : List String} :
    after title (before ++ title :: (shown.flatMap split ++ [""])) = shown ++ [""] ↔
      title ∉ before ∧ ∀ line ∈ shown, Lacks '\n' line := by
  rw [← flatMap_split_eq_self_iff]
  constructor
  · intro heq
    -- an earlier title would leave more lines than were written
    have hbefore : title ∉ before := by
      intro hmem
      have hlt := length_lt_length_after hmem (shown.flatMap split ++ [""])
      have hle := length_le_length_flatMap_split shown
      rw [heq, List.length_append, List.length_append] at hlt
      omega
    rw [after_append_cons hbefore] at heq
    exact ⟨hbefore, List.append_cancel_right heq⟩
  · rintro ⟨hbefore, hshown⟩
    rw [after_append_cons hbefore, hshown]

end Lines

/-- A single view is shown as it is. -/
theorem Decoded.render_of_tables {decoded : Decoded} {views : Views} {lines : List String}
    (h : decoded.tables views = [lines]) : decoded.render views = Lines.text lines := by
  rw [render, h, List.map_singleton, String.intercalate_singleton]

end ElfAnatomy
