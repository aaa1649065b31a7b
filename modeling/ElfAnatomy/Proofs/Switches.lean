import ElfAnatomy.CommandLine
import Mathlib.Data.List.TakeWhile

/-!
# Adding a switch to a command line

Arguments are read from left to right, and each of them acts on a draft of what the ones before it
have given.  None of them looks at a flag that it does not set itself, so a flag may be added to an
accepted command line without a change to anything else.

* `CommandLine.Draft.takeOne` : a single argument; `takeAll_cons` takes the first one apart.
* `CommandLine.Regular` : what a step on drafts does with a flag that was set before it.
* `CommandLine.regular_takeAll` : every list of arguments is such a step.
* `CommandLine.Adds` : one more argument, among those that can be flags: a switch for the verbosity.
* `CommandLine.TakesSwitches` : the law of a parser of command lines about such an argument.
* `CommandLine.takesSwitches_parse` : **the parser of this library obeys it.**
-/

namespace ElfAnatomy.CommandLine

/-! ### Single arguments -/

/-- Takes one argument. -/
def Draft.takeOne (d : Draft) (flagsEnded : Bool) (argument : String) : Except Stop Draft :=
  if flagsEnded then d.takePath argument
  else
    match argument.toList with
    | ['-', '-'] => .ok d
    | '-' :: '-' :: name => d.takeLong name
    | '-' :: c :: cs => d.takeLetters (c :: cs)
    | _ => d.takePath argument

/-- The flags have ended once this argument has been taken. -/
def endsFlags (flagsEnded : Bool) (argument : String) : Bool := flagsEnded || argument == "--"

theorem toList_eq_iff {argument : String} : argument.toList = ['-', '-'] ↔ argument = "--" := by
  rw [← String.toList_inj]
  rfl

theorem takeAll_cons (d : Draft) (flagsEnded : Bool) (argument : String) (rest : List String) :
    d.takeAll flagsEnded (argument :: rest) =
      d.takeOne flagsEnded argument >>= fun d => d.takeAll (endsFlags flagsEnded argument) rest := by
  rw [Draft.takeAll, Draft.takeOne, endsFlags]
  cases flagsEnded with
  | true => rfl
  | false =>
    by_cases hend : argument = "--"
    · subst hend
      rfl
    · have hopen : (false || argument == "--") = false := by simp [hend]
      rw [hopen]
      simp only [Bool.false_eq_true, if_false]
      split
      · rename_i h
        exact absurd (toList_eq_iff.1 h) hend
      -- the other shapes are told apart alike on both sides
      all_goals simp_all

/-! ### Steps on drafts -/

theorem bind_eq_ok_iff {α β : Type} {x : Except Stop α} {f : α → Except Stop β} {b : β} :
    x >>= f = .ok b ↔ ∃ a, x = .ok a ∧ f a = .ok b := by
  cases x <;> simp [bind, Except.bind]

/-- The second draft has one more flag than the first one. -/
structure Added (flag : Flag) (d d' : Draft) : Prop where
  path : d'.path = d.path
  flags : ∀ f, f ∈ d'.flags ↔ f = flag ∨ f ∈ d.flags

/-- A step that keeps what drafts hold, and that takes no notice of a flag unless it sets it. -/
structure Regular (step : Draft → Except Stop Draft) : Prop where
  flags : ∀ {d e}, step d = .ok e → d.flags ⊆ e.flags
  path : ∀ {d e path}, step d = .ok e → d.path = some path → e.path = some path
  added : ∀ {flag d d' e}, step d = .ok e → Added flag d d' → flag ∉ e.flags →
    ∃ e', step d' = .ok e' ∧ Added flag e e'

namespace Regular

theorem ok : Regular .ok where
  flags := by
    rintro d _ ⟨⟩
    exact fun _ => id
  path := by
    rintro d _ path ⟨⟩
    exact id
  added := by
    rintro flag d d' _ ⟨⟩ hadded -
    exact ⟨d', rfl, hadded⟩

/-- A step that takes nothing. -/
theorem of_stops {step : Draft → Except Stop Draft} (h : ∀ d e, step d ≠ .ok e) : Regular step where
  flags := fun hd => absurd hd (h _ _)
  path := fun hd => absurd hd (h _ _)
  added := fun hd => absurd hd (h _ _)

theorem error (stop : Stop) : Regular fun _ => .error stop := of_stops fun _ _ => nofun

/-- One step after another. -/
theorem bind {f g : Draft → Except Stop Draft} (hf : Regular f) (hg : Regular g) :
    Regular fun d => f d >>= g where
  flags := by
    intro d e h
    obtain ⟨c, hc, he⟩ := bind_eq_ok_iff.1 h
    exact List.Subset.trans (hf.flags hc) (hg.flags he)
  path := by
    intro d e path h hpath
    obtain ⟨c, hc, he⟩ := bind_eq_ok_iff.1 h
    exact hg.path he (hf.path hc hpath)
  added := by
    intro flag d d' e h hadded hnot
    obtain ⟨c, hc, he⟩ := bind_eq_ok_iff.1 h
    -- the flag has not been set halfway either
    obtain ⟨c', hc', hhalf⟩ := hf.added hc hadded fun hmem => hnot (hg.flags he hmem)
    obtain ⟨e', he', hend⟩ := hg.added he hhalf hnot
    exact ⟨e', bind_eq_ok_iff.2 ⟨c', hc', he'⟩, hend⟩

end Regular

/-- A flag is taken if the path is not empty and the flag is not set yet. -/
theorem take_flag_eq_ok_iff {d e : Draft} {flag : Flag} :
    d.take (.flag flag) = .ok e ↔
      d.path ≠ some "" ∧ flag ∉ d.flags ∧ e = { d with flags := flag :: d.flags } := by
  by_cases hpath : d.path = some ""
  · simp [Draft.take, Draft.checkPath, hpath, bind, Except.bind]
  · by_cases hflag : flag ∈ d.flags
    · simp [Draft.take, Draft.checkPath, hpath, hflag, bind, Except.bind]
    · simp [Draft.take, Draft.checkPath, hpath, hflag, bind, Except.bind, eq_comm]

theorem regular_take (switch : Switch) : Regular fun d => d.take switch := by
  have hstop : ∀ stop, Regular fun d => d.checkPath >>= fun _ => .error stop := by
    intro stop
    refine .of_stops fun d e h => ?_
    obtain ⟨_, -, h⟩ := bind_eq_ok_iff.1 h
    cases h
  cases switch with
  | help => exact hstop .help
  | version => exact hstop .version
  | flag other =>
    refine ⟨?_, ?_, ?_⟩
    · intro d e h
      obtain ⟨-, -, rfl⟩ := take_flag_eq_ok_iff.1 h
      exact List.subset_cons_self other d.flags
    · intro d e path h hpath
      obtain ⟨-, -, rfl⟩ := take_flag_eq_ok_iff.1 h
      exact hpath
    · intro flag d d' e h hadded hnot
      obtain ⟨hpath, hother, rfl⟩ := take_flag_eq_ok_iff.1 h
      obtain ⟨hne, -⟩ := not_or.1 (mt List.mem_cons.2 hnot)
      refine ⟨{ d' with flags := other :: d'.flags }, take_flag_eq_ok_iff.2 ⟨?_, ?_, rfl⟩, ?_, ?_⟩
      · rw [hadded.path]
        exact hpath
      · rw [hadded.flags]
        rintro (heq | hmem)
        · exact hne heq.symm
        · exact hother hmem
      · exact hadded.path
      · intro f
        simp only [List.mem_cons, hadded.flags]
        exact or_left_comm

theorem regular_takePath (path : String) : Regular fun d => d.takePath path := by
  have hnone : ∀ {d e : Draft}, d.takePath path = .ok e →
      d.path = none ∧ e = { d with path := some path } := by
    intro d e h
    unfold Draft.takePath at h
    split at h
    · cases h
    · rename_i hpath
      cases h
      exact ⟨hpath, rfl⟩
  refine ⟨?_, ?_, ?_⟩
  · intro d e h
    obtain ⟨-, rfl⟩ := hnone h
    exact fun _ => id
  · intro d e other h hother
    obtain ⟨hpath, -⟩ := hnone h
    rw [hpath] at hother
    cases hother
  · intro flag d d' e h hadded _
    obtain ⟨hpath, rfl⟩ := hnone h
    refine ⟨{ d' with path := some path }, ?_, rfl, hadded.flags⟩
    rw [Draft.takePath, hadded.path, hpath]

theorem regular_takeLong (name : List Char) : Regular fun d => d.takeLong name := by
  unfold Draft.takeLong
  split
  · exact .error _
  · split
    · exact .error _
    · exact regular_take _

theorem regular_takeLetters (cs : List Char) : Regular fun d => d.takeLetters cs := by
  induction cs with
  | nil => exact .ok
  | cons c cs ih =>
    simp only [Draft.takeLetters]
    split
    · exact .error _
    · exact (regular_take _).bind ih

theorem regular_takeOne (flagsEnded : Bool) (argument : String) :
    Regular fun d => d.takeOne flagsEnded argument := by
  unfold Draft.takeOne
  split
  · exact regular_takePath argument
  · split
    · exact .ok
    · exact regular_takeLong _
    · exact regular_takeLetters _
    · exact regular_takePath argument

/-- **Every list of arguments is a regular step.** -/
theorem regular_takeAll (flagsEnded : Bool) (arguments : List String) :
    Regular fun d => d.takeAll flagsEnded arguments := by
  induction arguments generalizing flagsEnded with
  | nil => exact .ok
  | cons argument rest ih =>
    simp only [takeAll_cons]
    exact (regular_takeOne flagsEnded argument).bind (ih _)

/-! ### One more switch -/

/-- The argument sets a flag: it is the letter or the long name of that flag. -/
inductive Spells (flag : Flag) (argument : String) : Prop
  | letter (c : Char) (h : argument.toList = ['-', c]) (hflag : letters.lookup c = some (.flag flag))
  | name (name : List Char) (h : argument.toList = '-' :: '-' :: name) (hvalue : '=' ∉ name)
      (hflag : longNames.lookup (String.ofList name) = some (.flag flag))

/-- The words that set a flag for the verbosity. -/
def verbosityWords : Flag → List String
  | .quiet => ["-q", "--quiet"]
  | .verbose => ["-v", "--verbose"]
  | _ => []

/-- The second list of arguments has one more, which sets a flag for the verbosity and comes before
the flags end. -/
inductive Adds (flag : Flag) : List String → List String → Prop
  | intro (before : List String) (word : String) (after : List String)
      (hword : word ∈ verbosityWords flag) (hopen : "--" ∉ before) :
      Adds flag (before ++ after) (before ++ word :: after)

/-- A switch for the verbosity can be added wherever the parser accepts a command line without one:
the flag is set then, and nothing else has changed. -/
def TakesSwitches (parse : List String → Except Stop Options) : Prop :=
  ∀ {flag arguments longer o}, Adds flag arguments longer → parse arguments = .ok o →
    .quiet ∉ o.flags → .verbose ∉ o.flags →
    ∃ o', parse longer = .ok o' ∧ o'.path = o.path ∧ ∀ f, f ∈ o'.flags ↔ f = flag ∨ f ∈ o.flags

theorem spells_of_mem_verbosityWords {flag : Flag} {word : String}
    (h : word ∈ verbosityWords flag) : Spells flag word := by
  cases flag with
  | quiet =>
    obtain rfl | rfl : word = "-q" ∨ word = "--quiet" := by simpa [verbosityWords] using h
    · exact .letter 'q' rfl rfl
    · exact .name ['q', 'u', 'i', 'e', 't'] rfl (by decide) rfl
  | verbose =>
    obtain rfl | rfl : word = "-v" ∨ word = "--verbose" := by simpa [verbosityWords] using h
    · exact .letter 'v' rfl rfl
    · exact .name ['v', 'e', 'r', 'b', 'o', 's', 'e'] rfl (by decide) rfl
  | _ => exact absurd h List.not_mem_nil

theorem Adds.quiet_or_verbose {flag : Flag} {arguments longer : List String}
    (h : Adds flag arguments longer) : flag = .quiet ∨ flag = .verbose := by
  obtain ⟨before, word, after, hword, hopen⟩ := h
  cases flag with
  | quiet => exact .inl rfl
  | verbose => exact .inr rfl
  | _ => exact absurd hword List.not_mem_nil

theorem Spells.takeOne {flag : Flag} {argument : String} (h : Spells flag argument) (d : Draft) :
    d.takeOne false argument = d.take (.flag flag) := by
  cases h with
  | letter c h hflag =>
    have hdash : c ≠ '-' := by
      rintro rfl
      cases hflag
    have hmatch : d.takeOne false argument = d.takeLetters [c] := by
      simp [Draft.takeOne, h, hdash]
    have htake : d.takeLetters [c] = d.take (.flag flag) >>= .ok := by
      simp only [Draft.takeLetters, hflag]
    rw [hmatch, htake]
    cases d.take (.flag flag) <;> rfl
  | name name h hvalue hflag =>
    have hname : name ≠ [] := by
      rintro rfl
      cases hflag
    have hmatch : d.takeOne false argument = d.takeLong name := by
      obtain ⟨c, cs, rfl⟩ := List.exists_cons_of_ne_nil hname
      simp [Draft.takeOne, h]
    have hall : name.takeWhile (· != '=') = name := by
      rw [List.takeWhile_eq_self_iff]
      intro c hc
      rw [bne_iff_ne]
      rintro rfl
      exact hvalue hc
    rw [hmatch, Draft.takeLong, hall, hflag]
    exact if_neg hvalue

theorem Spells.endsFlags {flag : Flag} {argument : String} (h : Spells flag argument) :
    endsFlags false argument = false := by
  have hne : argument ≠ "--" := by
    rintro rfl
    cases h with
    | letter c h hflag =>
      cases h
      cases hflag
    | name name h hvalue hflag =>
      cases h
      cases hflag
  simp [CommandLine.endsFlags, hne]

theorem takeAll_of_spells {flag : Flag} {argument : String} (hspells : Spells flag argument)
    {before after : List String} (hopen : "--" ∉ before) {d e : Draft}
    (h : d.takeAll false (before ++ after) = .ok e) (hflag : flag ∉ e.flags)
    (hpath : e.path ≠ some "") :
    ∃ e', d.takeAll false (before ++ argument :: after) = .ok e' ∧ Added flag e e' := by
  -- on the arguments before the new one: they come to the same draft
  induction before generalizing d with
  | nil =>
    have hregular := regular_takeAll false after
    have hempty : d.path ≠ some "" := fun hd => hpath (hregular.path h hd)
    have hnot : flag ∉ d.flags := fun hd => hflag (hregular.flags h hd)
    have hadded : Added flag d { d with flags := flag :: d.flags } :=
      ⟨rfl, fun f => List.mem_cons⟩
    obtain ⟨e', he', hend⟩ := hregular.added h hadded hflag
    refine ⟨e', ?_, hend⟩
    rw [List.nil_append, takeAll_cons, hspells.takeOne, hspells.endsFlags]
    exact bind_eq_ok_iff.2 ⟨_, take_flag_eq_ok_iff.2 ⟨hempty, hnot, rfl⟩, he'⟩
  | cons first before ih =>
    obtain ⟨hfirst, hopen⟩ := not_or.1 (mt List.mem_cons.2 hopen)
    have hends : endsFlags false first = false := by
      simp [CommandLine.endsFlags, Ne.symm hfirst]
    rw [List.cons_append, takeAll_cons, hends] at h ⊢
    obtain ⟨c, hc, hrest⟩ := bind_eq_ok_iff.1 h
    obtain ⟨e', he', hend⟩ := ih hopen hrest
    exact ⟨e', bind_eq_ok_iff.2 ⟨c, hc, he'⟩, hend⟩

/-! ### Options -/

/-- The options of a draft that is finished. -/
theorem finish_eq_ok_iff {d : Draft} {o : Options} :
    d.finish = .ok o ↔ d.path ≠ some "" ∧ d.conflicting = false ∧
      d.path = some o.path ∧ d.flags = o.flags := by
  obtain ⟨path, flags⟩ := o
  by_cases hempty : d.path = some ""
  · simp [Draft.finish, Draft.checkPath, hempty, bind, Except.bind]
  · cases hconflict : d.conflicting with
    | true => simp [Draft.finish, Draft.checkPath, hempty, hconflict, bind, Except.bind]
    | false =>
      cases hpath : d.path with
      | none => simp [Draft.finish, Draft.checkPath, hconflict, hpath, bind, Except.bind]
      | some p =>
        rw [hpath] at hempty
        simp [Draft.finish, Draft.checkPath, hconflict, hpath, hempty, bind, Except.bind]

/-- A flag for the verbosity adds no conflict where none is set. -/
theorem Added.conflicting {flag : Flag} {d d' : Draft} (h : Added flag d d')
    (hflag : flag = .quiet ∨ flag = .verbose) (hquiet : .quiet ∉ d.flags)
    (hverbose : .verbose ∉ d.flags) : d'.conflicting = d.conflicting := by
  have hcontains : ∀ f, d'.flags.contains f = (f == flag || d.flags.contains f) := by
    intro f
    rw [Bool.eq_iff_iff]
    simp [h.flags]
  have hno : ∀ f ∉ d.flags, d.flags.contains f = false := by simp
  simp only [Draft.conflicting, hcontains, hno _ hquiet, hno _ hverbose]
  rcases hflag with rfl | rfl
  · rfl
  · rfl

/-- **A switch for the verbosity can be added to a command line that has none.**  The options have
that flag too, and are the same otherwise. -/
theorem takesSwitches_parse : TakesSwitches parse := by
  intro flag arguments longer o hadds hparse hquiet hverbose
  have hflag := hadds.quiet_or_verbose
  obtain ⟨before, word, after, hword, hopen⟩ := hadds
  obtain ⟨e, htake, hfinish⟩ := bind_eq_ok_iff.1 hparse
  obtain ⟨hempty, hconflict, hpath, hflags⟩ := finish_eq_ok_iff.1 hfinish
  rw [← hflags] at hquiet hverbose
  have hnew : flag ∉ e.flags := by
    rcases hflag with rfl | rfl
    · exact hquiet
    · exact hverbose
  obtain ⟨e', htake', hadded⟩ :=
    takeAll_of_spells (spells_of_mem_verbosityWords hword) hopen htake hnew hempty
  refine ⟨⟨o.path, e'.flags⟩, bind_eq_ok_iff.2 ⟨e', htake', finish_eq_ok_iff.2 ⟨?_, ?_, ?_, rfl⟩⟩,
    rfl, ?_⟩
  · rw [hadded.path]
    exact hempty
  · rw [hadded.conflicting hflag hquiet hverbose]
    exact hconflict
  · exact hadded.path.trans hpath
  · rw [← hflags]
    exact hadded.flags

end ElfAnatomy.CommandLine
