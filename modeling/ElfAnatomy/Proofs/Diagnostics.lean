import ElfAnatomy.Proofs.ExitStatus
import ElfAnatomy.Proofs.Measured
import ElfAnatomy.Proofs.Switches

/-!
# Diagnostics and output

An inspection comes to everything that could be told, and only then leaves out what the verbosity
does not admit.  So the verbosity has no say in the output or the status.

* `Options.SameRequest` : options that differ in verbosity alone; they lead to the same inspection.
* `Ending.shown` : an ending at a verbosity.
* `Inspection.Reported`, `Ending.Fails` : what is told about a failure, and where.
* `Inspection.fails_full` : an inspection that fails tells so.
* `Inspection.exists_of_status_eq_zero` : what there is to tell when nothing fails.
* `Image.warnings` : a line for each segment with more bytes in the file than in memory.
* `separated_inspect` : **diagnostics never leak into the output**.

A path may have a line end in it, and then a line of the text need not be one that is told.  So the
lines are those of the notices, and do not come from splitting the text.
-/

namespace ElfAnatomy

/-! ### The same inspection at another verbosity -/

/-- The second options differ from the first ones in flags for the verbosity alone. -/
structure Options.SameRequest (o o' : Options) : Prop where
  path : o'.path = o.path
  has : ∀ f, f ≠ .quiet → f ≠ .verbose → o'.has f = o.has f

namespace Options.SameRequest

variable {o o' : Options}

theorem depth (h : o.SameRequest o') : o'.depth = o.depth := by
  simp (disch := decide) only [Options.depth, h.has]

theorem views (h : o.SameRequest o') : o'.views = o.views := by
  simp (disch := decide) only [Options.views, h.has]

theorem output (h : o.SameRequest o') (write : Json → String) :
    Inspection.output write o' = Inspection.output write o := by
  funext decoded
  simp (disch := decide) only [Inspection.output, h.has, h.views, h.path]

/-- **An inspection depends on what is asked for**, and not on how much is to be told. -/
theorem full (h : o.SameRequest o') (host : Host) :
    Inspection.full host o' = Inspection.full host o := by
  rw [Inspection.full, Inspection.full, h.path]
  cases host.opened o.path with
  | error cause => simp only [Inspection.ofOpenError, h.path, h.depth]
  | ok device => simp only [Inspection.ofRun, h.path, h.depth, h.output]

end Options.SameRequest

/-! ### Failures -/

namespace Inspection

/-- The run that the options ask for fails with a cause. -/
def RunFails (o : Options) (device : Device) (cause : DecodeError) : Prop :=
  if .headerOnly ∈ o.flags then (Decoder.decodeHeader { device }).1 = .error cause
  else (Decoder.decode { device }).1 = .error cause

/-- The report of a failure: what cannot be done, with the file at which path, and why.  Trouble
with the device is told twice, as a cause of failure and as what is behind that cause. -/
inductive Reported (o : Options) : Except OpenError Device → String → Prop
  | unopened (cause : OpenError) :
      Reported o (.error cause) ("error: failed to open " ++ o.path ++ ": " ++
        (cause.text ++ " (os error " ++ cause.code.repr ++ ")"))
  | undecoded (device : Device) (cause : DecodeError) (hfails : RunFails o device cause)
      (hkind : ∀ behind, cause ≠ .device behind) :
      Reported o (.ok device) ("error: failed to decode " ++ o.path ++ ": " ++ cause.message)
  | unread (device : Device) (behind : DeviceError) (hfails : RunFails o device (.device behind)) :
      Reported o (.ok device) ("error: failed to decode " ++ o.path ++ ": " ++
        ("I/O failure: " ++ behind.message ++ ": " ++ behind.message))

end Inspection

/-- The line starts like the report of a failure. -/
def ErrorLine (line : String) : Prop := "error: ".toList <+: line.toList

namespace Notice

/-- The notice is that of a failure. -/
def isError : Notice → Bool
  | .openFailed .. | .decodeFailed .. => true
  | _ => false

theorem shownAt_of_isError {n : Notice} (h : n.isError = true) (v : Verbosity) :
    n.shownAt v = true := by
  cases n with
  | openFailed path cause => rfl
  | decodeFailed path cause => rfl
  | _ => cases h

theorem not_errorLine_append (word rest : String) (h : word.toList.head?.any (· != 'e') = true) :
    ¬ErrorLine (word ++ rest) := by
  rintro ⟨later, heq⟩
  have hhead : (word ++ rest).toList.head? = some 'e' := by
    rw [← heq, List.head?_append]
    rfl
  rw [String.toList_append, List.head?_append] at hhead
  cases hword : word.toList.head? with
  | none =>
    rw [hword] at h
    cases h
  | some c =>
    rw [hword, Option.some_or] at hhead
    rw [hword, hhead] at h
    cases h

/-- Only the report of a failure starts like one. -/
theorem not_errorLine {n : Notice} (h : n.isError = false) (time : String) :
    ¬ErrorLine (n.line time) := by
  cases n with
  | openFailed path cause => cases h
  | decodeFailed path cause => cases h
  | decoding path depth =>
    show ¬ErrorLine ("decoding " ++ path ++ " (" ++ depth.label ++ ")")
    rw [String.append_assoc, String.append_assoc, String.append_assoc]
    exact not_errorLine_append "decoding " _ (by decide)
  | elapsed => exact not_errorLine_append "  decode took " time (by decide)
  | stopped stage failed =>
    cases failed with
    | false => exact not_errorLine_append "  reached stage: " stage.label (by decide)
    | true => exact not_errorLine_append "  failed after stage: " stage.label (by decide)
  | counts sections segments dependencies =>
    show ¬ErrorLine ("  " ++ sections.repr ++ " sections, " ++ segments.repr ++ " segments, "
      ++ dependencies.repr ++ " dependencies")
    rw [String.append_assoc, String.append_assoc, String.append_assoc, String.append_assoc,
      String.append_assoc]
    exact not_errorLine_append "  " _ (by decide)
  | anomaly a => exact not_errorLine_append "warning: " a.message (by decide)

end Notice

theorem Lines.text_concat (lines : List String) (last : String) :
    Lines.text (lines ++ [last]) = Lines.text lines ++ (last ++ "\n") := by
  simp [Lines.text, String.join, List.foldl_append]

namespace Ending

/-- An ending without the notices that a verbosity does not admit. -/
def shown (e : Ending) (v : Verbosity) : Ending :=
  { e with notices := e.notices.filter (Notice.shownAt v) }

/-- There is no output, and the diagnostics end with the report of a failure: of the lines that are
told, this is the last one and the only one that starts like a report. -/
structure Fails (e : Ending) (report : String) : Prop where
  output : e.output = ""
  diagnostics : ∀ time, ∃ earlier : List String,
    e.notices.map (Notice.line time) = earlier ++ [report] ∧
      e.diagnostics time = String.join (earlier.map (· ++ "\n")) ++ (report ++ "\n") ∧
      ErrorLine report ∧ ∀ line ∈ earlier, ¬ErrorLine line

variable {e : Ending}

/-- The last notice, but no other one, is that of a failure, and it has the words of the report. -/
structure Tells (e : Ending) (earlier : List Notice) (failure : Notice) (report : String) :
    Prop where
  output : e.output = ""
  notices : e.notices = earlier ++ [failure]
  isError : failure.isError = true
  noError : ∀ n ∈ earlier, n.isError = false
  words : ∀ time, failure.line time = report
  starts : ErrorLine report

namespace Tells

variable {earlier : List Notice} {failure : Notice} {report : String}

theorem fails (h : e.Tells earlier failure report) : e.Fails report where
  output := h.output
  diagnostics := by
    intro time
    have hlines : e.notices.map (Notice.line time) =
        earlier.map (Notice.line time) ++ [report] := by
      rw [h.notices, List.map_append, ← h.words time]
      rfl
    refine ⟨_, hlines, ?_, h.starts, ?_⟩
    · rw [Ending.diagnostics, hlines]
      exact Lines.text_concat _ _
    · intro line hline
      obtain ⟨n, hn, rfl⟩ := List.mem_map.1 hline
      exact Notice.not_errorLine (h.noError n hn) time

/-- The notice of a failure is shown at every verbosity. -/
theorem shown (h : e.Tells earlier failure report) (v : Verbosity) :
    (e.shown v).Tells (earlier.filter (Notice.shownAt v)) failure report where
  output := h.output
  notices := by
    show e.notices.filter _ = _
    rw [h.notices, List.filter_append, List.filter_singleton,
      Notice.shownAt_of_isError h.isError v, cond_true]
  isError := h.isError
  noError := fun n hn => h.noError n (List.mem_of_mem_filter hn)
  words := h.words
  starts := h.starts

end Tells

end Ending

namespace Inspection

variable {host : Host} {o : Options}

theorem run_eq_shown (host : Host) (o : Options) :
    run host o = (full host o).shown o.verbosity := rfl

theorem full_of_openError {cause : OpenError} (h : host.opened o.path = .error cause) :
    full host o = ofOpenError o cause := by
  rw [full, h]

theorem full_of_opened {device : Device} (h : host.opened o.path = .ok device) :
    full host o = ofRun host.write o (Decoder.decodeTo { device } o.depth) := by
  rw [full, h]

theorem runFails_of_decodeTo {device : Device} {cause : DecodeError}
    (h : (Decoder.decodeTo { device } o.depth).1 = .error cause) : RunFails o device cause := by
  by_cases hheader : .headerOnly ∈ o.flags
  · rw [o.depth_eq, if_pos hheader] at h
    rw [RunFails, if_pos hheader]
    exact map_eq_error_iff.1 h
  · rw [o.depth_eq, if_neg hheader] at h
    rw [RunFails, if_neg hheader]
    exact map_eq_error_iff.1 h

/-- The report of a run that fails has the words of its notice. -/
theorem exists_reported {device : Device} {cause : DecodeError} (h : RunFails o device cause) :
    ∃ report, Reported o (.ok device) report ∧ ErrorLine report ∧
      ∀ time, (Notice.decodeFailed o.path cause).line time = report := by
  by_cases hdevice : ∃ behind, cause = .device behind
  · obtain ⟨behind, rfl⟩ := hdevice
    exact ⟨_, .unread device behind h, by simp [ErrorLine], fun _ => rfl⟩
  · have hkind : ∀ behind, cause ≠ .device behind := fun behind heq => hdevice ⟨behind, heq⟩
    refine ⟨_, .undecoded device cause h hkind, by simp [ErrorLine], fun time => ?_⟩
    cases cause with
    | device behind => exact absurd rfl (hkind behind)
    | _ => rfl

/-- **An inspection that fails tells so once, and last.** -/
theorem fails_full (h : (full host o).status ≠ 0) :
    ∃ report, Reported o (host.opened o.path) report ∧
      ∃ earlier failure, (full host o).Tells earlier failure report := by
  cases hopened : host.opened o.path with
  | error cause =>
    rw [full_of_openError hopened]
    exact ⟨_, .unopened cause, [.decoding o.path o.depth], .openFailed o.path cause, rfl, rfl, rfl,
      by simp [Notice.isError], fun _ => rfl, by simp [ErrorLine]⟩
  | ok device =>
    rw [full_of_opened hopened] at h ⊢
    rcases hrun : Decoder.decodeTo { device } o.depth with ⟨cause | decoded, d⟩
    · obtain ⟨report, hreport, hstarts, hline⟩ :=
        exists_reported (runFails_of_decodeTo (o := o) (by rw [hrun]))
      exact ⟨report, hreport, [.decoding o.path o.depth, .elapsed, .stopped d.stage d.failed],
        .decodeFailed o.path cause, rfl, rfl, rfl, by simp [Notice.isError], hline, hstarts⟩
    · rw [hrun] at h
      exact absurd rfl h

end Inspection

/-! ### Successes -/

theorem DecodeError.status_ne_zero (e : DecodeError) : e.status ≠ 0 := by
  cases e <;> simp [status]

namespace Inspection

variable {host : Host} {o : Options}

/-- What there is to tell when nothing has failed. -/
theorem exists_of_status_eq_zero (h : (full host o).status = 0) :
    ∃ device decoded d, host.opened o.path = .ok device ∧
      Decoder.decodeTo { device } o.depth = (.ok decoded, d) ∧
      (full host o).notices = .decoding o.path o.depth :: .elapsed :: .stopped d.stage d.failed ::
        (decoded.image?.map imageNotices).getD [] := by
  cases hopened : host.opened o.path with
  | error cause =>
    rw [full_of_openError hopened] at h
    cases h
  | ok device =>
    rw [full_of_opened hopened] at h ⊢
    rcases hrun : Decoder.decodeTo { device } o.depth with ⟨cause | decoded, d⟩
    · rw [hrun] at h
      exact absurd h cause.status_ne_zero
    · exact ⟨device, decoded, d, rfl, hrun, rfl⟩

/-- Quiet inspections tell nothing then. -/
theorem notices_quiet (h : (full host o).status = 0) :
    ((full host o).shown .quiet).notices = [] := by
  obtain ⟨device, decoded, d, -, -, hnotices⟩ := exists_of_status_eq_zero h
  rw [Ending.shown, hnotices]
  cases decoded <;> simp [Decoded.image?, imageNotices, Notice.shownAt]

/-- Other ones tell the anomalies. -/
theorem exists_notices_normal (h : (full host o).status = 0) :
    ∃ device decoded, host.opened o.path = .ok device ∧
      (Decoder.decodeTo { device } o.depth).1 = .ok decoded ∧
      ((full host o).shown .normal).notices =
        (decoded.image?.map fun image => image.anomalies.map .anomaly).getD [] := by
  obtain ⟨device, decoded, d, hopened, hrun, hnotices⟩ := exists_of_status_eq_zero h
  refine ⟨device, decoded, hopened, by rw [hrun], ?_⟩
  rw [Ending.shown, hnotices]
  cases decoded <;> simp [Decoded.image?, imageNotices, Notice.shownAt]

end Inspection

/-- The warnings about an image: a line for each segment with more bytes in the file than in memory,
in table order. -/
def Image.warnings (image : Image) : List String :=
  image.segments.zipIdx.filterMap fun p =>
    if p.1.memsz < p.1.filesz then
      some ("warning: " ++ ("segment " ++ p.2.repr ++ ": file size " ++ Hex.number p.1.filesz.toNat
        ++ " exceeds memory size " ++ Hex.number p.1.memsz.toNat))
    else none

/-- A warning is what is told of an anomaly. -/
theorem Image.map_line_anomalies {image : Image}
    (h : image.anomalies = Anomaly.ofSegments image.segments) (time : String) :
    (image.anomalies.map Notice.anomaly).map (Notice.line time) = image.warnings := by
  rw [h, Anomaly.ofSegments, warnings, List.map_map, List.map_map]
  -- on the table of segments, with their indices
  induction image.segments.zipIdx with
  | nil => rfl
  | cons p ps ih =>
    by_cases hp : p.1.memsz < p.1.filesz
    · have hsuspicious : p.1.suspicious = true := decide_eq_true hp
      rw [List.filter_cons, if_pos hsuspicious, List.map_cons, ih, List.filterMap_cons, if_pos hp]
      rfl
    · have hplain : ¬p.1.suspicious = true := by simpa [ProgramHeader.suspicious] using hp
      rw [List.filter_cons, if_neg hplain, ih, List.filterMap_cons, if_neg hp]

/-! ### Three verbosities -/

namespace Inspection

variable {host : Host} {o : Options}

theorem diagnostics_quiet (h : (full host o).status = 0) (time : String) :
    ((full host o).shown .quiet).diagnostics time = "" := by
  rw [Ending.diagnostics, notices_quiet h]
  rfl

theorem diagnostics_normal_of_headerOnly (hheader : .headerOnly ∈ o.flags)
    (h : (full host o).status = 0) (time : String) :
    ((full host o).shown .normal).diagnostics time = "" := by
  obtain ⟨device, decoded, -, hrun, hnotices⟩ := exists_notices_normal h
  rw [o.depth_eq, if_pos hheader] at hrun
  obtain ⟨header, -, rfl⟩ := map_eq_ok_iff.1 hrun
  rw [Ending.diagnostics, hnotices]
  rfl

theorem exists_diagnostics_normal_of_full (hfull : .headerOnly ∉ o.flags)
    (h : (full host o).status = 0) :
    ∃ device image, host.opened o.path = .ok device ∧
      (Decoder.decode { device }).1 = .ok image ∧
      ∀ time, ((full host o).shown .normal).diagnostics time = Lines.text image.warnings := by
  obtain ⟨device, decoded, hopened, hrun, hnotices⟩ := exists_notices_normal h
  rw [o.depth_eq, if_neg hfull] at hrun
  obtain ⟨image, himage, rfl⟩ := map_eq_ok_iff.1 hrun
  refine ⟨device, image, hopened, himage, fun time => ?_⟩
  -- the image is that of some file, so its anomalies are those of its segments
  obtain ⟨whole, hwhole⟩ := Decoder.exists_decode_of_ok himage
  rw [Ending.diagnostics, hnotices]
  exact congrArg Lines.text (Image.map_line_anomalies (imageIn_of_decode hwhole).anomalies time)

/-- How three inspections of one file end that differ in verbosity alone: at the verbosity of the
options, which is the normal one, quiet, and verbose. -/
structure Separated (o : Options) (file : Except OpenError Device) (plain quiet verbose : Ending) :
    Prop where
  /-- Being quiet changes neither status nor output, -/
  same_quiet : quiet.status = plain.status ∧ quiet.output = plain.output
  /-- and being verbose changes neither of them. -/
  same_verbose : verbose.status = plain.status ∧ verbose.output = plain.output
  /-- A failure has no output, and the diagnostics end with its report. -/
  failed : plain.status ≠ 0 →
    ∃ report, Reported o file report ∧ plain.Fails report ∧ quiet.Fails report ∧
      verbose.Fails report
  /-- A quiet success has no diagnostics. -/
  silent : plain.status = 0 → ∀ time, quiet.diagnostics time = ""
  /-- Neither has a success with the header alone. -/
  header : plain.status = 0 → .headerOnly ∈ o.flags → ∀ time, plain.diagnostics time = ""
  /-- A success with everything has a warning for each suspicious segment. -/
  warnings : plain.status = 0 → .headerOnly ∉ o.flags →
    ∃ device image, file = .ok device ∧ (Decoder.decode { device }).1 = .ok image ∧
      ∀ time, plain.diagnostics time = String.join (image.warnings.map (· ++ "\n"))

theorem separated_shown (host : Host) (o : Options) :
    Separated o (host.opened o.path) ((full host o).shown .normal) ((full host o).shown .quiet)
      ((full host o).shown .verbose) where
  same_quiet := ⟨rfl, rfl⟩
  same_verbose := ⟨rfl, rfl⟩
  failed := by
    intro h
    obtain ⟨report, hreport, earlier, failure, htells⟩ := fails_full h
    exact ⟨report, hreport, (htells.shown _).fails, (htells.shown _).fails, (htells.shown _).fails⟩
  silent := diagnostics_quiet
  header := fun h hheader => diagnostics_normal_of_headerOnly hheader h
  warnings := fun h hfull => exists_diagnostics_normal_of_full hfull h

/-- A switch for the verbosity leads to the same inspection, of which more or less is told. -/
theorem inspect_of_adds (hhost : CommandLine.TakesSwitches host.parse) {flag : Flag}
    {arguments longer : List String} (hadds : CommandLine.Adds flag arguments longer)
    (hparse : host.parse arguments = .ok o) (hquiet : .quiet ∉ o.flags)
    (hverbose : .verbose ∉ o.flags) :
    inspect host longer =
      .ok ((full host o).shown (.ofSwitches (.quiet == flag) (.verbose == flag))) := by
  obtain ⟨o', hparse', hpath, hflags⟩ := hhost hadds hparse hquiet hverbose
  have hhas : ∀ f, o'.has f = (f == flag || o.has f) := by
    intro f
    rw [Bool.eq_iff_iff, Options.has_eq_true_iff, hflags]
    simp [Options.has_eq_true_iff]
  have hsame : o.SameRequest o' := by
    refine ⟨hpath, fun f hq hv => ?_⟩
    have hne : (f == flag) = false := by
      rcases hadds.quiet_or_verbose with rfl | rfl
      · simpa using hq
      · simpa using hv
    rw [hhas, hne, Bool.false_or]
  have hverbosity : o'.verbosity = .ofSwitches (.quiet == flag) (.verbose == flag) := by
    rw [Options.verbosity, hhas, hhas, Options.has_eq_false_iff.2 hquiet,
      Options.has_eq_false_iff.2 hverbose, Bool.or_false, Bool.or_false]
  rw [inspect_of_parse hparse', run_eq_shown, hsame.full, hverbosity]

end Inspection

/-- **Diagnostics never leak into the output.**  A command line without switches for the verbosity,
and the same one with a switch to be quiet or to be verbose, lead to the same status and output,
whether there is a file and whatever is in it, on every host that takes these switches. -/
theorem separated_inspect (host : Host) (hhost : CommandLine.TakesSwitches host.parse)
    (arguments quietly verbosely : List String) (o : Options)
    (hparse : host.parse arguments = .ok o) (hquiet : .quiet ∉ o.flags)
    (hverbose : .verbose ∉ o.flags) (hquietly : CommandLine.Adds .quiet arguments quietly)
    (hverbosely : CommandLine.Adds .verbose arguments verbosely) :
    ∃ plain quiet verbose, Inspection.inspect host arguments = .ok plain ∧
      Inspection.inspect host quietly = .ok quiet ∧
      Inspection.inspect host verbosely = .ok verbose ∧
      Inspection.Separated o (host.opened o.path) plain quiet verbose := by
  refine ⟨_, _, _, ?_, Inspection.inspect_of_adds hhost hquietly hparse hquiet hverbose,
    Inspection.inspect_of_adds hhost hverbosely hparse hquiet hverbose,
    Inspection.separated_shown host o⟩
  have hnormal : o.verbosity = .normal := by
    rw [Options.verbosity, Options.has_eq_false_iff.2 hquiet, Options.has_eq_false_iff.2 hverbose]
    rfl
  rw [Inspection.inspect_of_parse hparse, Inspection.run_eq_shown, hnormal]

/-- A file whose only segment has more bytes in the file than in memory. -/
def suspiciousFile : Bytes := sampleFile.set 110 0

/-- The image of that file. -/
def suspiciousImage : Image :=
  { sampleImage with
    segments := sampleImage.segments.map fun p => { p with memsz := 40 }
    anomalies := [⟨0, 296, 40⟩] }

theorem decode_suspiciousFile : decode suspiciousFile = .ok suspiciousImage := by
  rw [decode_eq_outcome]
  decide +kernel

theorem separated_inspect_sample :
    CommandLine.parse ["-S", "/bin/a"] = .ok ⟨"/bin/a", [.sections]⟩ ∧
      CommandLine.Adds .quiet ["-S", "/bin/a"] ["-S", "/bin/a", "-q"] ∧
      CommandLine.Adds .verbose ["-S", "/bin/a"] ["--verbose", "-S", "/bin/a"] ∧
      ∃ plain quiet verbose,
        Inspection.inspect (.withFile "/bin/a" suspiciousFile) ["-S", "/bin/a"] = .ok plain ∧
        Inspection.inspect (.withFile "/bin/a" suspiciousFile) ["-S", "/bin/a", "-q"] = .ok quiet ∧
        Inspection.inspect (.withFile "/bin/a" suspiciousFile) ["--verbose", "-S", "/bin/a"] =
          .ok verbose ∧
        plain.status = 0 ∧ verbose.output = plain.output ∧ quiet.diagnostics "1.0ms" = "" ∧
        plain.diagnostics "1.0ms" =
          "warning: segment 0: file size 0x128 exceeds memory size 0x28\n" := by
  have hquietly : CommandLine.Adds .quiet ["-S", "/bin/a"] ["-S", "/bin/a", "-q"] :=
    .intro ["-S", "/bin/a"] "-q" [] (by decide) (by decide)
  have hverbosely : CommandLine.Adds .verbose ["-S", "/bin/a"] ["--verbose", "-S", "/bin/a"] :=
    .intro [] "--verbose" ["-S", "/bin/a"] (by decide) (by decide)
  have hopened := Host.opened_withFile "/bin/a" suspiciousFile
  obtain ⟨plain, quiet, verbose, hplain, hquiet, hverbose, hsep⟩ := separated_inspect
    (.withFile "/bin/a" suspiciousFile) CommandLine.takesSwitches_parse ["-S", "/bin/a"]
    ["-S", "/bin/a", "-q"] ["--verbose", "-S", "/bin/a"] ⟨"/bin/a", [.sections]⟩ rfl (by decide)
    (by decide) hquietly hverbosely
  have hstatus : plain.status = 0 := by
    rw [Inspection.inspect_of_parse (o := ⟨"/bin/a", [.sections]⟩) rfl] at hplain
    rw [← Except.ok.inj hplain, Inspection.status_run_of_full hopened (by decide),
      decode_suspiciousFile]
    rfl
  obtain ⟨device, image, hfile, himage, htext⟩ := hsep.warnings hstatus (by decide)
  cases hopened.symm.trans hfile
  cases decode_suspiciousFile.symm.trans himage
  refine ⟨rfl, hquietly, hverbosely, plain, quiet, verbose, hplain, hquiet, hverbose, hstatus,
    hsep.same_verbose.2, hsep.silent hstatus _, (htext _).trans ?_⟩
  decide +kernel

end ElfAnatomy
