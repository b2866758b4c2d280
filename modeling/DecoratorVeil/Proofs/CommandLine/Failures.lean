import DecoratorVeil.Proofs.CommandLine.Checking
import DecoratorVeil.Proofs.CommandLine.Printing
import DecoratorVeil.Proofs.CommandLine.WriteSteps
import DecoratorVeil.Proofs.Formatter.Command

/-!
# Failures on the console

A run that works on files reports the failures of the tool and of the file system: the path of the
first source that fails, and why.  Workers that fail later are reported too if they are still heard
of.  For the input only the failures of the tool are reported, so a formatter that the system
refuses to start ends a run on the input without a word.
-/

namespace DecoratorVeil.CommandLine

/-! ## Printing -/

section Printing

variable {session : Session} {options : FormatOptions}

theorem reportedOnly_printFiles {before : List String}
    (hbefore : ∀ path ∈ before, ∃ text,
      (session.pipeline.formatFile session.host options path).outcome = .ok text)
    {path : String} {failure : Failure}
    (hpath : (session.pipeline.formatFile session.host options path).outcome = .error failure)
    (hreported : isReported failure = true) (rest : List String) :
    ReportedOnly session.console path failure
      (printFiles session options (before ++ path :: rest)) := by
  obtain ⟨done, later, rfl, hdone, hlater⟩ := @exists_done session options before
  obtain rfl : later = [] := by
    cases later with
    | nil => rfl
    | cons next later =>
      obtain ⟨cause, hcause⟩ := hlater next rfl
      obtain ⟨text, htext⟩ := hbefore next (by simp)
      cases hcause.symm.trans htext
  rw [List.append_nil, printFiles_append_of_ok hdone, printFiles_of_error hpath]
  exact reportedOnly_of_failed hreported rfl rfl rfl

theorem isReported_of_printFiles {paths : List String} {failure : Failure}
    (h : (printFiles session options paths).ending = .escaped failure) :
    isReported failure = false := by
  obtain ⟨done, rest, rfl, hdone, hrest⟩ := @exists_done session options paths
  rw [printFiles_append_of_ok hdone] at h
  cases rest with
  | nil => cases h
  | cons path later =>
    obtain ⟨cause, hcause⟩ := hrest path rfl
    rw [printFiles_of_error hcause later] at h
    exact isReported_of_escaped h

end Printing

/-! ## Checking and writing -/

theorem isReported_of_report {batch : Batch} {console : Console} {task : String}
    {paths : List String} {finish : List String → Conclusion}
    (hfinish : ∀ rejected failure, (finish rejected).ending ≠ .escaped failure) {failure : Failure}
    (h : (batch.report console task paths finish).ending = .escaped failure) :
    isReported failure = false := by
  cases hdisplay : batch.displayError? console task with
  | some error =>
    rw [(Batch.report_of_displayError hdisplay).2.1] at h
    cases h
  | none =>
    cases hfailure : batch.failure? with
    | some first =>
      rw [(Batch.report_of_failure hdisplay hfailure).2.1] at h
      exact isReported_of_escaped h
    | none =>
      rw [(Batch.report_of_success hdisplay hfailure).2.1] at h
      exact absurd h (hfinish _ failure)

/-! ## The input -/

section Input

variable {session : Session} {options : FormatOptions} {path : String}

theorem isTool_of_runInput {failure : Failure}
    (h : (runInput session options path).ending = .escaped failure) : failure.isTool = false := by
  rw [runInput] at h
  split at h
  · cases h
  · rw [formatInput] at h
    split at h
    · cases h
    · rename_i cause _
      split at h
      · rename_i htool
        have hreported : isReported cause = true := by simp [isReported, htool]
        have hending : (failed session.console path cause).ending = .escaped failure := h
        rw [ending_failed_of_reported hreported] at hending
        cases hending
      · rename_i htool
        cases h
        exact Bool.eq_false_iff.2 htool

theorem formatInput_of_error {code : String} {failure : Failure}
    (hinput : inputText session.lineEnds session.input = .ok code)
    (hformat : (session.pipeline.formatSource session.host options code path).outcome =
      .error failure) :
    (formatInput session options path).toConclusion =
      if failure.isTool then failed session.console path failure
      else { ending := .escaped failure } := by
  have houtcome : (do
      let code ← Traced.ofExcept (inputText session.lineEnds session.input)
      session.pipeline.formatSource session.host options code path).outcome = .error failure := by
    rw [hinput, Traced.ofExcept_ok_bind]
    exact hformat
  rw [formatInput, houtcome]

theorem reportedOnly_runInput {code : String} {failure : Failure} (hpath : path.isEmpty = false)
    (hinput : inputText session.lineEnds session.input = .ok code)
    (hformat : (session.pipeline.formatSource session.host options code path).outcome =
      .error failure) (htool : failure.isTool = true) :
    ReportedOnly session.console path failure (runInput session options path) := by
  have hconclusion := formatInput_of_error hinput hformat
  rw [if_pos htool] at hconclusion
  rw [runInput, if_neg (by simp [hpath])]
  exact reportedOnly_of_failed (by simp [isReported, htool])
    (congrArg Conclusion.errors hconclusion) (congrArg Conclusion.ending hconclusion)
    (congrArg Conclusion.unread hconclusion)

end Input

theorem isTool_of_not_reported {failure : Failure} (h : isReported failure = false) :
    failure.isTool = false := by
  rw [isReported, Bool.or_eq_false_iff] at h
  exact h.1

theorem escaped_checkVerdict (console : Console) (rejected : List String) (failure : Failure) :
    (checkVerdict console rejected).ending ≠ .escaped failure := by
  unfold checkVerdict
  split <;> nofun

/-- What escapes from a run is no failure of the tool, and none of the file system if the run works
on files. -/
theorem escaped_run {session : Session} {request : Request} {formatter : Formatter}
    {failure : Failure} (hformatter : session.formatter = .ok formatter)
    (h : (run session request).ending = .escaped failure) :
    failure.isTool = false ∧ (request.files ≠ [] → isReported failure = false) := by
  rw [run, hformatter] at h
  cases hfiles : request.files with
  | nil =>
    refine ⟨?_, fun hne => absurd rfl hne⟩
    simp only [runReady, hfiles, List.isEmpty_nil, if_true] at h
    split at h
    · exact isTool_of_runInput h
    · split at h
      · cases h
      · exact isTool_of_runInput h
  | cons path rest =>
    have hreported : isReported failure = false := by
      simp only [runReady, hfiles, List.isEmpty_cons, Bool.false_eq_true, if_false] at h
      split_ifs at h
      · exact isReported_of_report (escaped_checkVerdict _) h
      · exact isReported_of_report (fun _ _ hescaped => Ending.noConfusion hescaped) h
      · exact isReported_of_printFiles h
    exact ⟨isTool_of_not_reported hreported, fun _ => hreported⟩

/-- What workers say of their failures: the one that is heard of first is reported, and all others
that are heard of are printed too. -/
structure FailuresTold {Stage : Type} (console : Console) (task : String) (paths : List String)
    (final : Crew Stage) (report : Report) : Prop where
  first : final.Failed → ∃ path ∈ paths, ∃ failure,
    final.batch.failure? = some (path, failure) ∧ (path, .failed failure) ∈ final.workers ∧
    (isReported failure = true →
      Reported console (final.batch.displayError? console task) report path failure)
  heard : ∀ path failure text, .heard path (.error failure) ∈ final.batch.notices →
    isReported failure = true → console.report path failure.message = .ok text →
    ∃ before after, report.errors = before ++ text ++ after
  /-- Nothing but the display can come in between. -/
  displayed : console.Ends task paths → final.batch.displayError? console task = none

theorem failuresTold {Stage : Type} {procedure : Procedure Stage} {jobs : Nat} {files : FileSystem}
    {paths : List String} {final : Crew Stage} {console : Console} {task : String}
    {finish : List String → Conclusion}
    (hrun : Crew.Run procedure jobs (.assembled files paths) final) (hcomplete : final.Complete) :
    FailuresTold console task paths final (final.batch.report console task paths finish) :=
  ⟨hrun.first_failure hcomplete, fun _ _ _ => Batch.errors_of_heard, hrun.displayError?_eq_none⟩

/-- Failures of the tool and of the file system are reported by every run on files, however its
workers take turns, and failures of the tool by every run on the input. -/
theorem failures_reported (session : Session) (options : FormatOptions) :
    (∀ before path rest failure,
      (∀ earlier ∈ before, ∃ text,
        (session.pipeline.formatFile session.host options earlier).outcome = .ok text) →
      (session.pipeline.formatFile session.host options path).outcome = .error failure →
      isReported failure = true →
      ReportedOnly session.console path failure
        (printFiles session options (before ++ path :: rest))) ∧
    (∀ jobs paths (final : Crew CheckStage),
      Crew.Run (checkSteps session options) jobs (.assembled session.host.files paths) final →
      final.Complete →
      (final.Failed ↔ ∃ path ∈ paths, ∃ failure,
        (session.pipeline.checkFile session.host options path).outcome = .error failure) ∧
      FailuresTold session.console "checking" paths final
        (checkReport session paths final.batch)) ∧
    (∀ jobs paths (final : Crew WriteStage),
      Crew.Run (writeSteps session options) jobs (.assembled session.host.files paths) final →
      final.Complete →
      FailuresTold session.console "formatting" paths final
        (writeReport session paths final.batch)) ∧
    (∀ path code failure, path.isEmpty = false →
      inputText session.lineEnds session.input = .ok code →
      (session.pipeline.formatSource session.host options code path).outcome = .error failure →
      failure.isTool = true →
      ReportedOnly session.console path failure (runInput session options path)) ∧
    (∀ request formatter failure, session.formatter = .ok formatter →
      (run session request).ending = .escaped failure →
      failure.isTool = false ∧ (request.files ≠ [] → isReported failure = false)) ∧
    (∀ path message, Console.Plain path → Console.Plain message →
      Console.standard.report path message = .ok (path ++ "\n" ++ message ++ "\n")) := by
  refine ⟨?_, ?_, ?_, ?_, ?_, ?_⟩
  · intro before path rest failure hbefore hpath hreported
    exact reportedOnly_printFiles hbefore hpath hreported rest
  · intro jobs paths final hrun hcomplete
    exact ⟨failed_iff_unchecked hrun hcomplete, failuresTold hrun hcomplete⟩
  · exact fun jobs paths final hrun hcomplete => failuresTold hrun hcomplete
  · exact fun path code failure => reportedOnly_runInput
  · exact fun request formatter failure => escaped_run
  · exact fun path message => Console.report_standard_of_plain

/-! ## A formatter that cannot be started -/

theorem outcome_formatSource_of_error {pipeline : Pipeline} {host : Host} {options : FormatOptions}
    {code path target marked : String} {formatter : Formatter} {failure : Failure}
    (htarget : host.resolve options.directory path = .ok target)
    (hmark : (markCode pipeline.reader code).outcome = .ok marked)
    (hbuild : pipeline.formatter = .ok formatter)
    (hformat : (formatter marked target options.config).outcome = .error failure) :
    (pipeline.formatSource host options code path).outcome = .error failure := by
  have hmarked : (pipeline.formatMarked code target options.config).outcome = .error failure := by
    simp only [Pipeline.formatMarked, Traced.outcome_bind, Traced.outcome_ofExcept, hmark, hbuild]
    change ((formatter marked target options.config).outcome >>= fun formatted =>
      .ok (marked, formatted)) = _
    rw [hformat]
    rfl
  rw [Pipeline.formatSource, Pipeline.resolvePath, htarget, Traced.ofExcept_ok_bind,
    Pipeline.formatCode_eq, hmarked]
  rfl

def unstartedSession : Session :=
  let host : Host := ⟨⟨[(["a"], .file [0x61] false), (["d"], .directory)]⟩, [], [],
    fun _ _ _ => ⟨[], [], 0⟩⟩
  { host := host
    reader := .constant (.container .source none [])
    formatter := Formatter.External.ofSetting host (some "./d")
    input := [0x61]
    interactive := false
    processors := 1 }

theorem formatter_unstartedSession : unstartedSession.formatter =
    .ok (Formatter.External.formatter unstartedSession.host ["./d"]) := by
  have hcommand : Formatter.External.commandWords (some "./d") = .ok ["./d"] := by cbv
  exact congrArg (Except.map (Formatter.External.formatter unstartedSession.host)) hcommand

theorem formatSource_unstartedSession : (unstartedSession.pipeline.formatSource
    unstartedSession.host ⟨none, none⟩ "a" "a").outcome =
      .error (.system .permissionDenied "./d") := by
  have htarget : unstartedSession.host.resolve none "a" = .ok "/a" := by cbv
  have hmark : (markCode unstartedSession.reader "a").outcome = .ok "a" := by cbv
  have hprogram : unstartedSession.host.findProgram "./d" = .error .permissionDenied := by cbv
  have hzero : (Formatter.External.arguments ["./d"] "/a" none).any FileSystem.hasZero =
      false := by cbv
  exact outcome_formatSource_of_error htarget hmark formatter_unstartedSession
    (Formatter.External.outcome_formatter_of_unstarted hzero
      (Formatter.External.attempt_of_unfound hprogram "a"))

/-- The source is named if it is a file. -/
theorem failures_reported_unstarted :
    (printFiles unstartedSession ⟨none, none⟩ ["a", "b"]).errors =
        "a\n[Errno 13] Permission denied: \x27./d\x27\n" ∧
      (printFiles unstartedSession ⟨none, none⟩ ["a", "b"]).unread = none ∧
      (printFiles unstartedSession ⟨none, none⟩ ["a", "b"]).ending = .exit 1 := by
  have hread : (Pipeline.readSource unstartedSession.host ⟨none, none⟩ "a").outcome =
      .ok "a" := by cbv
  have hformat : (unstartedSession.pipeline.formatFile unstartedSession.host ⟨none, none⟩
      "a").outcome = .error (.system .permissionDenied "./d") := by
    rw [Pipeline.formatFile, Traced.outcome_bind, hread]
    exact formatSource_unstartedSession
  obtain ⟨hprint, -⟩ := failures_reported unstartedSession ⟨none, none⟩
  have honly := hprint [] "a" ["b"] _ (by simp) hformat rfl
  have hpath : Console.Plain "a" := ⟨⟨by decide, by simp [Console.isDropped]⟩, by decide⟩
  have hreason : Console.Plain "[Errno 13] Permission denied: \x27./d\x27" :=
    ⟨⟨by decide, by simp [Console.isDropped]⟩, by decide⟩
  obtain ⟨herrors, hunread⟩ := honly.plain rfl hpath hreason
  exact ⟨herrors, hunread, honly.ending⟩

def pipedRequest : Request := ⟨[], false, false, none, some "a", none, false⟩

/-- The same failure escapes, and nothing is said, if the source is the input. -/
theorem input_failure_escapes :
    (unstartedSession.pipeline.formatSource unstartedSession.host ⟨none, none⟩ "a" "a").outcome =
        .error (.system .permissionDenied "./d") ∧
      inputText unstartedSession.lineEnds unstartedSession.input = .ok "a" ∧
      isReported (.system .permissionDenied "./d") = true ∧
      (run unstartedSession pipedRequest).errors = "" ∧
      (run unstartedSession pipedRequest).ending =
        .escaped (.system .permissionDenied "./d") := by
  have hinput : inputText unstartedSession.lineEnds unstartedSession.input = .ok "a" := by cbv
  have hrun : run unstartedSession pipedRequest =
      formatInput unstartedSession ⟨none, none⟩ "a" := by
    rw [run, formatter_unstartedSession]
    rfl
  have hconclusion := formatInput_of_error hinput formatSource_unstartedSession
  rw [hrun, hconclusion]
  exact ⟨formatSource_unstartedSession, hinput, rfl, rfl, rfl⟩

end DecoratorVeil.CommandLine
