import DecoratorVeil.Proofs.CommandLine.Reports
import DecoratorVeil.Proofs.CommandLine.Undisturbed
import DecoratorVeil.Proofs.Pipeline
import Mathlib

/-!
# Checking by workers

A check leaves the files as they are, so every worker finds its file as it was and its verdict does
not depend on the others.  The report lists the paths whose check is negative, as they were listed,
in whatever order the workers come to their verdicts.  It is printed by a console that reads paths
as markup: a path that closes a tag can end a check in which nothing is wrong.
-/

namespace DecoratorVeil.CommandLine

inductive CheckStage where
  | reading
  | checking (code : String)

/-- Checking in two steps: reading the file, and checking its text. -/
def checkSteps (session : Session) (options : FormatOptions) : Procedure CheckStage where
  first := .reading
  step files path
    | .reading => (fun code => .inl (.checking code)) <$>
        Pipeline.readSource (session.hostWith files) options path
    | .checking code => (fun verdict => .inr (verdict, files)) <$>
        session.pipeline.checkSource (session.hostWith files) options code path

variable {session : Session} {options : FormatOptions} {jobs : Nat} {paths : List String}

theorem checkSteps_performs (session : Session) (options : FormatOptions) :
    (checkSteps session options).Performs (checkWork session options) := by
  intro files path
  rw [checkWork, Pipeline.checkFile, Traced.bind_assoc]
  refine .bind rfl ?_ (by rintro code answer ⟨⟩)
  rintro code next ⟨⟩
  refine .bind rfl (by rintro verdict next ⟨⟩) ?_
  rintro verdict answer ⟨⟩
  rfl

theorem checkWork_eq_ok_iff {files after : FileSystem} {path : String} {verdict : Bool} :
    (checkWork session options files path).outcome = .ok (verdict, after) ↔
      (session.pipeline.checkFile (session.hostWith files) options path).outcome = .ok verdict ∧
        after = files := by
  change ((fun verdict => (verdict, files)) <$>
    session.pipeline.checkFile (session.hostWith files) options path).outcome = _ ↔ _
  rw [Traced.outcome_map, map_eq_ok_iff]
  constructor
  · rintro ⟨_, hcheck, ⟨⟩⟩
    exact ⟨hcheck, rfl⟩
  · rintro ⟨hcheck, rfl⟩
    exact ⟨verdict, hcheck, rfl⟩

theorem checkWork_eq_error_iff {files : FileSystem} {path : String} {failure : Failure} :
    (checkWork session options files path).outcome = .error failure ↔
      (session.pipeline.checkFile (session.hostWith files) options path).outcome =
        .error failure := by
  change ((fun verdict => (verdict, files)) <$>
    session.pipeline.checkFile (session.hostWith files) options path).outcome = _ ↔ _
  rw [Traced.outcome_map, map_eq_error_iff]

theorem steady_checkWork (session : Session) (options : FormatOptions) (files : FileSystem)
    (paths : List String) : Steady (checkWork session options) files paths :=
  fun _ _ _ _ houtcome => (checkWork_eq_ok_iff.1 houtcome).2

/-- The paths whose check is negative, as they are listed. -/
def unformatted (session : Session) (options : FormatOptions) (paths : List String) : List String :=
  paths.filter fun path =>
    decide ((session.pipeline.checkFile session.host options path).outcome = .ok false)

section Complete

variable {final : Crew CheckStage}
  (hrun : Crew.Run (checkSteps session options) jobs (.assembled session.host.files paths) final)
include hrun

theorem undisturbed_checkSteps : Undisturbed (checkSteps session options)
    (checkWork session options) session.host.files paths final :=
  hrun.undisturbed (checkSteps_performs session options) (steady_checkWork session options _ paths)

theorem checkFile_of_finished {path : String} {verdict : Bool}
    (hmem : (path, .finished verdict) ∈ final.workers) :
    (session.pipeline.checkFile session.host options path).outcome = .ok verdict :=
  (checkWork_eq_ok_iff.1 ((undisturbed_checkSteps hrun).onCourse _ hmem)).1

theorem checkFile_of_failed {path : String} {failure : Failure}
    (hmem : (path, .failed failure) ∈ final.workers) :
    (session.pipeline.checkFile session.host options path).outcome = .error failure :=
  checkWork_eq_error_iff.1 ((undisturbed_checkSteps hrun).onCourse _ hmem)

variable (hcomplete : final.Complete)
include hcomplete

/-- Some worker fails exactly if some file cannot be checked, whatever the order of the work. -/
theorem failed_iff_unchecked : final.Failed ↔ ∃ path ∈ paths, ∃ failure,
    (session.pipeline.checkFile session.host options path).outcome = .error failure := by
  constructor
  · rintro ⟨path, failure, hmem⟩
    exact ⟨path, hrun.paths_eq ▸ List.mem_map_of_mem hmem, failure, checkFile_of_failed hrun hmem⟩
  · rintro ⟨path, hpath, failure, hcheck⟩
    by_contra hfailed
    obtain ⟨index, verdict, hworker⟩ := hrun.exists_finished hpath hcomplete hfailed
    have hverdict := checkFile_of_finished hrun (List.mem_of_getElem? hworker)
    rw [hcheck] at hverdict
    cases hverdict

/-- Verdicts come in any order; the listed paths among the rejected ones are those whose check is
negative. -/
theorem rejected_eq_unformatted (hfailed : ¬ final.Failed) :
    final.batch.rejected paths = unformatted session options paths := by
  refine List.filter_congr fun path hpath => ?_
  rw [List.contains_eq_mem, decide_eq_decide,
    hrun.accounted.mem_verdicts_iff hcomplete hfailed]
  constructor
  · exact checkFile_of_finished hrun
  · intro hcheck
    obtain ⟨index, verdict, hworker⟩ := hrun.exists_finished hpath hcomplete hfailed
    have hmem := List.mem_of_getElem? hworker
    have hverdict := checkFile_of_finished hrun hmem
    obtain rfl : verdict = false := Except.ok.inj (hverdict.symm.trans hcheck)
    exact hmem

end Complete

theorem status_checkVerdict_eq_zero_iff {console : Console} {rejected : List String} :
    (checkVerdict console rejected).ending.status = 0 ↔ rejected = [] := by
  rw [checkVerdict, ← List.isEmpty_iff]
  split_ifs with hempty
  · exact iff_of_true rfl hempty
  · exact iff_of_false nofun hempty

/-- The report of a check, whatever the order of the work.  If all files can be checked it depends
on the paths whose check is negative, as they are listed, and on what the console makes of paths. -/
structure CheckedAlike (session : Session) (options : FormatOptions) (paths : List String)
    (final : Crew CheckStage) (report : Report) : Prop where
  failed : final.Failed ↔ ∃ path ∈ paths, ∃ failure,
    (session.pipeline.checkFile session.host options path).outcome = .error failure
  files : report.files = session.host.files
  /-- Nothing is said of any verdict if a worker has failed. -/
  unfinished : final.Failed → report.output = "" ∧ report.ending.status = 1
  rejected : ¬ final.Failed → final.batch.rejected paths = unformatted session options paths
  status : report.ending.status = 0 ↔ ¬ final.Failed ∧
    unformatted session options paths = [] ∧
    final.batch.displayError? session.console "checking" = none
  /-- A display that cannot be ended ends the run, and no verdict is told. -/
  undisplayed : ¬ final.Failed → ∀ error,
    final.batch.displayError? session.console "checking" = some error →
    report.output = "" ∧ report.ending = .exit 1 ∧ report.unread = some error
  told : ¬ final.Failed → final.batch.displayError? session.console "checking" = none →
    report.output =
      (checkVerdict session.console (unformatted session options paths)).output ∧
    report.ending =
      (checkVerdict session.console (unformatted session options paths)).ending ∧
    report.unread =
      (checkVerdict session.console (unformatted session options paths)).unread
  /-- All verdicts are told if the console can print the paths. -/
  listed : ¬ final.Failed → session.console.Ends "checking" paths → ∀ lines,
    session.console.Lists (unformatted session options paths) lines →
    report.output =
      (if (unformatted session options paths).isEmpty then "Perfect code style!\n"
      else "Code style issues found in the following files. Forgot to run Prettier?\n" ++
        String.join lines) ∧
    report.ending = .exit (if (unformatted session options paths).isEmpty then 0 else 1) ∧
    report.unread = none
  /-- The standard console prints plain paths as they are. -/
  plain : ¬ final.Failed → session.console = .standard →
    (∀ path ∈ paths, Console.Plain path) →
    report.output =
      (if (unformatted session options paths).isEmpty then "Perfect code style!\n"
      else "Code style issues found in the following files. Forgot to run Prettier?\n" ++
        String.join ((unformatted session options paths).map fun path =>
          "- \x27" ++ path ++ "\x27\n")) ∧
    report.ending = .exit (if (unformatted session options paths).isEmpty then 0 else 1) ∧
    report.unread = none

section Complete

variable {final : Crew CheckStage}
  (hrun : Crew.Run (checkSteps session options) jobs (.assembled session.host.files paths) final)
  (hcomplete : final.Complete)
include hrun hcomplete

theorem told_of_displayed (hfailed : ¬ final.Failed)
    (hdisplay : final.batch.displayError? session.console "checking" = none) :
    (checkReport session paths final.batch).output =
      (checkVerdict session.console (unformatted session options paths)).output ∧
    (checkReport session paths final.batch).ending =
      (checkVerdict session.console (unformatted session options paths)).ending ∧
    (checkReport session paths final.batch).unread =
      (checkVerdict session.console (unformatted session options paths)).unread := by
  rw [← rejected_eq_unformatted hrun hcomplete hfailed]
  exact Batch.report_of_success hdisplay (hrun.accounted.failure?_eq_none hcomplete hfailed)

theorem told_of_lists (hfailed : ¬ final.Failed) (hends : session.console.Ends "checking" paths)
    {lines : List String}
    (hlists : session.console.Lists (unformatted session options paths) lines) :
    (checkReport session paths final.batch).output =
      (if (unformatted session options paths).isEmpty then "Perfect code style!\n"
      else "Code style issues found in the following files. Forgot to run Prettier?\n" ++
        String.join lines) ∧
    (checkReport session paths final.batch).ending =
      .exit (if (unformatted session options paths).isEmpty then 0 else 1) ∧
    (checkReport session paths final.batch).unread = none := by
  obtain ⟨houtput, hending, hunread⟩ :=
    told_of_displayed hrun hcomplete hfailed (hrun.displayError?_eq_none hends)
  rw [houtput, hending, hunread, checkVerdict]
  split_ifs with hempty
  · exact ⟨rfl, rfl, rfl⟩
  · rw [rejectedLines_of_lists hlists]
    exact ⟨rfl, rfl, rfl⟩

theorem checkedAlike :
    CheckedAlike session options paths final (checkReport session paths final.batch) where
  failed := failed_iff_unchecked hrun hcomplete
  files := (undisturbed_checkSteps hrun).unchanged
  unfinished := hrun.unfinished hcomplete
  rejected := rejected_eq_unformatted hrun hcomplete
  status := by
    rw [checkReport, hrun.status_eq_zero_iff hcomplete, status_checkVerdict_eq_zero_iff]
    refine and_congr_right fun hfailed => ?_
    rw [rejected_eq_unformatted hrun hcomplete hfailed, and_comm]
  undisplayed _ _ herror := Batch.report_of_displayError herror
  told := told_of_displayed hrun hcomplete
  listed hfailed hends _ hlists := told_of_lists hrun hcomplete hfailed hends hlists
  plain := by
    intro hfailed hstandard hplain
    have hends : session.console.Ends "checking" paths :=
      hstandard ▸ Console.ends_standard_of_plain (by decide) hplain
    have hlists : session.console.Lists (unformatted session options paths)
        ((unformatted session options paths).map fun path => "- \x27" ++ path ++ "\x27\n") :=
      hstandard ▸ Console.lists_standard_of_plain fun path hpath =>
        hplain path (List.mem_of_mem_filter hpath)
    exact told_of_lists hrun hcomplete hfailed hends hlists

end Complete

/-- The report of a check does not depend on how its workers take turns, up to what the console
makes of the path that is finished last. -/
theorem check_schedule_independent (session : Session) (options : FormatOptions) (jobs : Nat)
    (paths : List String) :
    (0 < jobs → ∃ final : Crew CheckStage,
      Crew.Run (checkSteps session options) jobs (.assembled session.host.files paths) final ∧
      final.Complete ∧
      checkReport session paths final.batch = checkFiles session options jobs paths) ∧
    ∀ final : Crew CheckStage,
      Crew.Run (checkSteps session options) jobs (.assembled session.host.files paths) final →
      final.Complete →
      CheckedAlike session options paths final (checkReport session paths final.batch) := by
  constructor
  · intro hjobs
    obtain ⟨final, hrun, hcomplete, hbatch⟩ := Crew.exists_run_runAll hjobs
      (checkSteps_performs session options) session.host.files paths
    exact ⟨final, hrun, hcomplete, by rw [hbatch, checkFiles]⟩
  · exact fun final hrun hcomplete => checkedAlike hrun hcomplete

/-- A session with one file, in which every `y` gives way to a `z`. -/
def replacingSession : Session where
  host := ⟨⟨[(["b"], .file [0x79] false)]⟩, [], [], fun _ _ _ => ⟨[], [], 0⟩⟩
  reader := .constant (.container .source none [])
  formatter := .ok (.scripted (.replace [("y", "z")]))
  input := []
  interactive := false
  processors := 2

/-- Two workers on one file under two names; the second is the first to come to its verdict. -/
theorem exists_run_overtaking : ∃ final : Crew CheckStage,
    Crew.Run (checkSteps replacingSession ⟨none, none⟩) 2
      (.assembled replacingSession.host.files ["b", "./b"]) final ∧
    final.workers = [("b", .finished false), ("./b", .finished false)] ∧
    final.batch.notices =
      [.heard "./b" (.ok false), .heard "b" (.ok false), .ended (some "b")] := by
  have hread (path : String) (hpath : path = "b" ∨ path = "./b") :
      (checkSteps replacingSession ⟨none, none⟩).step replacingSession.host.files path .reading =
        ⟨[], .ok (.inl (.checking "y"))⟩ := by
    rcases hpath with rfl | rfl <;> cbv
  have hcheck (path : String) (hpath : path = "b" ∨ path = "./b") :
      (checkSteps replacingSession ⟨none, none⟩).step replacingSession.host.files path
          (.checking "y") =
        ⟨[.reading "y" "input.ts", .formatting "y" "/b" none],
          .ok (.inr (false, replacingSession.host.files))⟩ := by
    rcases hpath with rfl | rfl <;> cbv
  let events : List Event := [.reading "y" "input.ts", .formatting "y" "/b" none]
  refine ⟨⟨[("b", .finished false), ("./b", .finished false)], [],
    events ++ events, replacingSession.host.files,
    [.heard "./b" (.ok false), .heard "b" (.ok false), .ended (some "b")]⟩, ?_, rfl, rfl⟩
  refine .head (@Crew.Step.start _ _ _ _ 0 "b" rfl (by decide)) ?_
  refine .head (@Crew.Step.start _ _ _ _ 1 "./b" rfl (by decide)) ?_
  refine .head (@Crew.Step.advance _ _ _ _ 1 "./b" _ _ _ rfl (hread _ (.inr rfl))) ?_
  refine .head (@Crew.Step.advance _ _ _ _ 0 "b" _ _ _ rfl (hread _ (.inl rfl))) ?_
  refine .head (@Crew.Step.finish _ _ _ _ 1 "./b" _ _ _ _ rfl (hcheck _ (.inr rfl))) ?_
  refine .head (@Crew.Step.hear _ _ _ _ 0 "./b" _ rfl) ?_
  refine .head (@Crew.Step.finish _ _ _ _ 0 "b" _ _ _ _ rfl (hcheck _ (.inl rfl))) ?_
  refine .head (@Crew.Step.hear _ _ _ _ 0 "b" _ rfl) ?_
  exact .single (.close rfl (.inr ⟨by simp [Crew.put, Crew.announce, Crew.assembled,
    Worker.isSettled], rfl⟩))

/-- The paths are reported as they were listed, though the second verdict came first. -/
theorem check_schedule_independent_overtaking : ∃ final : Crew CheckStage,
    Crew.Run (checkSteps replacingSession ⟨none, none⟩) 2
      (.assembled replacingSession.host.files ["b", "./b"]) final ∧
    final.batch.verdicts = [("./b", false), ("b", false)] ∧
    (checkReport replacingSession ["b", "./b"] final.batch).output =
      "Code style issues found in the following files. Forgot to run Prettier?\n" ++
        "- \x27b\x27\n- \x27./b\x27\n" := by
  obtain ⟨final, hrun, hworkers, hnotices⟩ := exists_run_overtaking
  have hcomplete : final.Complete :=
    ⟨by simp [hworkers, Worker.isSettled], by rw [Batch.isClosed, hnotices]; rfl⟩
  have hfailed : ¬ final.Failed := by simp [Crew.Failed, hworkers]
  have hunformatted : unformatted replacingSession ⟨none, none⟩ ["b", "./b"] = ["b", "./b"] := by
    cbv
  have hplain : ∀ path ∈ ["b", "./b"], Console.Plain path := by
    intro path hpath
    rcases List.mem_pair.1 hpath with rfl | rfl
    · exact ⟨⟨by decide, by simp [Console.isDropped]⟩, by decide⟩
    · exact ⟨⟨by decide, by simp [Console.isDropped]⟩, by decide⟩
  have halike := (check_schedule_independent replacingSession ⟨none, none⟩ 2
    ["b", "./b"]).2 final hrun hcomplete
  refine ⟨final, hrun, by rw [Batch.verdicts, hnotices]; rfl,
    (halike.plain hfailed rfl hplain).1.trans ?_⟩
  rw [hunformatted]
  decide +kernel

/-- A session with a formatted file whose path closes a tag, and a file whose path starts with a
backslash. -/
def bracketSession : Session where
  host := ⟨⟨[(["["], .directory), (["[", "b]"], .file [0x61] false),
    (["\\[c"], .file [0x79] false)]⟩, [], [], fun _ _ _ => ⟨[], [], 0⟩⟩
  reader := .constant (.container .source none [])
  formatter := .ok (.scripted (.replace [("y", "z")]))
  input := []
  interactive := false
  processors := 2

/-- A backslash in front of a bracket is missing from the list. -/
theorem output_checkFiles_bracketSession :
    (checkFiles bracketSession ⟨none, none⟩ 2 ["\\[c"]).output =
      "Code style issues found in the following files. Forgot to run Prettier?\n" ++
        "- \x27[c\x27\n" := by
  obtain ⟨batch, hbatch⟩ : ∃ batch, runAll (checkWork bracketSession ⟨none, none⟩) 2
      (.start bracketSession.host.files) ["\\[c"] = batch := ⟨_, rfl⟩
  have hnotices : batch.notices = [.heard "\\[c" (.ok false), .ended (some "\\[c")] := by
    rw [← hbatch]
    cbv
  have hdisplay : batch.displayError? bracketSession.console "checking" = none := by
    rw [Batch.displayError?, hnotices]
    cbv
  have hfailure : batch.failure? = none := by
    rw [Batch.failure?, hnotices]
    rfl
  have hrejected : batch.rejected ["\\[c"] = ["\\[c"] := by
    rw [Batch.rejected, Batch.verdicts, hnotices]
    cbv
  have hlisted : bracketSession.console.listed "\\[c" = .ok "- \x27[c\x27\n" := by cbv
  rw [checkFiles, hbatch, checkReport, (Batch.report_of_success hdisplay hfailure).1, hrejected]
  simp only [checkVerdict, rejectedLines, hlisted]
  rfl

/-- A check of a formatted file can end with status one, and a path can be listed as another one. -/
theorem check_misreported :
    (∃ final : Crew CheckStage,
      Crew.Run (checkSteps bracketSession ⟨none, none⟩) 2
        (.assembled bracketSession.host.files ["[/b]"]) final ∧
      final.Complete ∧ ¬ final.Failed ∧
      unformatted bracketSession ⟨none, none⟩ ["[/b]"] = [] ∧
      (checkReport bracketSession ["[/b]"] final.batch).output = "" ∧
      (checkReport bracketSession ["[/b]"] final.batch).ending.status = 1) ∧
    unformatted bracketSession ⟨none, none⟩ ["\\[c"] = ["\\[c"] ∧
    (checkFiles bracketSession ⟨none, none⟩ 2 ["\\[c"]).output =
      "Code style issues found in the following files. Forgot to run Prettier?\n" ++
        "- \x27[c\x27\n" := by
  obtain ⟨final, hrun, hcomplete, hbatch⟩ := Crew.exists_run_runAll (Nat.succ_pos 1)
    (checkSteps_performs bracketSession ⟨none, none⟩) bracketSession.host.files ["[/b]"]
  have hnotices : final.batch.notices =
      [.heard "[/b]" (.ok true), .ended (some "[/b]")] := by
    rw [hbatch]
    cbv
  obtain ⟨error, herror⟩ : ∃ error,
      bracketSession.console.displayed "checking" (some "[/b]") = .error error := ⟨_, rfl⟩
  have hreport := @Batch.report_of_undisplayed final.batch _ _ ["[/b]"]
    (checkVerdict bracketSession.console) _ _ (by simp [hnotices]) herror
  refine ⟨⟨final, hrun, hcomplete, ?_, by cbv, hreport.1, congrArg Ending.status hreport.2⟩,
    by cbv, output_checkFiles_bracketSession⟩
  rw [failed_iff_unchecked hrun hcomplete]
  rintro ⟨path, hpath, failure, hcheck⟩
  have hpassed : (bracketSession.pipeline.checkFile bracketSession.host ⟨none, none⟩
      "[/b]").outcome = .ok true := by cbv
  rw [List.mem_singleton.1 hpath, hpassed] at hcheck
  cases hcheck

end DecoratorVeil.CommandLine
