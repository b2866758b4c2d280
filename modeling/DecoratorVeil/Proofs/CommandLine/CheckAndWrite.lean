import DecoratorVeil.Proofs.CommandLine.Checking
import DecoratorVeil.Proofs.CommandLine.Writing

/-!
# Checking and writing

A check with status zero has passed every file as it is.  Writing the same files finds every text
formatted already, so no worker fails and nothing is changed, however the workers of both take
turns.  Only the display of the path that is finished last may come in between, which need not be
the same path in both.
-/

namespace DecoratorVeil.CommandLine

section Requests

variable {session : Session} {options : FormatOptions} {path : String} {paths : List String}

/-- A check with status zero has passed every file. -/
theorem passed_of_status {jobs : Nat} {checked : Crew CheckStage}
    (hrun : Crew.Run (checkSteps session options) jobs (.assembled session.host.files paths)
      checked)
    (hcomplete : checked.Complete)
    (h : (checkReport session paths checked.batch).ending.status = 0) :
    ∀ path ∈ paths, (session.pipeline.checkFile session.host options path).outcome = .ok true := by
  obtain ⟨hfailed, hnone, -⟩ := (checkedAlike hrun hcomplete).status.1 h
  intro path hpath
  obtain ⟨index, verdict, hworker⟩ := hrun.exists_finished hpath hcomplete hfailed
  have hverdict := checkFile_of_finished hrun (List.mem_of_getElem? hworker)
  cases verdict with
  | true => exact hverdict
  | false => exact absurd (decide_eq_true hverdict) (List.filter_eq_nil_iff.1 hnone path hpath)

/-- Writing a file that passes the check leaves it as it is. -/
theorem writeWork_of_passed
    (hrestorable : ∀ text, (Pipeline.readSource session.host options path).outcome = .ok text →
      Restorable session.reader text)
    (h : (session.pipeline.checkFile session.host options path).outcome = .ok true) :
    (writeWork session options session.host.files path).outcome =
      .ok (true, session.host.files) := by
  obtain ⟨text, htext, hformat⟩ := Pipeline.formatFile_of_passed hrestorable h
  obtain ⟨resolved, bytes, hresolved, hread, hdecode⟩ := Pipeline.readSource_eq_ok htext
  have hbytes : Pipeline.readResolved session.host resolved = .ok bytes := by
    rw [Pipeline.readResolved, hread]
    rfl
  have hhost : session.hostWith session.host.files = session.host := rfl
  rw [outcome_writeWork, hhost, hformat, hresolved]
  change (Pipeline.readResolved session.host resolved >>= fun read => _) = _
  rw [hbytes]
  change (if Pipeline.decodeSource bytes == text then _ else _) = _
  rw [if_pos (by simp [hdecode])]
  rfl

end Requests

/-- What writing leaves of files that pass a check. -/
structure LeftAlone (session : Session) (paths : List String) (written : Crew WriteStage)
    (report : Report) : Prop where
  finished : ∀ worker ∈ written.workers, worker.2.isLost = false
  files : report.files = session.host.files
  status : report.ending.status = 0 ↔
    written.batch.displayError? session.console "formatting" = none
  ended : session.console.Ends "formatting" paths → report.ending.status = 0
  plain : session.console = .standard → (∀ path ∈ paths, Console.Plain path) →
    report.ending.status = 0

theorem leftAlone {session : Session} {options : FormatOptions} {paths : List String} {jobs : Nat}
    {written : Crew WriteStage}
    (hpassed : ∀ path ∈ paths, (writeWork session options session.host.files path).outcome =
      .ok (true, session.host.files))
    (hrun : Crew.Run (writeSteps session options) jobs (.assembled session.host.files paths)
      written)
    (hcomplete : written.Complete) :
    LeftAlone session paths written (writeReport session paths written.batch) := by
  have hsteady : Steady (writeWork session options) session.host.files paths := by
    intro path hpath verdict after houtcome
    cases (hpassed path hpath).symm.trans houtcome
    rfl
  have hundisturbed := hrun.undisturbed (writeSteps_performs session options) hsteady
  have hfailed : ¬ written.Failed := by
    rintro ⟨path, failure, hmem⟩
    have hpath : path ∈ paths := hrun.paths_eq ▸ List.mem_map_of_mem hmem
    cases (hpassed path hpath).symm.trans (hundisturbed.onCourse _ hmem)
  have hsafe := writtenSafely hrun hcomplete
  refine ⟨?_, hundisturbed.unchanged, hsafe.status.trans (and_iff_right hfailed),
    fun hends => (hsafe.ended hends).2 hfailed,
    fun hstandard hplain => (hsafe.plain hstandard hplain).2 hfailed⟩
  rintro ⟨path, worker⟩ hmem
  obtain ⟨verdict, rfl⟩ := hrun.accounted.finished hcomplete hfailed hmem
  rfl

/-- Checking and formatting agree on every text; and if a check ends with status zero, writing the
same files leaves them as they are, and ends with status zero if its display can be ended. -/
theorem check_agrees_with_format (session : Session) (options : FormatOptions)
    (paths : List String) :
    (∀ code path config, Pipeline.Agrees session.pipeline code path config) ∧
    ∀ (checkers writers : Nat) (checked : Crew CheckStage) (written : Crew WriteStage),
      Crew.Run (checkSteps session options) checkers (.assembled session.host.files paths) checked →
      checked.Complete →
      Crew.Run (writeSteps session options) writers (.assembled session.host.files paths) written →
      written.Complete →
      (∀ path ∈ paths, ∀ text, (Pipeline.readSource session.host options path).outcome = .ok text →
        Restorable session.reader text) →
      (checkReport session paths checked.batch).ending.status = 0 →
      LeftAlone session paths written (writeReport session paths written.batch) := by
  refine ⟨Pipeline.agrees session.pipeline, ?_⟩
  intro checkers writers checked written hchecked hchecks hwritten hwrites hrestorable hzero
  have hpassed := passed_of_status hchecked hchecks hzero
  exact leftAlone (fun path hpath => writeWork_of_passed (hrestorable path hpath)
    (hpassed path hpath)) hwritten hwrites

def brokenFiles : FileSystem :=
  ⟨[(["a"], .file [0x40, 0x61, 0xFF] false), (["b"], .link "a")]⟩

/-- A session in which every text is a function with a decorator of two characters. -/
def decoratedSession : Session where
  host := ⟨brokenFiles, [], [], fun _ _ _ => ⟨[], [], 0⟩⟩
  reader := .constant (.container .source none [.decorated .function none [⟨0, 2⟩]])
  formatter := .ok (.scripted .identity)
  input := []
  interactive := false
  processors := 1

theorem readSource_brokenFiles : ∀ path ∈ ["a", "b"],
    (Pipeline.readSource decoratedSession.host ⟨none, none⟩ path).outcome = .ok "@a\uFFFD" := by
  simp only [List.forall_mem_cons, List.not_mem_nil, false_implies, implies_true, and_true]
  exact ⟨by cbv, by cbv⟩

/-- Bytes that cannot be decoded are left alone, also when a file is named more than once. -/
theorem check_agrees_with_format_broken_file :
    ∃ (checked : Crew CheckStage) (written : Crew WriteStage),
      Crew.Run (checkSteps decoratedSession ⟨none, none⟩) 1
        (.assembled brokenFiles ["a", "b"]) checked ∧ checked.Complete ∧
      Crew.Run (writeSteps decoratedSession ⟨none, none⟩) 2
        (.assembled brokenFiles ["a", "b"]) written ∧ written.Complete ∧
      (checkReport decoratedSession ["a", "b"] checked.batch).ending.status = 0 ∧
      LeftAlone decoratedSession ["a", "b"] written
        (writeReport decoratedSession ["a", "b"] written.batch) := by
  obtain ⟨checked, hchecked, hchecks, hbatch⟩ := Crew.exists_run_runAll Nat.one_pos
    (checkSteps_performs decoratedSession ⟨none, none⟩) brokenFiles ["a", "b"]
  obtain ⟨written, hwritten, hwrites, -⟩ := Crew.exists_run_runAll Nat.two_pos
    (writeSteps_performs decoratedSession ⟨none, none⟩) brokenFiles ["a", "b"]
  have hzero : (checkReport decoratedSession ["a", "b"] checked.batch).ending.status = 0 := by
    rw [hbatch]
    cbv
  refine ⟨checked, written, hchecked, hchecks, hwritten, hwrites, hzero,
    (check_agrees_with_format decoratedSession ⟨none, none⟩ ["a", "b"]).2 1 2 checked written
      hchecked hchecks hwritten hwrites ?_ hzero⟩
  intro path hpath text htext
  obtain rfl : "@a\uFFFD" = text :=
    Except.ok.inj ((readSource_brokenFiles path hpath).symm.trans htext)
  have hlocate : (locate decoratedSession.reader "@a\uFFFD").outcome = .ok (some [⟨0, 2⟩]) := by
    decide +kernel
  refine ⟨by decide, fun ranges hranges => ?_⟩
  rw [hlocate] at hranges
  cases hranges
  decide

/-- A session with two formatted files; the path of the first closes a tag. -/
def overtakenSession : Session where
  host := ⟨⟨[(["["], .directory), (["[", "b]"], .file [0x61] false), (["z"], .file [0x61] false)]⟩,
    [], [], fun _ _ _ => ⟨[], [], 0⟩⟩
  reader := .constant (.container .source none [])
  formatter := .ok (.scripted .identity)
  input := []
  interactive := false
  processors := 2

/-- The second file is written first. -/
theorem exists_run_overtaken : ∃ written : Crew WriteStage,
    Crew.Run (writeSteps overtakenSession ⟨none, none⟩) 2
      (.assembled overtakenSession.host.files ["[/b]", "z"]) written ∧ written.Complete ∧
    (writeReport overtakenSession ["[/b]", "z"] written.batch).ending.status = 1 := by
  have hperforms := writeSteps_performs overtakenSession ⟨none, none⟩
  let secondEvents : List Event := [.reading "a" "input.ts", .formatting "a" "/z" none]
  let firstEvents : List Event := [.reading "a" "input.ts", .formatting "a" "/[/b]" none]
  have hsecond : writeWork overtakenSession ⟨none, none⟩ overtakenSession.host.files "z" =
      ⟨secondEvents, .ok (true, overtakenSession.host.files)⟩ := by cbv
  have hfirst : writeWork overtakenSession ⟨none, none⟩ overtakenSession.host.files "[/b]" =
      ⟨firstEvents, .ok (true, overtakenSession.host.files)⟩ := by cbv
  have hsecondTurn := @Crew.run_turn _ _ 2 _ Nat.two_pos hperforms [("[/b]", .waiting)] []
    (Crew.idle_waiting ["[/b]"]) (List.forall_mem_nil _) "z" (.start overtakenSession.host.files)
  have hfirstTurn := @Crew.run_turn _ _ 2 _ Nat.two_pos hperforms [] [("z", .finished true)]
    (List.forall_mem_nil _) (by simp [Crew.Idle, Worker.isBusy]) "[/b]"
    ⟨secondEvents, overtakenSession.host.files, [.heard "z" (.ok true)]⟩
  obtain ⟨error, herror⟩ : ∃ error,
      overtakenSession.console.displayed "formatting" (some "[/b]") = .error error := ⟨_, rfl⟩
  rw [Batch.start, hsecond] at hsecondTurn
  rw [hfirst] at hfirstTurn
  refine ⟨⟨[("[/b]", .finished true), ("z", .finished true)], [], secondEvents ++ firstEvents,
    overtakenSession.host.files,
    [.heard "z" (.ok true), .heard "[/b]" (.ok true), .ended (some "[/b]")]⟩,
    (hsecondTurn.trans hfirstTurn).tail (.close rfl (.inr ⟨?_, rfl⟩)), ⟨?_, rfl⟩,
    congrArg Ending.status (Batch.report_of_undisplayed (by simp) herror).2⟩
  · simp [Worker.ofResult, resultOf, Except.map, Worker.isSettled]
  · simp [Worker.isSettled]

theorem restorable_overtakenSession : ∀ path ∈ ["[/b]", "z"], ∀ text,
    (Pipeline.readSource overtakenSession.host ⟨none, none⟩ path).outcome = .ok text →
      Restorable overtakenSession.reader text := by
  have hread : ∀ path ∈ ["[/b]", "z"],
      (Pipeline.readSource overtakenSession.host ⟨none, none⟩ path).outcome = .ok "a" := by
    simp only [List.forall_mem_cons, List.not_mem_nil, false_implies, implies_true, and_true]
    exact ⟨by cbv, by cbv⟩
  have hlocate : (locate overtakenSession.reader "a").outcome = .ok (some []) := by
    decide +kernel
  intro path hpath text htext
  obtain rfl : "a" = text := Except.ok.inj ((hread path hpath).symm.trans htext)
  refine ⟨by decide, fun ranges hranges => ?_⟩
  rw [hlocate] at hranges
  cases hranges
  decide

/-- A check may end with the second file, and writing with the first: then the check has status zero
and writing has not, though it leaves the files alone. -/
theorem check_disagrees_with_write :
    (∀ path ∈ ["[/b]", "z"], ∀ text,
      (Pipeline.readSource overtakenSession.host ⟨none, none⟩ path).outcome = .ok text →
        Restorable overtakenSession.reader text) ∧
    ∃ (checked : Crew CheckStage) (written : Crew WriteStage),
      Crew.Run (checkSteps overtakenSession ⟨none, none⟩) 1
        (.assembled overtakenSession.host.files ["[/b]", "z"]) checked ∧ checked.Complete ∧
      Crew.Run (writeSteps overtakenSession ⟨none, none⟩) 2
        (.assembled overtakenSession.host.files ["[/b]", "z"]) written ∧ written.Complete ∧
      (checkReport overtakenSession ["[/b]", "z"] checked.batch).ending.status = 0 ∧
      (writeReport overtakenSession ["[/b]", "z"] written.batch).ending.status = 1 := by
  obtain ⟨checked, hchecked, hchecks, hbatch⟩ := Crew.exists_run_runAll Nat.one_pos
    (checkSteps_performs overtakenSession ⟨none, none⟩) overtakenSession.host.files ["[/b]", "z"]
  obtain ⟨written, hwritten, hwrites, hending⟩ := exists_run_overtaken
  refine ⟨restorable_overtakenSession, checked, written, hchecked, hchecks, hwritten, hwrites, ?_,
    hending⟩
  rw [hbatch]
  cbv

end DecoratorVeil.CommandLine
