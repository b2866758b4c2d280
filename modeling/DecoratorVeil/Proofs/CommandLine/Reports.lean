import DecoratorVeil.Proofs.CommandLine.Console
import DecoratorVeil.Proofs.CommandLine.Workers

/-!
# Reports of workers

The report on workers that are done depends on three things: whether the progress display could be
brought to its end, which failure was heard of first, and what the verdicts are.
-/

namespace DecoratorVeil.CommandLine

namespace Batch

variable {batch : Batch} {console : Console} {task : String} {paths : List String}
  {finish : List String → Conclusion}

theorem report_of_displayError {error : Text.MarkupError}
    (h : batch.displayError? console task = some error) :
    (batch.report console task paths finish).output = "" ∧
      (batch.report console task paths finish).ending = .exit 1 ∧
      (batch.report console task paths finish).unread = some error := by
  rw [report, h]
  exact ⟨rfl, rfl, rfl⟩

/-- A display that cannot be ended with the file that was finished last takes the place of any other
end. -/
theorem report_of_undisplayed {last : Option String} {error : Text.MarkupError}
    (hended : .ended last ∈ batch.notices) (h : console.displayed task last = .error error) :
    (batch.report console task paths finish).output = "" ∧
      (batch.report console task paths finish).ending = .exit 1 := by
  have hsome : batch.displayError? console task ≠ none := by
    intro hnone
    have hlast := List.findSome?_eq_none_iff.1 hnone _ hended
    rw [Notice.displayError?, h] at hlast
    cases hlast
  obtain ⟨cause, hcause⟩ := Option.ne_none_iff_exists'.1 hsome
  obtain ⟨houtput, hending, -⟩ := @report_of_displayError _ _ _ paths finish _ hcause
  exact ⟨houtput, hending⟩

theorem report_of_failure {path : String} {failure : Failure}
    (hdisplay : batch.displayError? console task = none)
    (h : batch.failure? = some (path, failure)) :
    (batch.report console task paths finish).output = "" ∧
      (batch.report console task paths finish).ending = (failed console path failure).ending ∧
      (batch.report console task paths finish).unread = (failed console path failure).unread := by
  rw [report, hdisplay, h]
  exact ⟨output_failed console path failure, rfl, rfl⟩

theorem report_of_success (hdisplay : batch.displayError? console task = none)
    (h : batch.failure? = none) :
    (batch.report console task paths finish).output = (finish (batch.rejected paths)).output ∧
      (batch.report console task paths finish).ending = (finish (batch.rejected paths)).ending ∧
      (batch.report console task paths finish).unread = (finish (batch.rejected paths)).unread := by
  rw [report, hdisplay, h]
  exact ⟨rfl, rfl, rfl⟩

theorem status_report_eq_zero_iff : (batch.report console task paths finish).ending.status = 0 ↔
    batch.displayError? console task = none ∧ batch.failure? = none ∧
      (finish (batch.rejected paths)).ending.status = 0 := by
  cases hdisplay : batch.displayError? console task with
  | some error =>
    rw [(report_of_displayError hdisplay).2.1]
    simp [Ending.status]
  | none =>
    cases hfailure : batch.failure? with
    | some first =>
      rw [(report_of_failure hdisplay hfailure).2.1, status_failed]
      simp
    | none =>
      rw [(report_of_success hdisplay hfailure).2.1]
      simp

/-- Every failure that has been heard of is among what is printed, with what the console makes of
it. -/
theorem errors_of_heard {path text : String} {failure : Failure}
    (hheard : .heard path (.error failure) ∈ batch.notices) (hreported : isReported failure = true)
    (htext : console.report path failure.message = .ok text) :
    ∃ before after, (batch.report console task paths finish).errors = before ++ text ++ after := by
  obtain ⟨earlier, later, hnotices⟩ := List.append_of_mem hheard
  have hprinted : Notice.printed console task (.heard path (.error failure)) = text :=
    congrArg Conclusion.errors (failed_of_reported hreported htext)
  refine ⟨String.join (earlier.map (Notice.printed console task)),
    String.join (later.map (Notice.printed console task)), ?_⟩
  change String.join (batch.notices.map (Notice.printed console task)) = _
  rw [hnotices, List.map_append, List.map_cons, String.join_append, String.join_cons, hprinted,
    String.append_assoc]

/-- A display that can be ended with every listed path has no error if it shows one of them. -/
theorem displayError?_eq_none (hends : console.Ends task paths)
    (hshown : ∀ path, .ended (some path) ∈ batch.notices → path ∈ paths) :
    batch.displayError? console task = none := by
  rw [displayError?, List.findSome?_eq_none_iff]
  rintro (⟨path, result⟩ | last) hmem
  · rfl
  · obtain ⟨text, htext⟩ := hends last fun path hpath => hshown path (hpath ▸ hmem)
    rw [Notice.displayError?, htext]

end Batch

namespace Crew

variable {Stage : Type} {procedure : Procedure Stage} {jobs : Nat} {files : FileSystem}
  {paths : List String} {final : Crew Stage} {console : Console} {task : String}
  {finish : List String → Conclusion}
  (hrun : Run procedure jobs (assembled files paths) final)
include hrun

theorem Run.displayError?_eq_none (hends : console.Ends task paths) :
    final.batch.displayError? console task = none :=
  Batch.displayError?_eq_none hends fun path hpath =>
    hrun.paths_eq ▸ hrun.accounted.shown path hpath

theorem Run.status_eq_zero_iff (hcomplete : final.Complete) :
    (final.batch.report console task paths finish).ending.status = 0 ↔ ¬ final.Failed ∧
      final.batch.displayError? console task = none ∧
      (finish (final.batch.rejected paths)).ending.status = 0 := by
  have hfailed : final.batch.failure? = none ↔ ¬ final.Failed := by
    rw [hrun.accounted.failed_iff hcomplete]
    cases final.batch.failure? with
    | none => exact iff_of_true rfl nofun
    | some first => exact iff_of_false nofun (not_not_intro ⟨first.1, first.2, rfl⟩)
  rw [Batch.status_report_eq_zero_iff, hfailed, and_left_comm]

/-- Whatever the work and the order of its steps, the failure heard of first is reported. -/
theorem Run.first_failure (hcomplete : final.Complete) (hfailed : final.Failed) :
    ∃ path ∈ paths, ∃ failure, final.batch.failure? = some (path, failure) ∧
      (path, .failed failure) ∈ final.workers ∧
      (isReported failure = true →
        Reported console (final.batch.displayError? console task)
          (final.batch.report console task paths finish) path failure) := by
  obtain ⟨path, failure, hfailure⟩ := (hrun.accounted.failed_iff hcomplete).1 hfailed
  have hheard := Batch.heard_of_failure? hfailure
  have hmem := (hrun.accounted.told path (.error failure)).2 (.inl hheard)
  refine ⟨path, hrun.paths_eq ▸ List.mem_map_of_mem hmem, failure, hfailure, hmem, ?_⟩
  intro hreported
  cases hdisplay : final.batch.displayError? console task with
  | some error =>
    obtain ⟨-, hending, hunread⟩ := @Batch.report_of_displayError _ _ _ paths finish _ hdisplay
    exact ⟨fun text htext => ⟨Batch.errors_of_heard hheard hreported htext, hunread⟩, hending⟩
  | none =>
    obtain ⟨-, hending, hunread⟩ :=
      @Batch.report_of_failure _ _ _ paths finish _ _ hdisplay hfailure
    refine ⟨fun text htext => ⟨Batch.errors_of_heard hheard hreported htext, ?_⟩, ?_⟩
    · rw [hunread, failed_of_reported hreported htext]
    · rw [hending, ending_failed_of_reported hreported]

/-- After a failure nothing is said of any verdict. -/
theorem Run.unfinished (hcomplete : final.Complete) (hfailed : final.Failed) :
    (final.batch.report console task paths finish).output = "" ∧
      (final.batch.report console task paths finish).ending.status = 1 := by
  obtain ⟨path, failure, hfailure⟩ := (hrun.accounted.failed_iff hcomplete).1 hfailed
  cases hdisplay : final.batch.displayError? console task with
  | some error =>
    obtain ⟨houtput, hending, -⟩ := @Batch.report_of_displayError _ _ _ paths finish _ hdisplay
    rw [houtput, hending]
    exact ⟨rfl, rfl⟩
  | none =>
    obtain ⟨houtput, hending, -⟩ :=
      @Batch.report_of_failure _ _ _ paths finish _ _ hdisplay hfailure
    rw [houtput, hending, status_failed]
    exact ⟨rfl, rfl⟩

end Crew

end DecoratorVeil.CommandLine
