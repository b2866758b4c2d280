import DecoratorVeil.Proofs.CommandLine.Reports
import DecoratorVeil.Proofs.CommandLine.WriteInvariant
import Mathlib

/-!
# Writing by workers

Where no two listed paths lead to one file, a file ends with its bytes or with its formatted text,
in whatever order the workers take their steps.  Under several paths it ends with a text that was
formatted under some of them in turn.  The status is zero where no worker fails, but for a progress
display that cannot be ended with the path that is finished last.
-/

namespace DecoratorVeil.CommandLine
open FileSystem

section Invariant

variable {session : Session} {options : FormatOptions} {paths : List String}
  {crew : Crew WriteStage} {place : Location} {bytes : List UInt8}

/-- A file that no listed path leads to is left alone. -/
theorem WriteInvariant.entry_eq (h : WriteInvariant session options paths crew)
    (hnone : ∀ path ∈ paths, ∀ bytes, ¬ LeadsTo session.host options path place bytes) :
    crew.batch.files.entry? place = session.host.files.entry? place := by
  refine (h.outline.entry_eq ?_).symm
  cases hbytes : session.host.files.content? place with
  | none =>
    have hnot : ¬ (crew.batch.files.content? place).isSome = true := by
      rw [← h.outline.isSome_content?, hbytes]
      exact Bool.false_ne_true
    exact (Option.not_isSome_iff_eq_none.1 hnot).symm
  | some bytes =>
    rcases h.contents place bytes hbytes with hkept | ⟨turns, text, hturns, hmade, -⟩
    · exact hkept.symm
    · obtain ⟨listing, hlisting⟩ := List.exists_mem_of_ne_nil turns hturns
      obtain ⟨hlisted, hleads⟩ := hmade.version.listed listing hlisting
      exact absurd hleads (hnone _ (List.fst_mem_of_mem_zipIdx hlisted) bytes)

/-- A file has been rewritten, or it is as it was; and then its text is the formatted one if the
worker has finished. -/
theorem WriteInvariant.rewritten_or_kept (h : WriteInvariant session options paths crew)
    {index : Nat} {path : String} {worker : Worker WriteStage}
    (hworker : crew.workers[index]? = some (path, worker))
    (hleads : LeadsTo session.host options path place bytes) :
    Rewritten session options paths crew place bytes ∨
      crew.batch.files.content? place = some bytes ∧ ∀ verdict, worker = .finished verdict →
        FormatsTo session options path (Pipeline.decodeSource bytes)
          (Pipeline.decodeSource bytes) := by
  by_cases hrewritten : Rewritten session options paths crew place bytes
  · exact .inl hrewritten
  · refine .inr ⟨(h.contents place bytes hleads.content).resolve_right hrewritten, ?_⟩
    rintro verdict rfl
    obtain ⟨place', bytes', hleads', hresult⟩ := h.sound index path _ hworker
    obtain ⟨rfl, rfl⟩ := hleads.unique hleads'
    exact hresult.resolve_left hrewritten

end Invariant

/-- What becomes of the bytes of a file that one worker has been given. -/
structure WrittenOnce (session : Session) (options : FormatOptions) (path : String)
    (worker : Worker WriteStage) (bytes now : List UInt8) : Prop where
  kept_or_formatted : now = bytes ∨ ∃ formatted, now = Text.Utf8.bytesOf formatted ∧
    FormatsTo session options path (Pipeline.decodeSource bytes) formatted
  /-- A worker that fails or is cancelled leaves the bytes. -/
  kept_of_lost : worker.isLost = true → now = bytes
  /-- A text that is formatted already is not written, so bytes that cannot be decoded stay. -/
  kept_of_formatted : FormatsTo session options path (Pipeline.decodeSource bytes)
    (Pipeline.decodeSource bytes) → now = bytes
  formatted : ∀ verdict, worker = .finished verdict →
    FormatsTo session options path (Pipeline.decodeSource bytes) (Pipeline.decodeSource now)

theorem WriteInvariant.writtenOnce {session : Session} {options : FormatOptions}
    {paths : List String} {crew : Crew WriteStage} {place : Location} {bytes : List UInt8}
    {index : Nat} {path : String} {worker : Worker WriteStage}
    (h : WriteInvariant session options paths crew)
    (hapart : LeadApart session.host options paths)
    (hworker : crew.workers[index]? = some (path, worker))
    (hleads : LeadsTo session.host options path place bytes) :
    ∃ now, crew.batch.files.content? place = some now ∧
      WrittenOnce session options path worker bytes now := by
  rcases h.rewritten_or_kept hworker hleads with ⟨turns, text, hturns, hmade, hcontent⟩ |
    ⟨hkept, hfinished⟩
  · obtain ⟨rfl, -⟩ | ⟨rfl, hchanged, hformat⟩ :=
      hmade.version.of_apart hapart (h.mem_zipIdx hworker) hleads
    · exact absurd rfl hturns
    · obtain ⟨verdict, hfinished⟩ := hmade.done _ (List.mem_singleton_self _)
      cases hworker.symm.trans hfinished
      refine ⟨_, hcontent, .inr ⟨text, rfl, hformat⟩, nofun, fun hsame => ?_, fun _ _ => ?_⟩
      · exact absurd (hsame.unique hformat) hchanged
      · rw [decodeSource_bytesOf]
        exact hformat
  · exact ⟨bytes, hkept, .inl rfl, fun _ => rfl, fun _ => rfl, hfinished⟩

/-- What writing leaves: only files that are listed change, and only in content.  If no two paths
lead to one file, each file keeps its bytes or comes to hold its formatted text; and in any case a
file that has changed holds a text that was formatted under some of its listed paths in turn, under
each of them at most once. -/
structure WrittenSafely (session : Session) (options : FormatOptions) (paths : List String)
    (final : Crew WriteStage) (report : Report) : Prop where
  outline : SameOutline session.host.files report.files
  others : ∀ place, (∀ path ∈ paths, ∀ bytes, ¬ LeadsTo session.host options path place bytes) →
    report.files.entry? place = session.host.files.entry? place
  status : report.ending.status = 0 ↔
    ¬ final.Failed ∧ final.batch.displayError? session.console "formatting" = none
  ended : session.console.Ends "formatting" paths →
    (report.ending.status = 0 ↔ ¬ final.Failed)
  plain : session.console = .standard → (∀ path ∈ paths, Console.Plain path) →
    (report.ending.status = 0 ↔ ¬ final.Failed)
  found : ¬ final.Failed →
    ∀ path ∈ paths, ∃ place bytes, LeadsTo session.host options path place bytes
  once : LeadApart session.host options paths → ∀ (index : Nat) path, paths[index]? = some path →
    ∃ worker, final.workers[index]? = some (path, worker) ∧ ∀ place bytes,
      LeadsTo session.host options path place bytes →
      ∃ now, report.files.content? place = some now ∧
        WrittenOnce session options path worker bytes now
  formatted : LeadApart session.host options paths → ¬ final.Failed →
    ∀ path ∈ paths, ∀ place bytes, LeadsTo session.host options path place bytes →
    ∃ now, report.files.content? place = some now ∧
      FormatsTo session options path (Pipeline.decodeSource bytes) (Pipeline.decodeSource now)
  repeated : ∀ path ∈ paths, ∀ place bytes, LeadsTo session.host options path place bytes →
    (report.files.content? place = some bytes ∧ (¬ final.Failed →
      FormatsTo session options path (Pipeline.decodeSource bytes) (Pipeline.decodeSource bytes))) ∨
    ∃ turns text, turns ≠ [] ∧ turns.Nodup ∧
      (∀ listing ∈ turns, listing ∈ paths.zipIdx ∧
        LeadsTo session.host options listing.1 place bytes) ∧
      formattedInTurn session options (Pipeline.decodeSource bytes) turns = .ok text ∧
      report.files.content? place = some (Text.Utf8.bytesOf text)

section Complete

variable {session : Session} {options : FormatOptions} {jobs : Nat} {paths : List String}
  {final : Crew WriteStage}
  (hrun : Crew.Run (writeSteps session options) jobs (.assembled session.host.files paths) final)
include hrun

theorem writtenSafely (hcomplete : final.Complete) :
    WrittenSafely session options paths final (writeReport session paths final.batch) := by
  have hinvariant := WriteInvariant.run hrun
  have hstatus : (writeReport session paths final.batch).ending.status = 0 ↔
      ¬ final.Failed ∧ final.batch.displayError? session.console "formatting" = none := by
    rw [writeReport, hrun.status_eq_zero_iff hcomplete]
    exact and_congr_right fun _ => and_iff_left rfl
  have hfiles : (writeReport session paths final.batch).files = final.batch.files := rfl
  exact {
    outline := hinvariant.outline
    others := fun place hnone => hinvariant.entry_eq hnone
    status := hstatus
    ended := fun hends => hstatus.trans (and_iff_left (hrun.displayError?_eq_none hends))
    plain := by
      intro hstandard hplain
      have hends : session.console.Ends "formatting" paths :=
        hstandard ▸ Console.ends_standard_of_plain (by decide) hplain
      exact hstatus.trans (and_iff_left (hrun.displayError?_eq_none hends))
    found := by
      intro hfailed path hpath
      obtain ⟨index, verdict, hworker⟩ := hrun.exists_finished hpath hcomplete hfailed
      obtain ⟨place, bytes, hleads, -⟩ := hinvariant.sound index path _ hworker
      exact ⟨place, bytes, hleads⟩
    once := by
      intro hapart index path hpath
      rw [← hrun.paths_eq, List.getElem?_map] at hpath
      obtain ⟨⟨_, worker⟩, hworker, rfl⟩ := Option.map_eq_some_iff.1 hpath
      exact ⟨worker, hworker, fun place bytes => hinvariant.writtenOnce hapart hworker⟩
    formatted := by
      intro hapart hfailed path hpath place bytes hleads
      obtain ⟨index, verdict, hworker⟩ := hrun.exists_finished hpath hcomplete hfailed
      obtain ⟨now, hnow, honce⟩ := hinvariant.writtenOnce hapart hworker hleads
      exact ⟨now, hnow, honce.formatted verdict rfl⟩
    repeated := by
      intro path hpath place bytes hleads
      obtain ⟨index, worker, hworker⟩ := hrun.exists_worker hpath
      rcases hinvariant.rewritten_or_kept hworker hleads with ⟨turns, text, hturns, hmade, hnow⟩ |
        ⟨hkept, hfinished⟩
      · exact .inr ⟨turns, text, hturns, hmade.version.nodup, hmade.version.listed,
          hmade.version.formatted, hnow⟩
      · refine .inl ⟨hkept, fun hfailed => ?_⟩
        obtain ⟨verdict, rfl⟩ := hrun.accounted.finished hcomplete hfailed
          (List.mem_of_getElem? hworker)
        exact hfinished verdict rfl }

end Complete

/-- Writing is safe however the workers take turns. -/
theorem write_interleaving_safe (session : Session) (options : FormatOptions) (jobs : Nat)
    (paths : List String) :
    (0 < jobs → ∃ final : Crew WriteStage,
      Crew.Run (writeSteps session options) jobs (.assembled session.host.files paths) final ∧
      final.Complete ∧
      writeReport session paths final.batch = writeFiles session options jobs paths) ∧
    ∀ final : Crew WriteStage,
      Crew.Run (writeSteps session options) jobs (.assembled session.host.files paths) final →
      final.Complete →
      WrittenSafely session options paths final (writeReport session paths final.batch) := by
  constructor
  · intro hjobs
    obtain ⟨final, hrun, hcomplete, hbatch⟩ := Crew.exists_run_runAll hjobs
      (writeSteps_performs session options) session.host.files paths
    exact ⟨final, hrun, hcomplete, by rw [hbatch, writeFiles]⟩
  · exact fun final hrun hcomplete => writtenSafely hrun hcomplete

/-- A session with a text to be changed and a file that is not valid UTF-8, in which every `y` gives
way to a `z`. -/
def mixedSession : Session where
  host := ⟨⟨[(["a"], .file [0x79] false), (["b"], .file [0xFF] true)]⟩, [], [],
    fun _ _ _ => ⟨[], [], 0⟩⟩
  reader := .constant (.container .source none [])
  formatter := .ok (.scripted (.replace [("y", "z")]))
  input := []
  interactive := false
  processors := 2

theorem leadsTo_mixedSession :
    LeadsTo mixedSession.host ⟨none, none⟩ "a" ["a"] [0x79] ∧
      LeadsTo mixedSession.host ⟨none, none⟩ "b" ["b"] [0xFF] :=
  ⟨⟨⟨"/a", by cbv, by cbv⟩, by cbv⟩, ⟨⟨"/b", by cbv, by cbv⟩, by cbv⟩⟩

theorem leadApart_mixedSession : LeadApart mixedSession.host ⟨none, none⟩ ["a", "b"] := by
  obtain ⟨hfirst, hsecond⟩ := leadsTo_mixedSession
  refine List.pairwise_pair.2 fun place bytes hleads hleads' => ?_
  obtain ⟨rfl, -⟩ := hfirst.unique hleads
  exact absurd (hsecond.unique hleads').1 (by decide)

/-- Each worker takes a step between two of the other; the second needs no write. -/
theorem exists_run_mixedSession : ∃ final : Crew WriteStage,
    Crew.Run (writeSteps mixedSession ⟨none, none⟩) 2
      (.assembled mixedSession.host.files ["a", "b"]) final ∧
    final.workers = [("a", .finished true), ("b", .finished true)] ∧
    final.batch.notices =
      [.heard "b" (.ok true), .heard "a" (.ok true), .ended (some "a")] := by
  have hfirstRead : (writeSteps mixedSession ⟨none, none⟩).step mixedSession.host.files "a"
      .reading = ⟨[], .ok (.inl (.formatting "y"))⟩ := by cbv
  have hsecondRead : (writeSteps mixedSession ⟨none, none⟩).step mixedSession.host.files "b"
      .reading = ⟨[], .ok (.inl (.formatting "\uFFFD"))⟩ := by cbv
  have hfirstFormat : (writeSteps mixedSession ⟨none, none⟩).step mixedSession.host.files "a"
      (.formatting "y") = ⟨[.reading "y" "input.ts", .formatting "y" "/a" none],
        .ok (.inl (.comparing "z"))⟩ := by cbv
  have hsecondFormat : (writeSteps mixedSession ⟨none, none⟩).step mixedSession.host.files "b"
      (.formatting "\uFFFD") =
        ⟨[.reading "\uFFFD" "input.ts", .formatting "\uFFFD" "/b" none],
          .ok (.inl (.comparing "\uFFFD"))⟩ := by cbv
  have hfirstCompare : (writeSteps mixedSession ⟨none, none⟩).step mixedSession.host.files "a"
      (.comparing "z") = ⟨[], .ok (.inl (.writing "/a" "z"))⟩ := by cbv
  have hsecondCompare : (writeSteps mixedSession ⟨none, none⟩).step mixedSession.host.files "b"
      (.comparing "\uFFFD") = ⟨[], .ok (.inr (true, mixedSession.host.files))⟩ := by cbv
  have hwrite : (writeSteps mixedSession ⟨none, none⟩).step mixedSession.host.files "a"
      (.writing "/a" "z") = ⟨[.log "Rewrote a"], .ok (.inr (true,
        mixedSession.host.files.put ["a"] (.file [0x7A] false)))⟩ := by cbv
  let events : List Event := [.reading "\uFFFD" "input.ts", .formatting "\uFFFD" "/b" none,
    .reading "y" "input.ts", .formatting "y" "/a" none, .log "Rewrote a"]
  refine ⟨⟨[("a", .finished true), ("b", .finished true)], [], events,
    mixedSession.host.files.put ["a"] (.file [0x7A] false),
    [.heard "b" (.ok true), .heard "a" (.ok true), .ended (some "a")]⟩, ?_, rfl, rfl⟩
  refine .head (@Crew.Step.start _ _ _ _ 0 "a" rfl (by decide)) ?_
  refine .head (@Crew.Step.start _ _ _ _ 1 "b" rfl (by decide)) ?_
  refine .head (@Crew.Step.advance _ _ _ _ 1 "b" _ _ _ rfl hsecondRead) ?_
  refine .head (@Crew.Step.advance _ _ _ _ 0 "a" _ _ _ rfl hfirstRead) ?_
  refine .head (@Crew.Step.advance _ _ _ _ 1 "b" _ _ _ rfl hsecondFormat) ?_
  refine .head (@Crew.Step.advance _ _ _ _ 0 "a" _ _ _ rfl hfirstFormat) ?_
  refine .head (@Crew.Step.advance _ _ _ _ 0 "a" _ _ _ rfl hfirstCompare) ?_
  refine .head (@Crew.Step.finish _ _ _ _ 1 "b" _ _ _ _ rfl hsecondCompare) ?_
  refine .head (@Crew.Step.finish _ _ _ _ 0 "a" _ _ _ _ rfl hwrite) ?_
  refine .head (@Crew.Step.hear _ _ _ _ 0 "b" _ rfl) ?_
  refine .head (@Crew.Step.hear _ _ _ _ 0 "a" _ rfl) ?_
  exact .single (.close rfl (.inr ⟨by simp [Crew.put, Crew.announce, Crew.assembled,
    Worker.isSettled], rfl⟩))

/-- The first file comes to hold its formatted text, and bytes that cannot be decoded stay. -/
theorem write_interleaving_safe_mixed :
    LeadApart mixedSession.host ⟨none, none⟩ ["a", "b"] ∧ ∃ final : Crew WriteStage,
      Crew.Run (writeSteps mixedSession ⟨none, none⟩) 2
        (.assembled mixedSession.host.files ["a", "b"]) final ∧
      final.Complete ∧
      (writeReport mixedSession ["a", "b"] final.batch).ending.status = 0 ∧
      final.batch.files.content? ["a"] = some [0x7A] ∧
      final.batch.files.content? ["b"] = some [0xFF] := by
  obtain ⟨final, hrun, hworkers, hnotices⟩ := exists_run_mixedSession
  obtain ⟨hfirst, hsecond⟩ := leadsTo_mixedSession
  have hcomplete : final.Complete :=
    ⟨by simp [hworkers, Worker.isSettled], by rw [Batch.isClosed, hnotices]; rfl⟩
  have hfailed : ¬ final.Failed := by simp [Crew.Failed, hworkers]
  have hformat : (mixedSession.pipeline.formatSource mixedSession.host ⟨none, none⟩
      (Pipeline.decodeSource [0x79]) "a").outcome = .ok "z" := by cbv
  have hformat' : (mixedSession.pipeline.formatSource mixedSession.host ⟨none, none⟩
      (Pipeline.decodeSource [0xFF]) "b").outcome = .ok (Pipeline.decodeSource [0xFF]) := by cbv
  have hsafe := (write_interleaving_safe mixedSession ⟨none, none⟩ 2 ["a", "b"]).2 final hrun
    hcomplete
  have hdisplay : final.batch.displayError? mixedSession.console "formatting" = none := by
    rw [Batch.displayError?, hnotices]
    rfl
  have hstatus := hsafe.status.2 ⟨hfailed, hdisplay⟩
  refine ⟨leadApart_mixedSession, final, hrun, hcomplete, hstatus, ?_, ?_⟩
  · obtain ⟨worker, hworker, hfile⟩ := hsafe.once leadApart_mixedSession 0 "a" rfl
    obtain ⟨now, hnow, honce⟩ := hfile _ _ hfirst
    rw [hworkers] at hworker
    cases hworker
    have htext := (honce.formatted true rfl).unique hformat
    change final.batch.files.content? ["a"] = some now at hnow
    rw [hnow]
    rcases honce.kept_or_formatted with rfl | ⟨formatted, rfl, -⟩
    · exact absurd htext (by decide +kernel)
    · rw [decodeSource_bytesOf] at htext
      rw [htext]
      decide +kernel
  · obtain ⟨worker, hworker, hfile⟩ := hsafe.once leadApart_mixedSession 1 "b" rfl
    obtain ⟨now, hnow, honce⟩ := hfile _ _ hsecond
    change final.batch.files.content? ["b"] = some now at hnow
    rw [hnow, honce.kept_of_formatted hformat']

def closingSession : Session where
  host := ⟨⟨[(["["], .directory), (["[", "b]"], .file [0x61] false)]⟩, [], [],
    fun _ _ _ => ⟨[], [], 0⟩⟩
  reader := .constant (.container .source none [])
  formatter := .ok (.scripted .identity)
  input := []
  interactive := false
  processors := 2

/-- No worker fails, and the status is one. -/
theorem write_misreported : ∃ final : Crew WriteStage,
    Crew.Run (writeSteps closingSession ⟨none, none⟩) 2
      (.assembled closingSession.host.files ["[/b]"]) final ∧
    final.Complete ∧ final.workers = [("[/b]", .finished true)] ∧ ¬ final.Failed ∧
    (writeReport closingSession ["[/b]"] final.batch).ending.status = 1 := by
  have hread : (writeSteps closingSession ⟨none, none⟩).step closingSession.host.files "[/b]"
      .reading = ⟨[], .ok (.inl (.formatting "a"))⟩ := by cbv
  have hformat : (writeSteps closingSession ⟨none, none⟩).step closingSession.host.files "[/b]"
      (.formatting "a") = ⟨[.reading "a" "input.ts", .formatting "a" "/[/b]" none],
        .ok (.inl (.comparing "a"))⟩ := by cbv
  have hcompare : (writeSteps closingSession ⟨none, none⟩).step closingSession.host.files "[/b]"
      (.comparing "a") = ⟨[], .ok (.inr (true, closingSession.host.files))⟩ := by cbv
  obtain ⟨error, herror⟩ : ∃ error,
      closingSession.console.displayed "formatting" (some "[/b]") = .error error := ⟨_, rfl⟩
  refine ⟨⟨[("[/b]", .finished true)], [],
    [.reading "a" "input.ts", .formatting "a" "/[/b]" none], closingSession.host.files,
    [.heard "[/b]" (.ok true), .ended (some "[/b]")]⟩, ?_,
    ⟨by simp [Worker.isSettled], rfl⟩, rfl, by simp [Crew.Failed],
    congrArg Ending.status (Batch.report_of_undisplayed (by simp) herror).2⟩
  refine .head (@Crew.Step.start _ _ _ _ 0 "[/b]" rfl (by decide)) ?_
  refine .head (@Crew.Step.advance _ _ _ _ 0 "[/b]" _ _ _ rfl hread) ?_
  refine .head (@Crew.Step.advance _ _ _ _ 0 "[/b]" _ _ _ rfl hformat) ?_
  refine .head (@Crew.Step.finish _ _ _ _ 0 "[/b]" _ _ _ _ rfl hcompare) ?_
  refine .head (@Crew.Step.hear _ _ _ _ 0 "[/b]" _ rfl) ?_
  exact .single (.close rfl (.inr ⟨by simp [Crew.put, Crew.announce, Crew.assembled,
    Worker.isSettled], rfl⟩))

end DecoratorVeil.CommandLine
