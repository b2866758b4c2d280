import DecoratorVeil.Proofs.CommandLine.Workers

/-!
# Working in turn

Working through the files in turn, up to the first failure and with the files under way then, is one
of the ways in which workers can go about it.  Each worker that has its turn does all its work while
the others are idle, and before a failure it is heard of at once.
-/

namespace DecoratorVeil.CommandLine

variable {Stage : Type}

/-- How the work on a file goes on from a stage if nothing comes in between. -/
inductive Procedure.Alone (procedure : Procedure Stage) (files : FileSystem) (path : String) :
    Stage → Traced (Bool × FileSystem) → Prop
  | finishes {stage : Stage} {events : List Event} {verdict : Bool} {after : FileSystem}
      (hstep : procedure.step files path stage = ⟨events, .ok (.inr (verdict, after))⟩) :
      Alone procedure files path stage ⟨events, .ok (verdict, after)⟩
  | fails {stage : Stage} {events : List Event} {failure : Failure}
      (hstep : procedure.step files path stage = ⟨events, .error failure⟩) :
      Alone procedure files path stage ⟨events, .error failure⟩
  | goesOn {stage next : Stage} {events : List Event} {result : Traced (Bool × FileSystem)}
      (hstep : procedure.step files path stage = ⟨events, .ok (.inl next)⟩)
      (hrest : Alone procedure files path next result) :
      Alone procedure files path stage (result.after events)

/-- A step that comes to a value and then goes on or ends, depending on it. -/
theorem Procedure.Alone.bind {procedure : Procedure Stage} {files : FileSystem} {path : String}
    {stage : Stage} {α : Type} {t : Traced α} {f : α → Stage ⊕ Bool × FileSystem}
    {rest : α → Traced (Bool × FileSystem)} (hstep : procedure.step files path stage = f <$> t)
    (hinl : ∀ a next, f a = .inl next → procedure.Alone files path next (rest a))
    (hinr : ∀ a answer, f a = .inr answer → rest a = pure answer) :
    procedure.Alone files path stage (t >>= rest) := by
  rw [Traced.map_eq] at hstep
  cases ht : t.outcome with
  | error failure =>
    rw [ht] at hstep
    rw [Traced.bind_of_error rest ht]
    exact .fails hstep
  | ok a =>
    rw [ht] at hstep
    rw [Traced.bind_of_ok rest ht]
    cases hf : f a with
    | inl next =>
      refine .goesOn (hstep.trans ?_) (hinl a next hf)
      exact congrArg (fun outcome => Traced.mk t.trace (.ok outcome)) hf
    | inr answer =>
      obtain ⟨verdict, after⟩ := answer
      rw [hinr a _ hf, Traced.after, Traced.trace_pure, List.append_nil]
      refine .finishes (hstep.trans ?_)
      exact congrArg (fun outcome => Traced.mk t.trace (.ok outcome)) hf

theorem Procedure.Alone.last {procedure : Procedure Stage} {files : FileSystem} {path : String}
    {stage : Stage} {t : Traced (Bool × FileSystem)}
    (hstep : procedure.step files path stage = .inr <$> t) :
    procedure.Alone files path stage t := by
  obtain ⟨trace, outcome⟩ := t
  rw [Traced.map_eq] at hstep
  cases outcome with
  | error failure => exact .fails hstep
  | ok answer => exact .finishes hstep

/-- The steps of a procedure, one after the other, are the work. -/
def Procedure.Performs (procedure : Procedure Stage) (work : Work) : Prop :=
  ∀ files path, procedure.Alone files path procedure.first (work files path)

/-! ## Batches -/

namespace Batch

theorem note_overlook (batch : Batch) (events : List Event)
    (result : Traced (Bool × FileSystem)) :
    (batch.note events batch.files).overlook result = batch.overlook (result.after events) := by
  simp only [overlook, note, Traced.after, List.append_assoc]

theorem notices_overlook (batch : Batch) (result : Traced (Bool × FileSystem)) :
    (batch.overlook result).notices = batch.notices := by
  unfold overlook
  split <;> rfl

theorem isClosed_take (batch : Batch) (path : String) (result : Traced (Bool × FileSystem)) :
    (batch.take path result).isClosed = batch.isClosed := by
  rw [take, isClosed_hear, isClosed, isClosed, notices_overlook]

theorem isClosed_close (batch : Batch) : batch.close.isClosed = true := by
  simp [isClosed, close, Notice.isEnd]

/-- After work that has failed, a failure has been heard of. -/
theorem failure?_take_of_error {batch : Batch} {path : String}
    {result : Traced (Bool × FileSystem)} {failure : Failure}
    (h : result.outcome = .error failure) : (batch.take path result).failure?.isSome = true := by
  simp [failure?, take, hear, h, List.findSome?_append, Notice.failure?, Except.map]

end Batch

theorem notices_runOn (work : Work) (batch : Batch) (paths : List String) :
    (runOn work batch paths).notices = batch.notices := by
  induction paths generalizing batch with
  | nil => rfl
  | cons path rest ih => rw [runOn, ih, Batch.notices_overlook]

theorem runAll_of_error {work : Work} {batch : Batch} {path : String} {failure : Failure}
    (h : (work batch.files path).outcome = .error failure) (jobs : Nat) (rest : List String) :
    runAll work jobs batch (path :: rest) =
      runOn work (batch.take path (work batch.files path)).close (rest.take jobs) := by
  rw [runAll, h]

theorem runAll_of_ok {work : Work} {batch : Batch} {path : String} {answer : Bool × FileSystem}
    (h : (work batch.files path).outcome = .ok answer) (jobs : Nat) (rest : List String) :
    runAll work jobs batch (path :: rest) =
      runAll work jobs (batch.take path (work batch.files path)) rest := by
  rw [runAll, h]

theorem isClosed_runAll (work : Work) (jobs : Nat) (batch : Batch) (paths : List String) :
    (runAll work jobs batch paths).isClosed = true := by
  induction paths generalizing batch with
  | nil => exact batch.isClosed_close
  | cons path rest ih =>
    cases hresult : (work batch.files path).outcome with
    | error failure =>
      rw [runAll_of_error hresult, Batch.isClosed, notices_runOn]
      exact Batch.isClosed_close _
    | ok answer =>
      rw [runAll_of_ok hresult]
      exact ih _

/-! ## Runs -/

/-- What has come of the work on a file, apart from the files that it leaves. -/
def resultOf (answer : Traced (Bool × FileSystem)) : Except Failure Bool :=
  answer.outcome.map Prod.fst

theorem resultOf_after (events : List Event) (answer : Traced (Bool × FileSystem)) :
    resultOf (answer.after events) = resultOf answer := rfl

namespace Crew

def Idle (workers : List (String × Worker Stage)) : Prop :=
  ∀ worker ∈ workers, worker.2.isBusy = false

theorem idle_append {before rest : List (String × Worker Stage)} (hbefore : Idle before)
    (hrest : Idle rest) : Idle (before ++ rest) := by
  intro worker hworker
  rcases List.mem_append.1 hworker with hmem | hmem
  · exact hbefore worker hmem
  · exact hrest worker hmem

theorem idle_waiting (paths : List String) :
    Idle (paths.map fun path => (path, (.waiting : Worker Stage))) := by
  intro worker hworker
  obtain ⟨path, -, rfl⟩ := List.mem_map.1 hworker
  rfl

def Settled (workers : List (String × Worker Stage)) : Prop :=
  ∀ worker ∈ workers, worker.2.isSettled = true

theorem settled_append {before rest : List (String × Worker Stage)} (hbefore : Settled before)
    (hrest : Settled rest) : Settled (before ++ rest) := by
  intro worker hworker
  rcases List.mem_append.1 hworker with hmem | hmem
  · exact hbefore worker hmem
  · exact hrest worker hmem

theorem settled_ofResult (path : String) (result : Except Failure Bool) :
    Settled [(path, (.ofResult result : Worker Stage))] := by
  intro worker hworker
  rw [List.mem_singleton.1 hworker]
  exact Worker.isSettled_ofResult result

theorem Settled.idle {workers : List (String × Worker Stage)} (h : Settled workers) :
    Idle workers := by
  rintro ⟨path, worker⟩ hworker
  have hsettled := h _ hworker
  cases worker with
  | busy => cases hsettled
  | waiting | finished | failed | cancelled => rfl

variable {procedure : Procedure Stage} {jobs : Nat} {work : Work}

/-- A busy worker may go on to the end of its work while no other takes a step. -/
theorem run_alone {crew : Crew Stage} {index : Nat} {path : String} {stage : Stage}
    {answer : Traced (Bool × FileSystem)}
    (hworker : crew.workers[index]? = some (path, .busy stage))
    (halone : procedure.Alone crew.batch.files path stage answer) :
    Run procedure jobs crew
      ((crew.put index path (.ofResult (resultOf answer)) (crew.batch.overlook answer)).announce
        path (resultOf answer)) := by
  generalize hfiles : crew.batch.files = files at halone
  induction halone generalizing crew with
  | finishes hstep => exact .single (.finish hworker (hfiles ▸ hstep))
  | fails hstep => exact .single (.fail hworker (hfiles ▸ hstep))
  | @goesOn stage next events answer hstep _ ih =>
    refine .head (.advance hworker (hfiles ▸ hstep)) ?_
    have hgo := @ih (crew.put index path (.busy next) (crew.batch.note events crew.batch.files))
      (by rw [getElem?_put hworker, if_pos rfl]) hfiles
    simpa only [put, List.set_set, Batch.note_overlook, resultOf_after] using hgo

section Turn

variable (hjobs : 0 < jobs) (hperforms : procedure.Performs work)
include hjobs hperforms

/-- While all others are idle, a worker may do all its work. -/
theorem run_work {before rest : List (String × Worker Stage)} (hbefore : Idle before)
    (hrest : Idle rest) (path : String) (unheard : List (String × Except Failure Bool))
    (batch : Batch) :
    Run procedure jobs ⟨before ++ (path, .waiting) :: rest, unheard, batch⟩
      ⟨before ++ (path, .ofResult (resultOf (work batch.files path))) :: rest,
        unheard ++ [(path, resultOf (work batch.files path))],
        batch.overlook (work batch.files path)⟩ := by
  have hidle : (before ++ (path, Worker.waiting) :: rest).countP (·.2.isBusy) = 0 := by
    rw [List.countP_eq_zero]
    intro worker hworker
    have hall := idle_append hbefore (idle_append (idle_waiting [path]) hrest)
    simp [hall worker hworker]
  have hwaiting : (before ++ (path, Worker.waiting) :: rest)[before.length]? =
      some (path, Worker.waiting) := by simp
  have hbusy : (before ++ (path, Worker.busy procedure.first) :: rest)[before.length]? =
      some (path, Worker.busy procedure.first) := by simp
  have hrun := @run_alone _ procedure jobs
    ⟨before ++ (path, .busy procedure.first) :: rest, unheard, batch⟩ before.length path
    procedure.first _ hbusy (hperforms batch.files path)
  refine .head (.start hwaiting (Nat.lt_of_le_of_lt (Nat.le_of_eq hidle) hjobs)) ?_
  simpa [put, announce] using hrun

/-- The same, where the worker is heard of at once. -/
theorem run_turn {before rest : List (String × Worker Stage)} (hbefore : Idle before)
    (hrest : Idle rest) (path : String) (batch : Batch) :
    Run procedure jobs ⟨before ++ (path, .waiting) :: rest, [], batch⟩
      ⟨before ++ (path, .ofResult (resultOf (work batch.files path))) :: rest, [],
        batch.take path (work batch.files path)⟩ :=
  (run_work hjobs hperforms hbefore hrest path [] batch).tail
    (@Step.hear _ _ _ ⟨_, _, _⟩ 0 path _ rfl)

/-- Files may be worked on in turn without being heard of. -/
theorem exists_run_runOn {before rest : List (String × Worker Stage)} (hbefore : Idle before)
    (hrest : Idle rest) (unheard : List (String × Except Failure Bool)) (batch : Batch)
    (paths : List String) :
    ∃ settled left, Settled settled ∧
      Run procedure jobs ⟨before ++ (paths.map (·, .waiting) ++ rest), unheard, batch⟩
        ⟨before ++ (settled ++ rest), left, runOn work batch paths⟩ := by
  induction paths generalizing before unheard batch with
  | nil => exact ⟨[], unheard, nofun, .refl⟩
  | cons path paths ih =>
    have hwork := run_work hjobs hperforms hbefore (idle_append (idle_waiting paths) hrest) path
      unheard batch
    have hsettled := @settled_ofResult Stage path (resultOf (work batch.files path))
    obtain ⟨settled, left, hrestSettled, hrun⟩ := ih (idle_append hbefore hsettled.idle)
      (unheard ++ [(path, resultOf (work batch.files path))])
      (batch.overlook (work batch.files path))
    refine ⟨(path, .ofResult (resultOf (work batch.files path))) :: settled, left,
      settled_append hsettled hrestSettled, .trans hwork ?_⟩
    rw [runOn]
    simpa using hrun

omit hjobs hperforms in
/-- Waiting workers may be cancelled after a failure. -/
theorem run_cancel {batch : Batch} (hfailed : batch.failure?.isSome = true)
    (before : List (String × Worker Stage)) (unheard : List (String × Except Failure Bool))
    (paths : List String) :
    Run procedure jobs ⟨before ++ paths.map (·, .waiting), unheard, batch⟩
      ⟨before ++ paths.map (·, .cancelled), unheard, batch⟩ := by
  induction paths generalizing before with
  | nil => exact .refl
  | cons path paths ih =>
    have hwaiting : (before ++ (path :: paths).map (·, Worker.waiting))[before.length]? =
        some (path, Worker.waiting) := by simp
    have hrun := ih (before ++ [(path, .cancelled)])
    refine .head (.cancel hwaiting hfailed) ?_
    simpa [put] using hrun

/-- After a failure, some files may be worked on in turn and the others left. -/
theorem exists_run_leftover {before : List (String × Worker Stage)} (hbefore : Idle before)
    {batch : Batch} (hfailed : batch.failure?.isSome = true) (paths : List String) (count : Nat) :
    ∃ settled left, Settled settled ∧
      Run procedure jobs ⟨before ++ paths.map (·, .waiting), [], batch⟩
        ⟨before ++ settled, left, runOn work batch (paths.take count)⟩ := by
  obtain ⟨settled, left, hsettled, hrun⟩ := exists_run_runOn hjobs hperforms hbefore
    (idle_waiting (paths.drop count)) [] batch (paths.take count)
  have hstill : (runOn work batch (paths.take count)).failure?.isSome = true := by
    rwa [Batch.failure?, notices_runOn]
  have hcancel := @run_cancel _ procedure jobs _ hstill (before ++ settled) left (paths.drop count)
  refine ⟨settled ++ (paths.drop count).map (·, .cancelled), left, ?_, ?_⟩
  · refine settled_append hsettled ?_
    intro worker hworker
    obtain ⟨path, -, rfl⟩ := List.mem_map.1 hworker
    rfl
  · rw [← List.map_append, List.take_append_drop, ← List.append_assoc] at hrun
    rw [← List.append_assoc]
    exact hrun.trans hcancel

theorem exists_run_runAll_append {before : List (String × Worker Stage)}
    (hbefore : Settled before) {batch : Batch} (hopen : batch.isClosed = false)
    (paths : List String) :
    ∃ settled left, Settled settled ∧
      Run procedure jobs ⟨before ++ paths.map (·, .waiting), [], batch⟩
        ⟨before ++ settled, left, runAll work jobs batch paths⟩ := by
  induction paths generalizing before batch with
  | nil =>
    have hover : Crew.Over ⟨before, [], batch⟩ := ⟨hbefore, rfl⟩
    refine ⟨[], [], nofun, ?_⟩
    rw [List.map_nil, List.append_nil]
    exact .single (.close hopen (.inr hover))
  | cons path paths ih =>
    have hturn := run_turn hjobs hperforms hbefore.idle (idle_waiting paths) path batch
    have hpath := @settled_ofResult Stage path (resultOf (work batch.files path))
    have hsettled := settled_append hbefore hpath
    have hstill := (batch.isClosed_take path (work batch.files path)).trans hopen
    cases hresult : (work batch.files path).outcome with
    | error failure =>
      have hfailed := @Batch.failure?_take_of_error batch path _ _ hresult
      obtain ⟨settled, left, hrest, hrun⟩ := exists_run_leftover hjobs hperforms hsettled.idle
        (((batch.take path (work batch.files path)).failure?_close).symm ▸ hfailed) paths jobs
      refine ⟨(path, .ofResult (resultOf (work batch.files path))) :: settled, left,
        settled_append hpath hrest, ?_⟩
      rw [runAll_of_error hresult]
      refine (hturn.tail (.close hstill (.inl hfailed))).trans ?_
      simpa using hrun
    | ok answer =>
      obtain ⟨settled, left, hrest, hrun⟩ := ih hsettled hstill
      refine ⟨(path, .ofResult (resultOf (work batch.files path))) :: settled, left,
        settled_append hpath hrest, ?_⟩
      rw [runAll_of_ok hresult]
      refine hturn.trans ?_
      simpa using hrun

/-- Working through the files in turn is one of the ways in which workers can go about it. -/
theorem exists_run_runAll (files : FileSystem) (paths : List String) :
    ∃ final : Crew Stage, Run procedure jobs (assembled files paths) final ∧ final.Complete ∧
      final.batch = runAll work jobs (.start files) paths := by
  obtain ⟨settled, left, hsettled, hrun⟩ := @exists_run_runAll_append _ procedure jobs work hjobs
    hperforms [] nofun (.start files) rfl paths
  exact ⟨_, hrun, ⟨hsettled, isClosed_runAll work jobs _ paths⟩, rfl⟩

end Turn

end Crew

end DecoratorVeil.CommandLine
