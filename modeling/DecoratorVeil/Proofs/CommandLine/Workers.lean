import DecoratorVeil.CommandLine.Run
import DecoratorVeil.Proofs.Traced
import Mathlib.Data.List.Perm.Basic
import Mathlib.Logic.Relation

/-!
# Workers

Files are checked and written by workers, one for each listed path, of which a given number may be
busy at a time.  The work on a file is cut into steps, and between two steps of a worker any other
worker may take its own.  A result is heard of some time after it has come about.  Once a failure
has been heard of, the progress display is ended, workers that have not begun may be cancelled, and
those that are busy go on, whether they are heard of or not.
-/

namespace DecoratorVeil.CommandLine

/-- Work on a file that is done in steps.  A step goes on to another stage and leaves the files
alone, or it ends the work with a verdict and the files that it leaves. -/
structure Procedure (Stage : Type) where
  first : Stage
  step : FileSystem → String → Stage → Traced (Stage ⊕ Bool × FileSystem)

inductive Worker (Stage : Type) where
  | waiting
  | busy (stage : Stage)
  | finished (verdict : Bool)
  | failed (failure : Failure)
  | cancelled

namespace Worker

variable {Stage : Type}

def isBusy : Worker Stage → Bool
  | .busy _ => true
  | _ => false

/-- Whether nothing more is to come from a worker. -/
def isSettled : Worker Stage → Bool
  | .waiting | .busy _ => false
  | .finished _ | .failed _ | .cancelled => true

/-- Whether a worker has nothing to show for its file. -/
def isLost : Worker Stage → Bool
  | .failed _ | .cancelled => true
  | .waiting | .busy _ | .finished _ => false

def ofResult : Except Failure Bool → Worker Stage
  | .ok verdict => .finished verdict
  | .error failure => .failed failure

theorem isSettled_ofResult (result : Except Failure Bool) :
    (ofResult result : Worker Stage).isSettled = true := by
  cases result <;> rfl

theorem ofResult_inj {first second : Except Failure Bool}
    (h : (ofResult first : Worker Stage) = ofResult second) : first = second := by
  cases first <;> cases second <;> cases h <;> rfl

end Worker

namespace Batch

variable {batch : Batch} {path : String}

theorem failure?_eq_none_iff : batch.failure? = none ↔
    ∀ path failure, .heard path (.error failure) ∉ batch.notices := by
  rw [failure?, List.findSome?_eq_none_iff]
  constructor
  · intro h path failure hmem
    cases h _ hmem
  · intro h notice hmem
    rcases notice with ⟨path, verdict | failure⟩ | last
    · exact absurd hmem (h path _)
    · rfl
    · rfl

theorem heard_of_failure? {failure : Failure} (h : batch.failure? = some (path, failure)) :
    .heard path (.error failure) ∈ batch.notices := by
  obtain ⟨notice, hmem, hnotice⟩ := List.exists_of_findSome?_eq_some h
  rcases notice with ⟨other, cause | verdict⟩ | last
  · cases hnotice
    exact hmem
  · cases hnotice
  · cases hnotice

theorem mem_verdicts_iff {verdict : Bool} :
    (path, verdict) ∈ batch.verdicts ↔ .heard path (.ok verdict) ∈ batch.notices := by
  rw [verdicts, List.mem_filterMap]
  constructor
  · rintro ⟨⟨other, failure | other'⟩ | last, hmem, hnotice⟩
    · cases hnotice
    · cases hnotice
      exact hmem
    · cases hnotice
  · exact fun hmem => ⟨_, hmem, rfl⟩

theorem isClosed_hear (batch : Batch) (path : String) (result : Except Failure Bool) :
    (batch.hear path result).isClosed = batch.isClosed := by
  simp [isClosed, hear, Notice.isEnd]

theorem failure?_of_hear {result : Except Failure Bool}
    (h : (batch.hear path result).failure? = none) : batch.failure? = none := by
  rw [failure?_eq_none_iff] at h ⊢
  exact fun other failure hmem => h other failure (List.mem_append_left _ hmem)

theorem failure?_close (batch : Batch) : batch.close.failure? = batch.failure? := by
  simp [failure?, close, List.findSome?_append, Notice.failure?]

end Batch

/-- The workers with their paths, and what has come of their work so far. -/
structure Crew (Stage : Type) where
  workers : List (String × Worker Stage)
  /-- Results that have not been heard of. -/
  unheard : List (String × Except Failure Bool)
  batch : Batch

namespace Crew

variable {Stage : Type}

def assembled (files : FileSystem) (paths : List String) : Crew Stage :=
  ⟨paths.map (·, .waiting), [], .start files⟩

def busyCount (crew : Crew Stage) : Nat :=
  crew.workers.countP (·.2.isBusy)

def put (crew : Crew Stage) (index : Nat) (path : String) (worker : Worker Stage) (batch : Batch) :
    Crew Stage :=
  { crew with workers := crew.workers.set index (path, worker), batch := batch }

/-- Adds a result that is to be heard of. -/
def announce (crew : Crew Stage) (path : String) (result : Except Failure Bool) : Crew Stage :=
  { crew with unheard := crew.unheard ++ [(path, result)] }

/-- Nothing more is to come from any worker, and everything has been heard of. -/
def Over (crew : Crew Stage) : Prop :=
  (∀ worker ∈ crew.workers, worker.2.isSettled = true) ∧ crew.unheard = []

/-- What can happen next when at most the given number of workers may be busy. -/
inductive Step (procedure : Procedure Stage) (jobs : Nat) : Crew Stage → Crew Stage → Prop
  | start {crew : Crew Stage} {index : Nat} {path : String}
      (hworker : crew.workers[index]? = some (path, .waiting)) (hfree : crew.busyCount < jobs) :
      Step procedure jobs crew (crew.put index path (.busy procedure.first) crew.batch)
  | advance {crew : Crew Stage} {index : Nat} {path : String} {stage next : Stage}
      {events : List Event} (hworker : crew.workers[index]? = some (path, .busy stage))
      (hstep : procedure.step crew.batch.files path stage = ⟨events, .ok (.inl next)⟩) :
      Step procedure jobs crew
        (crew.put index path (.busy next) (crew.batch.note events crew.batch.files))
  | finish {crew : Crew Stage} {index : Nat} {path : String} {stage : Stage} {verdict : Bool}
      {files : FileSystem} {events : List Event}
      (hworker : crew.workers[index]? = some (path, .busy stage))
      (hstep : procedure.step crew.batch.files path stage =
        ⟨events, .ok (.inr (verdict, files))⟩) :
      Step procedure jobs crew
        ((crew.put index path (.finished verdict) (crew.batch.note events files)).announce path
          (.ok verdict))
  | fail {crew : Crew Stage} {index : Nat} {path : String} {stage : Stage} {failure : Failure}
      {events : List Event} (hworker : crew.workers[index]? = some (path, .busy stage))
      (hstep : procedure.step crew.batch.files path stage = ⟨events, .error failure⟩) :
      Step procedure jobs crew
        ((crew.put index path (.failed failure)
          (crew.batch.note events crew.batch.files)).announce path (.error failure))
  | hear {crew : Crew Stage} {index : Nat} {path : String} {result : Except Failure Bool}
      (hresult : crew.unheard[index]? = some (path, result)) :
      Step procedure jobs crew
        { crew with
          unheard := crew.unheard.eraseIdx index
          batch := crew.batch.hear path result }
  | close {crew : Crew Stage} (hopen : crew.batch.isClosed = false)
      (hend : crew.batch.failure?.isSome = true ∨ crew.Over) :
      Step procedure jobs crew { crew with batch := crew.batch.close }
  | cancel {crew : Crew Stage} {index : Nat} {path : String}
      (hworker : crew.workers[index]? = some (path, .waiting))
      (hfailed : crew.batch.failure?.isSome = true) :
      Step procedure jobs crew (crew.put index path .cancelled crew.batch)

abbrev Run (procedure : Procedure Stage) (jobs : Nat) : Crew Stage → Crew Stage → Prop :=
  Relation.ReflTransGen (Step procedure jobs)

/-- Nothing more is to come from any worker, and the display has ended. -/
structure Complete (crew : Crew Stage) : Prop where
  settled : ∀ worker ∈ crew.workers, worker.2.isSettled = true
  closed : crew.batch.isClosed = true

def Failed (crew : Crew Stage) : Prop :=
  ∃ path failure, (path, .failed failure) ∈ crew.workers

variable {procedure : Procedure Stage} {jobs : Nat} {crew next : Crew Stage}

/-- What a step keeps holds at the end of a run if it holds at the start. -/
theorem Run.invariant (Inv : Crew Stage → Prop)
    (hstep : ∀ {crew next}, Step procedure jobs crew next → Inv crew → Inv next)
    (hrun : Run procedure jobs crew next) (h : Inv crew) : Inv next := by
  induction hrun with
  | refl => exact h
  | tail _ hlast ih => exact hstep hlast ih

section Put

variable {index : Nat} {path : String} {old worker : Worker Stage} {batch : Batch}
  (hworker : crew.workers[index]? = some (path, old))
include hworker

theorem getElem?_put (worker : Worker Stage) (batch : Batch) (position : Nat) :
    (crew.put index path worker batch).workers[position]? =
      if index = position then some (path, worker) else crew.workers[position]? := by
  rw [put, List.getElem?_set, if_pos (List.getElem?_eq_some_iff.1 hworker).1]

theorem mem_put {entry : String × Worker Stage} (hentry : entry ≠ (path, old)) :
    entry ∈ (crew.put index path worker batch).workers ↔
      entry = (path, worker) ∨ entry ∈ crew.workers := by
  simp only [List.mem_iff_getElem?, getElem?_put hworker]
  constructor
  · rintro ⟨position, hposition⟩
    split_ifs at hposition with hsame
    · exact .inl (Option.some.inj hposition).symm
    · exact .inr ⟨position, hposition⟩
  · rintro (rfl | ⟨position, hposition⟩)
    · exact ⟨index, if_pos rfl⟩
    · refine ⟨position, ?_⟩
      rw [if_neg]
      · exact hposition
      · rintro rfl
        exact hentry (Option.some.inj (hposition.symm.trans hworker))

theorem paths_put :
    (crew.put index path worker batch).workers.map Prod.fst = crew.workers.map Prod.fst := by
  apply List.ext_getElem?
  intro position
  rw [List.getElem?_map, List.getElem?_map, getElem?_put hworker]
  split_ifs with hsame
  · rw [← hsame, hworker]
    rfl
  · rfl

omit hworker in
theorem forall_mem_put {P : String × Worker Stage → Prop} (hnew : P (path, worker))
    (hall : ∀ entry ∈ crew.workers, P entry) :
    ∀ entry ∈ crew.workers.set index (path, worker), P entry := by
  intro entry hentry
  rcases List.mem_or_eq_of_mem_set hentry with hmem | rfl
  · exact hall entry hmem
  · exact hnew

/-- While a worker has work to do, the crew is not done. -/
theorem not_over_of_unsettled (hold : old.isSettled = false) : ¬ crew.Over := by
  intro hover
  have hsettled := hover.1 _ (List.mem_of_getElem? hworker)
  rw [hold] at hsettled
  cases hsettled

end Put

theorem Step.paths_eq (h : Step procedure jobs crew next) :
    next.workers.map Prod.fst = crew.workers.map Prod.fst := by
  cases h with
  | start hworker | advance hworker | cancel hworker => exact paths_put hworker
  | @finish _ _ _ _ files events hworker =>
    exact @paths_put _ _ _ _ _ _ (crew.batch.note events files) hworker
  | @fail _ _ _ _ events hworker =>
    exact @paths_put _ _ _ _ _ _ (crew.batch.note events crew.batch.files) hworker
  | hear | close => rfl

theorem Run.paths_eq {files : FileSystem} {paths : List String}
    (h : Run procedure jobs (assembled files paths) crew) : crew.workers.map Prod.fst = paths := by
  refine Run.invariant (fun crew => crew.workers.map Prod.fst = paths)
    (fun hstep hpaths => hstep.paths_eq.trans hpaths) h ?_
  simp [assembled, Function.comp_def]

/-! ## What is told -/

/-- What is told agrees with what the workers have come to. -/
structure Accounted (crew : Crew Stage) : Prop where
  /-- Every result has been heard of or is still to be. -/
  told : ∀ path result, (path, .ofResult result) ∈ crew.workers ↔
    .heard path result ∈ crew.batch.notices ∨ (path, result) ∈ crew.unheard
  /-- The display shows a path of a worker, if any. -/
  shown : ∀ path, .ended (some path) ∈ crew.batch.notices → path ∈ crew.workers.map Prod.fst
  /-- As long as no failure has been heard of, no worker is cancelled and the display ends last. -/
  quiet : crew.batch.failure? = none →
    (∀ worker ∈ crew.workers, worker.2 ≠ .cancelled) ∧ (crew.batch.isClosed = true → crew.Over)

section Accounts

variable {index : Nat} {path : String} {old worker : Worker Stage}

/-- A worker that comes to no result. -/
theorem Accounted.put {batch : Batch} (h : crew.Accounted)
    (hworker : crew.workers[index]? = some (path, old)) (hold : old.isSettled = false)
    (hnotices : batch.notices = crew.batch.notices)
    (hnew : worker.isSettled = false ∨ crew.batch.failure?.isSome = true)
    (hresult : ∀ result, worker ≠ .ofResult result) :
    (crew.put index path worker batch).Accounted where
  told other result := by
    rw [mem_put hworker, Crew.put, hnotices, ← h.told, or_iff_right]
    · rintro ⟨⟩
      exact hresult result rfl
    · rintro ⟨⟩
      rw [Worker.isSettled_ofResult] at hold
      cases hold
  shown other hother := by
    rw [paths_put hworker]
    exact h.shown other (hnotices ▸ hother)
  quiet hnone := by
    have hbefore : crew.batch.failure? = none := by
      rwa [Crew.put, Batch.failure?, hnotices] at hnone
    obtain ⟨hkept, hover⟩ := h.quiet hbefore
    constructor
    · refine forall_mem_put ?_ hkept
      rintro rfl
      rcases hnew with hnew | hnew
      · cases hnew
      · rw [hbefore] at hnew
        cases hnew
    · intro hclosed
      rw [Crew.put, Batch.isClosed, hnotices] at hclosed
      exact absurd (hover hclosed) (not_over_of_unsettled hworker hold)

/-- A worker that comes to a result. -/
theorem Accounted.put_announce (h : crew.Accounted) (batch : Batch)
    (hworker : crew.workers[index]? = some (path, old)) (hold : old.isSettled = false)
    (hnotices : batch.notices = crew.batch.notices) (result : Except Failure Bool) :
    ((crew.put index path (.ofResult result) batch).announce path result).Accounted where
  told other answer := by
    change (other, Worker.ofResult answer) ∈
        (crew.put index path (.ofResult result) batch).workers ↔
      .heard other answer ∈ batch.notices ∨ (other, answer) ∈ crew.unheard ++ [(path, result)]
    rw [mem_put hworker, hnotices, h.told, List.mem_append, List.mem_singleton, or_comm, or_assoc]
    · refine or_congr_right (or_congr_right ?_)
      constructor
      · intro heq
        obtain ⟨rfl, hworkers⟩ := Prod.mk.inj heq
        rw [Worker.ofResult_inj hworkers]
      · rintro ⟨⟩
        rfl
    · rintro ⟨⟩
      rw [Worker.isSettled_ofResult] at hold
      cases hold
  shown other hother := by
    change other ∈ (crew.put index path _ batch).workers.map Prod.fst
    rw [paths_put hworker]
    exact h.shown other (hnotices ▸ hother)
  quiet hnone := by
    change batch.failure? = none at hnone
    rw [Batch.failure?, hnotices] at hnone
    obtain ⟨hkept, hover⟩ := h.quiet hnone
    constructor
    · refine forall_mem_put ?_ hkept
      cases result <;> nofun
    · intro hclosed
      change batch.isClosed = true at hclosed
      rw [Batch.isClosed, hnotices] at hclosed
      exact absurd (hover hclosed) (not_over_of_unsettled hworker hold)

theorem Accounted.hear {result : Except Failure Bool} (h : crew.Accounted)
    (hresult : crew.unheard[index]? = some (path, result)) : Accounted
      { crew with
        unheard := crew.unheard.eraseIdx index
        batch := crew.batch.hear path result } where
  told other answer := by
    obtain ⟨hindex, hitem⟩ := List.getElem?_eq_some_iff.1 hresult
    have hperm := List.getElem_cons_eraseIdx_perm hindex
    refine (h.told other answer).trans ?_
    rw [← hperm.mem_iff, hitem, List.mem_cons, Batch.hear, List.mem_append, List.mem_singleton]
    simp only [Notice.heard.injEq, Prod.mk.injEq, or_assoc]
  shown other hother := by
    refine h.shown other ?_
    simpa [Batch.hear] using hother
  quiet hnone := by
    obtain ⟨hkept, hover⟩ := h.quiet (Batch.failure?_of_hear hnone)
    refine ⟨hkept, fun hclosed => ?_⟩
    -- Once the display has ended without a failure, there is nothing left to be heard of.
    rw [Batch.isClosed_hear] at hclosed
    rw [(hover hclosed).2] at hresult
    cases hresult

theorem Accounted.close (h : crew.Accounted)
    (hend : crew.batch.failure?.isSome = true ∨ crew.Over) :
    Accounted { crew with batch := crew.batch.close } where
  told other answer := by simp [Batch.close, h.told]
  shown other hother := by
    simp only [Batch.close, List.mem_append, List.mem_singleton] at hother
    rcases hother with hbefore | hlast
    · exact h.shown other hbefore
    · have hmem := Option.map_eq_some_iff.1 (Notice.ended.inj hlast).symm
      obtain ⟨⟨_, verdict⟩, hverdict, rfl⟩ := hmem
      have hheard := Batch.mem_verdicts_iff.1 (List.mem_of_getLast? hverdict)
      exact List.mem_map_of_mem ((h.told _ (.ok verdict)).2 (.inl hheard))
  quiet hnone := by
    change crew.batch.close.failure? = none at hnone
    rw [Batch.failure?_close] at hnone
    refine ⟨(h.quiet hnone).1, fun _ => ?_⟩
    rcases hend with hsome | hover
    · rw [hnone] at hsome
      cases hsome
    · exact hover

end Accounts

theorem Step.accounted (h : Step procedure jobs crew next) (haccounted : crew.Accounted) :
    next.Accounted := by
  cases h with
  | start hworker | advance hworker =>
    exact haccounted.put hworker rfl rfl (.inl rfl) (by rintro (_ | _) ⟨⟩)
  | @finish _ _ _ verdict files events hworker =>
    exact haccounted.put_announce (crew.batch.note events files) hworker rfl rfl (.ok verdict)
  | @fail _ _ _ failure events hworker =>
    exact haccounted.put_announce (crew.batch.note events crew.batch.files) hworker rfl rfl
      (.error failure)
  | hear hresult => exact haccounted.hear hresult
  | close _ hend => exact haccounted.close hend
  | cancel hworker hfailed =>
    exact haccounted.put hworker rfl rfl (.inr hfailed) (by rintro (_ | _) ⟨⟩)

theorem Run.accounted {files : FileSystem} {paths : List String}
    (h : Run procedure jobs (assembled files paths) crew) : crew.Accounted := by
  refine Run.invariant Accounted Step.accounted h ⟨?_, ?_, ?_⟩
  · rintro path (failure | verdict) <;> simp [assembled, Batch.start, Worker.ofResult]
  · simp [assembled, Batch.start]
  · simp [assembled, Batch.start, Batch.isClosed]

section Complete

variable (hcomplete : crew.Complete)
include hcomplete

/-- At the end, a worker has failed exactly if a failure has been heard of. -/
theorem Accounted.failed_iff (h : crew.Accounted) :
    crew.Failed ↔ ∃ path failure, crew.batch.failure? = some (path, failure) := by
  constructor
  · rintro ⟨path, failure, hmem⟩
    cases hfailure : crew.batch.failure? with
    | some first => exact ⟨_, _, rfl⟩
    | none =>
      have hover := (h.quiet hfailure).2 hcomplete.closed
      rcases (h.told path (.error failure)).1 hmem with hheard | hunheard
      · exact absurd hheard (Batch.failure?_eq_none_iff.1 hfailure path failure)
      · rw [hover.2] at hunheard
        cases hunheard
  · rintro ⟨path, failure, hfailure⟩
    exact ⟨path, failure,
      (h.told path (.error failure)).2 (.inl (Batch.heard_of_failure? hfailure))⟩

variable (hfailed : ¬ crew.Failed)
include hfailed

theorem Accounted.failure?_eq_none (h : crew.Accounted) : crew.batch.failure? = none := by
  cases hfailure : crew.batch.failure? with
  | none => rfl
  | some first => exact absurd ((h.failed_iff hcomplete).2 ⟨_, _, hfailure⟩) hfailed

/-- Without a failure, workers that have nothing more to come have finished. -/
theorem Accounted.finished (h : crew.Accounted) {path : String} {worker : Worker Stage}
    (hmem : (path, worker) ∈ crew.workers) : ∃ verdict, worker = .finished verdict := by
  have hsettled := hcomplete.settled _ hmem
  cases worker with
  | finished verdict => exact ⟨verdict, rfl⟩
  | waiting | busy => cases hsettled
  | failed failure => exact absurd ⟨path, failure, hmem⟩ hfailed
  | cancelled =>
    exact absurd rfl ((h.quiet (h.failure?_eq_none hcomplete hfailed)).1 _ hmem)

/-- Without a failure, every verdict has been heard of. -/
theorem Accounted.mem_verdicts_iff (h : crew.Accounted) {path : String} {verdict : Bool} :
    (path, verdict) ∈ crew.batch.verdicts ↔ (path, .finished verdict) ∈ crew.workers := by
  have hover := (h.quiet (h.failure?_eq_none hcomplete hfailed)).2 hcomplete.closed
  rw [Batch.mem_verdicts_iff]
  refine Iff.trans ?_ (h.told path (.ok verdict)).symm
  simp [hover.2]

end Complete

section Listed

variable {files : FileSystem} {paths : List String} {path : String}
  (h : Run procedure jobs (assembled files paths) crew) (hpath : path ∈ paths)
include h hpath

theorem Run.exists_worker :
    ∃ (index : Nat) (worker : Worker Stage), crew.workers[index]? = some (path, worker) := by
  rw [← h.paths_eq] at hpath
  obtain ⟨⟨_, worker⟩, hmem, rfl⟩ := List.mem_map.1 hpath
  obtain ⟨index, hindex⟩ := List.mem_iff_getElem?.1 hmem
  exact ⟨index, worker, hindex⟩

theorem Run.exists_finished (hcomplete : crew.Complete) (hfailed : ¬ crew.Failed) :
    ∃ (index : Nat) (verdict : Bool), crew.workers[index]? = some (path, .finished verdict) := by
  obtain ⟨index, worker, hworker⟩ := h.exists_worker hpath
  obtain ⟨verdict, rfl⟩ := h.accounted.finished hcomplete hfailed (List.mem_of_getElem? hworker)
  exact ⟨index, verdict, hworker⟩

end Listed

end Crew

end DecoratorVeil.CommandLine
