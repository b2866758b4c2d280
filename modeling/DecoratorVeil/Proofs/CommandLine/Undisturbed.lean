import DecoratorVeil.Proofs.CommandLine.InTurn

/-!
# Work that leaves the files as they are

Where no work on the listed files changes any of them, every worker meets the files as they were at
first.  It comes to what its work comes to alone, in whatever order the workers take their steps.
-/

namespace DecoratorVeil.CommandLine

variable {Stage : Type} {procedure : Procedure Stage} {files : FileSystem} {path : String}
  {stage : Stage} {events : List Event} {answer : Traced (Bool × FileSystem)}

namespace Procedure.Alone

theorem of_goesOn {next : Stage} (h : procedure.Alone files path stage answer)
    (hstep : procedure.step files path stage = ⟨events, .ok (.inl next)⟩) :
    ∃ rest, procedure.Alone files path next rest ∧ rest.outcome = answer.outcome := by
  cases h with
  | finishes hends | fails hends => cases hstep.symm.trans hends
  | goesOn hgoes hrest =>
    cases hstep.symm.trans hgoes
    exact ⟨_, hrest, rfl⟩

theorem of_finishes {verdict : Bool} {after : FileSystem}
    (h : procedure.Alone files path stage answer)
    (hstep : procedure.step files path stage = ⟨events, .ok (.inr (verdict, after))⟩) :
    answer.outcome = .ok (verdict, after) := by
  cases h with
  | fails hends | goesOn hends => cases hstep.symm.trans hends
  | finishes hends =>
    cases hstep.symm.trans hends
    rfl

theorem of_fails {failure : Failure} (h : procedure.Alone files path stage answer)
    (hstep : procedure.step files path stage = ⟨events, .error failure⟩) :
    answer.outcome = .error failure := by
  cases h with
  | finishes hends | goesOn hends => cases hstep.symm.trans hends
  | fails hends =>
    cases hstep.symm.trans hends
    rfl

end Procedure.Alone

/-- The work on the listed files changes none of them. -/
def Steady (work : Work) (files : FileSystem) (paths : List String) : Prop :=
  ∀ path ∈ paths, ∀ verdict after, (work files path).outcome = .ok (verdict, after) →
    after = files

/-- A worker is on the way to what its work comes to alone, or has come to it. -/
def Worker.OnCourse (procedure : Procedure Stage) (work : Work) (files : FileSystem) :
    String × Worker Stage → Prop
  | (path, .busy stage) => ∃ answer, procedure.Alone files path stage answer ∧
      answer.outcome = (work files path).outcome
  | (path, .finished verdict) => (work files path).outcome = .ok (verdict, files)
  | (path, .failed failure) => (work files path).outcome = .error failure
  | (_, .waiting) | (_, .cancelled) => True

/-- The files are as they were, and every worker is on its course. -/
structure Undisturbed (procedure : Procedure Stage) (work : Work) (files : FileSystem)
    (paths : List String) (crew : Crew Stage) : Prop where
  listed : crew.workers.map Prod.fst = paths
  unchanged : crew.batch.files = files
  onCourse : ∀ worker ∈ crew.workers, Worker.OnCourse procedure work files worker

section Steps

variable {work : Work} {paths : List String} {crew next : Crew Stage} {jobs : Nat}
  (hperforms : procedure.Performs work) (hsteady : Steady work files paths)
include hperforms hsteady

theorem Undisturbed.step (h : Undisturbed procedure work files paths crew)
    (hstep : Crew.Step procedure jobs crew next) :
    Undisturbed procedure work files paths next := by
  obtain ⟨hlisted, hfiles, hcourse⟩ := h
  have hpaths := hstep.paths_eq.trans hlisted
  cases hstep with
  | @start index path hworker =>
    exact ⟨hpaths, hfiles, Crew.forall_mem_put ⟨_, hperforms files path, rfl⟩ hcourse⟩
  | advance hworker hgoes =>
    obtain ⟨answer, halone, houtcome⟩ := hcourse _ (List.mem_of_getElem? hworker)
    obtain ⟨rest, hrest, hsame⟩ := halone.of_goesOn (hfiles ▸ hgoes)
    exact ⟨hpaths, hfiles, Crew.forall_mem_put ⟨rest, hrest, hsame.trans houtcome⟩ hcourse⟩
  | @finish index path stage verdict after events hworker hends =>
    have hmem := List.mem_of_getElem? hworker
    obtain ⟨answer, halone, houtcome⟩ := hcourse _ hmem
    have hresult := houtcome.symm.trans (halone.of_finishes (hfiles ▸ hends))
    obtain rfl := hsteady path (hlisted ▸ List.mem_map_of_mem hmem) verdict after hresult
    exact ⟨hpaths, rfl, Crew.forall_mem_put hresult hcourse⟩
  | fail hworker hfails =>
    obtain ⟨answer, halone, houtcome⟩ := hcourse _ (List.mem_of_getElem? hworker)
    have hresult := houtcome.symm.trans (halone.of_fails (hfiles ▸ hfails))
    exact ⟨hpaths, hfiles, Crew.forall_mem_put hresult hcourse⟩
  | hear | close => exact ⟨hpaths, hfiles, hcourse⟩
  | cancel => exact ⟨hpaths, hfiles, Crew.forall_mem_put trivial hcourse⟩

theorem Crew.Run.undisturbed (hrun : Crew.Run procedure jobs (.assembled files paths) crew) :
    Undisturbed procedure work files paths crew := by
  refine Crew.Run.invariant (Undisturbed procedure work files paths)
    (fun hstep h => h.step hperforms hsteady hstep) hrun ⟨?_, rfl, ?_⟩
  · simp [Crew.assembled, Function.comp_def]
  · intro worker hworker
    obtain ⟨path, -, rfl⟩ := List.mem_map.1 hworker
    trivial

end Steps

end DecoratorVeil.CommandLine
