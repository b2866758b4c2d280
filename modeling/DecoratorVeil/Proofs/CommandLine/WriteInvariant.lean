import DecoratorVeil.Proofs.CommandLine.WriteSteps
import DecoratorVeil.Proofs.Text.Utf8

/-!
# What workers make of a file

Workers write without locks, and a file may change between any two steps of a worker.  Every text
that is ever written has been formatted, in turn, by workers that have finished, starting from the
text that the file had at first.  A file that one listed path leads to is formatted at most once.
-/

namespace DecoratorVeil.CommandLine
open FileSystem

theorem decodeSource_bytesOf (text : String) :
    Pipeline.decodeSource (Text.Utf8.bytesOf text) = text := by
  rw [Pipeline.decodeSource, Text.Utf8.bytesOf, Text.Utf8.decodeLossy_encode, String.ofList_toList]

/-! ## Versions -/

/-- A text and its formatted form under a path. -/
def FormatsTo (session : Session) (options : FormatOptions) (path text formatted : String) : Prop :=
  (session.pipeline.formatSource session.host options text path).outcome = .ok formatted

theorem FormatsTo.unique {session : Session} {options : FormatOptions} {path text : String}
    {formatted other : String} (h : FormatsTo session options path text formatted)
    (hother : FormatsTo session options path text other) : formatted = other :=
  Except.ok.inj (Eq.trans (Eq.symm h) hother)

section Version

variable (session : Session) (options : FormatOptions) (paths : List String) (place : Location)
  (bytes : List UInt8)

/-- The texts that workers can make of a file, with the listed paths under which it is formatted in
turn.  A worker formats the text that it has read, and writes if it then sees another one. -/
inductive Version : List (String × Nat) → String → Prop
  | original : Version [] (Pipeline.decodeSource bytes)
  | rewritten {turns seenTurns : List (String × Nat)} {text seen formatted : String}
      {listing : String × Nat} (hversion : Version turns text) (hseen : Version seenTurns seen)
      (hturn : listing ∉ turns) (hseenTurn : listing ∉ seenTurns)
      (hlisted : listing ∈ paths.zipIdx)
      (hleads : LeadsTo session.host options listing.1 place bytes)
      (hformat : FormatsTo session options listing.1 text formatted)
      (hchanged : seen ≠ formatted) :
      Version (turns ++ [listing]) formatted

variable {session options paths place bytes} {turns : List (String × Nat)} {text : String}

theorem Version.nodup (h : Version session options paths place bytes turns text) : turns.Nodup := by
  induction h with
  | original => exact List.nodup_nil
  | rewritten _ _ hturn _ _ _ _ _ ih _ =>
    refine List.nodup_append.2 ⟨ih, by simp, ?_⟩
    rintro first hfirst second hsecond rfl
    exact hturn (List.mem_singleton.1 hsecond ▸ hfirst)

theorem Version.listed (h : Version session options paths place bytes turns text) :
    ∀ listing ∈ turns, listing ∈ paths.zipIdx ∧
      LeadsTo session.host options listing.1 place bytes := by
  induction h with
  | original => nofun
  | rewritten _ _ _ _ hlisted hleads _ _ ih _ =>
    intro listing hlisting
    rcases List.mem_append.1 hlisting with hmem | hmem
    · exact ih listing hmem
    · rw [List.mem_singleton.1 hmem]
      exact ⟨hlisted, hleads⟩

def formattedInTurn (session : Session) (options : FormatOptions) (text : String)
    (turns : List (String × Nat)) : Except Failure String :=
  turns.foldlM (fun text listing =>
    (session.pipeline.formatSource session.host options text listing.1).outcome) text

theorem Version.formatted (h : Version session options paths place bytes turns text) :
    formattedInTurn session options (Pipeline.decodeSource bytes) turns = .ok text := by
  induction h with
  | original => rfl
  | rewritten _ _ _ _ _ _ hformat _ ih _ =>
    rw [formattedInTurn] at ih ⊢
    rw [List.foldlM_append]
    exact bind_eq_ok_iff.2 ⟨_, ih, bind_eq_ok_iff.2 ⟨_, hformat, rfl⟩⟩

end Version

/-- No two of the listed paths lead to one file. -/
def LeadApart (host : Host) (options : FormatOptions) (paths : List String) : Prop :=
  paths.Pairwise fun first second => ∀ place bytes,
    LeadsTo host options first place bytes → ¬ LeadsTo host options second place bytes

theorem LeadApart.eq_of_leadsTo {host : Host} {options : FormatOptions} {paths : List String}
    (h : LeadApart host options paths) {place : Location} {bytes : List UInt8}
    {first second : String × Nat} (hfirst : first ∈ paths.zipIdx) (hsecond : second ∈ paths.zipIdx)
    (hleads : LeadsTo host options first.1 place bytes)
    (hleads' : LeadsTo host options second.1 place bytes) : first = second := by
  obtain ⟨path, index⟩ := first
  obtain ⟨other, position⟩ := second
  obtain ⟨hindex, rfl⟩ := List.getElem?_eq_some_iff.1 (List.mk_mem_zipIdx_iff_getElem?.1 hfirst)
  obtain ⟨hposition, rfl⟩ := List.getElem?_eq_some_iff.1 (List.mk_mem_zipIdx_iff_getElem?.1 hsecond)
  have hpairwise := List.pairwise_iff_getElem.1 h
  rcases Nat.lt_trichotomy index position with hlt | rfl | hlt
  · exact absurd hleads' (hpairwise _ _ hindex hposition hlt place bytes hleads)
  · rfl
  · exact absurd hleads (hpairwise _ _ hposition hindex hlt place bytes hleads')

/-- A file that one path leads to is formatted at most once, and written only if its text is not the
formatted one. -/
theorem Version.of_apart {session : Session} {options : FormatOptions} {paths : List String}
    (hapart : LeadApart session.host options paths) {place : Location} {bytes : List UInt8}
    {listing : String × Nat} (hlisted : listing ∈ paths.zipIdx)
    (hleads : LeadsTo session.host options listing.1 place bytes) {turns : List (String × Nat)}
    {text : String} (h : Version session options paths place bytes turns text) :
    turns = [] ∧ text = Pipeline.decodeSource bytes ∨
      turns = [listing] ∧ Pipeline.decodeSource bytes ≠ text ∧
        FormatsTo session options listing.1 (Pipeline.decodeSource bytes) text := by
  induction h with
  | original => exact .inl ⟨rfl, rfl⟩
  | rewritten _ _ hturn hseenTurn hlisted' hleads' hformat hchanged ih ihseen =>
    obtain rfl := hapart.eq_of_leadsTo hlisted hlisted' hleads hleads'
    -- The one worker on the file made neither the text it read nor the one it saw last.
    rcases ih with ⟨rfl, rfl⟩ | ⟨rfl, -⟩
    · rcases ihseen with ⟨-, rfl⟩ | ⟨rfl, -⟩
      · exact .inr ⟨rfl, hchanged, hformat⟩
      · exact absurd (List.mem_singleton_self _) hseenTurn
    · exact absurd (List.mem_singleton_self _) hturn

/-! ## The invariant -/

section Invariant

variable (session : Session) (options : FormatOptions) (paths : List String)
  (crew : Crew WriteStage) (place : Location) (bytes : List UInt8)

def Done (listing : String × Nat) : Prop :=
  ∃ verdict, crew.workers[listing.2]? = some (listing.1, .finished verdict)

/-- A text that finished workers have made of a file. -/
structure Made (turns : List (String × Nat)) (text : String) : Prop where
  version : Version session options paths place bytes turns text
  done : ∀ listing ∈ turns, Done crew listing

/-- A file holds a text that finished workers have made of it. -/
def Rewritten : Prop :=
  ∃ turns text, turns ≠ [] ∧ Made session options paths crew place bytes turns text ∧
    crew.batch.files.content? place = some (Text.Utf8.bytesOf text)

/-- A text that a worker can have read in a file by now. -/
def Known (text : String) : Prop :=
  ∃ turns, Made session options paths crew place bytes turns text ∧
    (turns = [] ∨ Rewritten session options paths crew place bytes)

/-- A worker formats a known text and writes only if it has seen another one; when it has finished,
its file has been rewritten or was formatted already. -/
def WriteStage.Sound (path : String) : Worker WriteStage → Prop
  | .busy (.formatting code) => ∃ place bytes, LeadsTo session.host options path place bytes ∧
      Known session options paths crew place bytes code
  | .busy (.comparing formatted) => ∃ place bytes, LeadsTo session.host options path place bytes ∧
      ∃ code, Known session options paths crew place bytes code ∧
        FormatsTo session options path code formatted
  | .busy (.writing target formatted) => ∃ place bytes,
      LeadsTo session.host options path place bytes ∧
      session.host.files.find [] target = .ok place ∧
      ∃ code seen, Known session options paths crew place bytes code ∧
        Known session options paths crew place bytes seen ∧ seen ≠ formatted ∧
        FormatsTo session options path code formatted
  | .finished _ => ∃ place bytes, LeadsTo session.host options path place bytes ∧
      (Rewritten session options paths crew place bytes ∨
        FormatsTo session options path (Pipeline.decodeSource bytes) (Pipeline.decodeSource bytes))
  | .waiting | .busy .reading | .failed _ | .cancelled => True

/-- Only contents change, and a file holds its bytes or what finished workers have made of it. -/
structure WriteInvariant : Prop where
  outline : SameOutline session.host.files crew.batch.files
  listed : crew.workers.map Prod.fst = paths
  contents : ∀ place bytes, session.host.files.content? place = some bytes →
    crew.batch.files.content? place = some bytes ∨
      Rewritten session options paths crew place bytes
  sound : ∀ (index : Nat) path worker, crew.workers[index]? = some (path, worker) →
    WriteStage.Sound session options paths crew path worker

/-- Workers that have finished stay so, and a file changes only by being rewritten. -/
structure Grows (next : Crew WriteStage) : Prop where
  done : ∀ listing, Done crew listing → Done next listing
  contents : ∀ place bytes, session.host.files.content? place = some bytes →
    next.batch.files.content? place = crew.batch.files.content? place ∨
      Rewritten session options paths next place bytes

variable {session options paths crew place bytes} {next : Crew WriteStage}

theorem Made.grow (hgrows : Grows session options paths crew next) {turns : List (String × Nat)}
    {text : String} (h : Made session options paths crew place bytes turns text) :
    Made session options paths next place bytes turns text :=
  ⟨h.version, fun listing hlisting => hgrows.done listing (h.done listing hlisting)⟩

section Original

variable (hbytes : session.host.files.content? place = some bytes)
include hbytes

theorem Rewritten.grow (hgrows : Grows session options paths crew next)
    (h : Rewritten session options paths crew place bytes) :
    Rewritten session options paths next place bytes := by
  rcases hgrows.contents place bytes hbytes with hsame | hnext
  · obtain ⟨turns, text, hturns, hmade, hcontent⟩ := h
    exact ⟨turns, text, hturns, hmade.grow hgrows, hsame.trans hcontent⟩
  · exact hnext

theorem Known.grow (hgrows : Grows session options paths crew next) {text : String}
    (h : Known session options paths crew place bytes text) :
    Known session options paths next place bytes text := by
  obtain ⟨turns, hmade, hturns⟩ := h
  exact ⟨turns, hmade.grow hgrows, hturns.imp_right (Rewritten.grow hbytes hgrows)⟩

/-- What is read in a file is a known text. -/
theorem WriteInvariant.known (h : WriteInvariant session options paths crew) {now : List UInt8}
    (hnow : crew.batch.files.content? place = some now) :
    Known session options paths crew place bytes (Pipeline.decodeSource now) := by
  rcases h.contents place bytes hbytes with hsame | hrewritten
  · obtain rfl : now = bytes := Option.some.inj (hnow.symm.trans hsame)
    exact ⟨[], ⟨.original, nofun⟩, .inl rfl⟩
  · obtain ⟨turns, text, hturns, hmade, hcontent⟩ := id hrewritten
    obtain rfl : now = Text.Utf8.bytesOf text := Option.some.inj (hnow.symm.trans hcontent)
    rw [decodeSource_bytesOf]
    exact ⟨turns, hmade, .inr hrewritten⟩

end Original

theorem WriteStage.Sound.grow (hgrows : Grows session options paths crew next) {path : String}
    {worker : Worker WriteStage} (h : WriteStage.Sound session options paths crew path worker) :
    WriteStage.Sound session options paths next path worker := by
  cases worker with
  | waiting | failed | cancelled => trivial
  | finished verdict =>
    obtain ⟨place, bytes, hleads, hresult⟩ := h
    exact ⟨place, bytes, hleads, hresult.imp_left (Rewritten.grow hleads.content hgrows)⟩
  | busy stage =>
    cases stage with
    | reading => trivial
    | formatting code =>
      obtain ⟨place, bytes, hleads, hcode⟩ := h
      exact ⟨place, bytes, hleads, hcode.grow hleads.content hgrows⟩
    | comparing formatted =>
      obtain ⟨place, bytes, hleads, code, hcode, hformat⟩ := h
      exact ⟨place, bytes, hleads, code, hcode.grow hleads.content hgrows, hformat⟩
    | writing target formatted =>
      obtain ⟨place, bytes, hleads, htarget, code, seen, hcode, hseen, hrest⟩ := h
      exact ⟨place, bytes, hleads, htarget, code, seen, hcode.grow hleads.content hgrows,
        hseen.grow hleads.content hgrows, hrest⟩

theorem WriteInvariant.mem_zipIdx (h : WriteInvariant session options paths crew) {index : Nat}
    {path : String} {worker : Worker WriteStage}
    (hworker : crew.workers[index]? = some (path, worker)) : (path, index) ∈ paths.zipIdx := by
  rw [List.mk_mem_zipIdx_iff_getElem?, ← h.listed, List.getElem?_map, hworker]
  rfl

/-! ## Steps -/

section Put

variable {index : Nat} {path : String} {old worker : Worker WriteStage} {batch : Batch}
  (hworker : crew.workers[index]? = some (path, old)) (hold : old.isSettled = false)
include hworker hold

theorem Done.put {listing : String × Nat} (h : Done crew listing) :
    Done (crew.put index path worker batch) listing := by
  obtain ⟨verdict, hfinished⟩ := h
  refine ⟨verdict, ?_⟩
  rw [Crew.getElem?_put hworker, if_neg]
  · exact hfinished
  · rintro rfl
    cases hworker.symm.trans hfinished
    cases hold

omit hold in
theorem WriteInvariant.put (h : WriteInvariant session options paths crew)
    (houtline : SameOutline session.host.files batch.files)
    (hgrows : Grows session options paths crew (crew.put index path worker batch))
    (hsound : WriteStage.Sound session options paths (crew.put index path worker batch) path
      worker) :
    WriteInvariant session options paths (crew.put index path worker batch) where
  outline := houtline
  listed := by
    rw [← h.listed]
    exact Crew.paths_put hworker
  contents := by
    intro place bytes hbytes
    rcases hgrows.contents place bytes hbytes with hsame | hnext
    · rcases h.contents place bytes hbytes with hkept | hrewritten
      · exact .inl (hsame.trans hkept)
      · exact .inr (hrewritten.grow hbytes hgrows)
    · exact .inr hnext
  sound := by
    intro position listed other hother
    rw [Crew.getElem?_put hworker] at hother
    split_ifs at hother with hsame
    · cases hother
      exact hsound
    · exact (h.sound position listed other hother).grow hgrows

/-- A step that leaves the files alone. -/
theorem WriteInvariant.put_of_files_eq (h : WriteInvariant session options paths crew)
    (hfiles : batch.files = crew.batch.files)
    (hsound : WriteStage.Sound session options paths crew path worker) :
    WriteInvariant session options paths (crew.put index path worker batch) := by
  have hgrows : Grows session options paths crew (crew.put index path worker batch) :=
    ⟨fun _ => Done.put hworker hold, fun _ _ _ => .inl (congrArg (content? · _) hfiles)⟩
  exact h.put hworker (hfiles ▸ h.outline) hgrows (hsound.grow hgrows)

end Put

/-- The text that a worker is about to write has been formatted by finished workers before, and by
no step of its own. -/
theorem WriteInvariant.made_of_writing (h : WriteInvariant session options paths crew) {index : Nat}
    {path target formatted : String}
    (hworker : crew.workers[index]? = some (path, .busy (.writing target formatted))) :
    ∃ place bytes turns, LeadsTo session.host options path place bytes ∧
      crew.batch.files.find [] target = .ok place ∧ (∀ listing ∈ turns, Done crew listing) ∧
      Version session options paths place bytes (turns ++ [(path, index)]) formatted := by
  obtain ⟨place, bytes, hleads, htarget, code, seen, ⟨turns, hcode, -⟩, ⟨seenTurns, hseen, -⟩,
    hchanged, hformat⟩ := h.sound index path _ hworker
  -- The worker has not finished yet, so it has had no part in any text made so far.
  have hfresh {turns : List (String × Nat)} (hdone : ∀ listing ∈ turns, Done crew listing) :
      (path, index) ∉ turns := by
    intro hmem
    obtain ⟨verdict, hfinished⟩ := hdone _ hmem
    cases hworker.symm.trans hfinished
  have hlisted := h.mem_zipIdx hworker
  exact ⟨place, bytes, turns, hleads, (h.outline.find_eq _ _).symm.trans htarget, hcode.done,
    .rewritten hcode.version hseen.version (hfresh hcode.done) (hfresh hseen.done) hlisted hleads
      hformat hchanged⟩

/-- The write that ends the work on a file. -/
theorem WriteInvariant.put_of_rewrite (h : WriteInvariant session options paths crew) {index : Nat}
    {path target formatted : String} {verdict : Bool} {batch : Batch}
    (hworker : crew.workers[index]? = some (path, .busy (.writing target formatted)))
    (hwritten : (rewrite crew.batch.files path target formatted).outcome =
      .ok (verdict, batch.files)) :
    WriteInvariant session options paths (crew.put index path (.finished verdict) batch) := by
  obtain ⟨place, bytes, turns, hleads, htarget, hdone, hversion⟩ := h.made_of_writing hworker
  obtain ⟨found, old, mode, hfound, hentry, -, hfiles⟩ := rewrite_eq_ok hwritten
  obtain rfl : place = found := Except.ok.inj (htarget.symm.trans hfound)
  have hput {listing : String × Nat} (hlisting : Done crew listing) :
      Done (crew.put index path (.finished verdict) batch) listing :=
    hlisting.put hworker rfl
  have hself : Done (crew.put index path (.finished verdict) batch) (path, index) :=
    ⟨verdict, (Crew.getElem?_put hworker _ _ _).trans (if_pos rfl)⟩
  have hmade : Made session options paths (crew.put index path (.finished verdict) batch) place
      bytes (turns ++ [(path, index)]) formatted := by
    refine ⟨hversion, fun listing hlisting => ?_⟩
    rcases List.mem_append.1 hlisting with hmem | hmem
    · exact hput (hdone listing hmem)
    · exact List.mem_singleton.1 hmem ▸ hself
  have hrewritten : Rewritten session options paths (crew.put index path (.finished verdict) batch)
      place bytes := by
    refine ⟨_, formatted, by simp, hmade, ?_⟩
    change batch.files.content? place = _
    rw [hfiles]
    exact content?_put_self _ _ _ (ne_nil_of_content? hleads.content)
  have hgrows :
      Grows session options paths crew (crew.put index path (.finished verdict) batch) := by
    refine ⟨fun _ => hput, fun other others hothers => ?_⟩
    by_cases hplace : other = place
    · subst hplace
      obtain rfl : others = bytes := Option.some.inj (hothers.symm.trans hleads.content)
      exact .inr hrewritten
    · left
      change batch.files.content? other = _
      rw [hfiles]
      exact content?_put_of_ne _ _ hplace
  refine h.put hworker ?_ hgrows ⟨place, bytes, hleads, .inl hrewritten⟩
  rw [hfiles]
  exact h.outline.trans (sameOutline_put _ hentry)

/-- A step after which a worker goes on. -/
theorem WriteInvariant.sound_of_goesOn (h : WriteInvariant session options paths crew)
    {path : String} {stage next : WriteStage} {events : List Event}
    (hsound : WriteStage.Sound session options paths crew path (.busy stage))
    (hstep : (writeSteps session options).step crew.batch.files path stage =
      ⟨events, .ok (.inl next)⟩) :
    WriteStage.Sound session options paths crew path (.busy next) := by
  obtain ⟨code, rfl, rfl, hread⟩ | ⟨code, formatted, rfl, rfl, hformat⟩ |
    ⟨formatted, target, now, rfl, rfl, hread, hchanged⟩ := writeSteps_goesOn hstep
  · obtain ⟨place, bytes, now, hleads, hnow, rfl⟩ := readSource_hostWith_eq_ok h.outline hread
    exact ⟨place, bytes, hleads, h.known hleads.content hnow⟩
  · obtain ⟨place, bytes, hleads, hcode⟩ := hsound
    rw [formatSource_hostWith h.outline] at hformat
    exact ⟨place, bytes, hleads, code, hcode, hformat⟩
  · obtain ⟨place, bytes, hleads, code, hcode, hformat⟩ := hsound
    obtain ⟨place', bytes', hleads', htarget, hnow⟩ := reread_hostWith_eq_ok h.outline hread
    obtain ⟨rfl, rfl⟩ := hleads.unique hleads'
    exact ⟨place, bytes, hleads, htarget, code, _, hcode, h.known hleads.content hnow, hchanged,
      hformat⟩

/-- The end of the work on a file that needs no write. -/
theorem WriteInvariant.sound_of_unchanged (h : WriteInvariant session options paths crew)
    {path target : String} {now : List UInt8} (verdict : Bool)
    (hsound : WriteStage.Sound session options paths crew path
      (.busy (.comparing (Pipeline.decodeSource now))))
    (hread : (reread (session.hostWith crew.batch.files) options path).outcome =
      .ok (target, now)) :
    WriteStage.Sound session options paths crew path (.finished verdict) := by
  obtain ⟨place, bytes, hleads, code, ⟨turns, hcode, hturns⟩, hformat⟩ := hsound
  obtain ⟨place', bytes', hleads', -, hnow⟩ := reread_hostWith_eq_ok h.outline hread
  obtain ⟨rfl, rfl⟩ := hleads.unique hleads'
  refine ⟨place, bytes, hleads, ?_⟩
  rcases hturns with rfl | hrewritten
  · rcases h.contents place bytes hleads.content with hkept | hrewritten
    · -- The file is as it was when it was read, and its text is the formatted one.
      obtain rfl : now = bytes := Option.some.inj (hnow.symm.trans hkept)
      have htext : Except.ok code = (.ok (Pipeline.decodeSource now) : Except Failure String) :=
        hcode.version.formatted.symm
      cases htext
      exact .inr hformat
    · exact .inl hrewritten
  · exact .inl hrewritten

/-- What is told has no part in the invariant. -/
theorem WriteInvariant.retell (h : WriteInvariant session options paths crew)
    (hworkers : next.workers = crew.workers) (hfiles : next.batch.files = crew.batch.files) :
    WriteInvariant session options paths next := by
  have hgrows : Grows session options paths crew next := by
    refine ⟨fun listing hdone => ?_, fun _ _ _ => .inl (congrArg (content? · _) hfiles)⟩
    rwa [Done, hworkers]
  refine ⟨hfiles ▸ h.outline, hworkers ▸ h.listed, fun place bytes hbytes => ?_, ?_⟩
  · rcases h.contents place bytes hbytes with hkept | hrewritten
    · exact .inl (hfiles ▸ hkept)
    · exact .inr (hrewritten.grow hbytes hgrows)
  · intro index path worker hworker
    rw [hworkers] at hworker
    exact (h.sound index path worker hworker).grow hgrows

theorem WriteInvariant.step {jobs : Nat}
    (hstep : Crew.Step (writeSteps session options) jobs crew next)
    (h : WriteInvariant session options paths crew) :
    WriteInvariant session options paths next := by
  cases hstep with
  | start hworker | cancel hworker => exact h.put_of_files_eq hworker rfl rfl trivial
  | advance hworker hgoes =>
    exact h.put_of_files_eq hworker rfl rfl (h.sound_of_goesOn (h.sound _ _ _ hworker) hgoes)
  | @fail index path stage failure events hworker =>
    have hfailed : WriteInvariant session options paths (crew.put index path (.failed failure)
        (crew.batch.note events crew.batch.files)) :=
      h.put_of_files_eq hworker rfl rfl trivial
    exact hfailed.retell rfl rfl
  | @finish index path stage verdict files events hworker hends =>
    have hfinished : WriteInvariant session options paths (crew.put index path (.finished verdict)
        (crew.batch.note events files)) := by
      obtain ⟨formatted, target, now, rfl, rfl, hread, rfl⟩ | ⟨target, formatted, rfl, hwritten⟩ :=
        writeSteps_finishes hends
      · exact h.put_of_files_eq hworker rfl rfl
          (h.sound_of_unchanged _ (h.sound _ _ _ hworker) hread)
      · exact h.put_of_rewrite hworker hwritten
    exact hfinished.retell rfl rfl
  | hear | close => exact h.retell rfl rfl

theorem WriteInvariant.run {jobs : Nat}
    (hrun : Crew.Run (writeSteps session options) jobs (.assembled session.host.files paths) crew) :
    WriteInvariant session options paths crew := by
  refine Crew.Run.invariant (WriteInvariant session options paths) WriteInvariant.step hrun ?_
  refine ⟨.refl _, ?_, fun _ _ hbytes => .inl hbytes, ?_⟩
  · simp [Crew.assembled, Function.comp_def]
  · intro index path worker hworker
    simp only [Crew.assembled, List.getElem?_map, Option.map_eq_some_iff] at hworker
    obtain ⟨_, -, ⟨⟩⟩ := hworker
    trivial

end Invariant

end DecoratorVeil.CommandLine
