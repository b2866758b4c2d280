import DecoratorVeil.Proofs.CommandLine.InTurn
import DecoratorVeil.Proofs.FileSystem.Contents
import DecoratorVeil.Proofs.Pipeline

/-!
# The steps of writing a file

A file is read, its text is formatted, the file is read again, and it is overwritten if its text
differs from the formatted one.  While other files change in content only, a path leads to the same
place at every step, and formatting does not depend on the files at all.
-/

namespace DecoratorVeil.CommandLine
open FileSystem

inductive WriteStage where
  | reading
  | formatting (code : String)
  | comparing (formatted : String)
  | writing (target formatted : String)

/-- Reads the file of a path again, under the path that it is written to. -/
def reread (host : Host) (options : FormatOptions) (path : String) :
    Traced (String × List UInt8) := do
  let target ← Pipeline.resolvePath host options path
  let bytes ← Traced.ofExcept (Pipeline.readResolved host target)
  return (target, bytes)

def rewrite (files : FileSystem) (path target formatted : String) : Traced (Bool × FileSystem) := do
  let written := files.overwrite [] target (Text.Utf8.bytesOf formatted)
  let after ← Traced.ofExcept (written.mapError (Failure.system · target))
  Traced.log ("Rewrote " ++ path)
  return (true, after)

/-- A text that has not changed ends the work, and another one is to be written. -/
def compareStage (files : FileSystem) (formatted : String) (found : String × List UInt8) :
    WriteStage ⊕ Bool × FileSystem :=
  if Pipeline.decodeSource found.2 == formatted then .inr (true, files)
  else .inl (.writing found.1 formatted)

/-- Writing in four steps: reading the file, formatting its text, reading the file again, and
writing it. -/
def writeSteps (session : Session) (options : FormatOptions) : Procedure WriteStage where
  first := .reading
  step files path
    | .reading => (fun code => .inl (.formatting code)) <$>
        Pipeline.readSource (session.hostWith files) options path
    | .formatting code => (fun formatted => .inl (.comparing formatted)) <$>
        session.pipeline.formatSource (session.hostWith files) options code path
    | .comparing formatted =>
        compareStage files formatted <$> reread (session.hostWith files) options path
    | .writing target formatted => .inr <$> rewrite files path target formatted

theorem writeSteps_performs (session : Session) (options : FormatOptions) :
    (writeSteps session options).Performs (writeWork session options) := by
  intro files path
  have hwork : writeWork session options files path =
      Pipeline.readSource (session.hostWith files) options path >>= fun code =>
        session.pipeline.formatSource (session.hostWith files) options code path >>=
          fun formatted => reread (session.hostWith files) options path >>= fun found =>
            if Pipeline.decodeSource found.2 == formatted then return (true, files)
            else rewrite files path found.1 formatted := by
    simp only [writeWork, Pipeline.formatFile, reread, Traced.bind_assoc]
    rfl
  rw [hwork]
  refine .bind rfl ?_ (by rintro code answer ⟨⟩)
  rintro code next ⟨⟩
  refine .bind rfl ?_ (by rintro formatted answer ⟨⟩)
  rintro formatted next ⟨⟩
  refine .bind rfl ?_ ?_
  · intro found next hnext
    rw [compareStage] at hnext
    split_ifs at hnext with hsame
    rw [if_neg hsame]
    cases hnext
    exact .last rfl
  · intro found answer hanswer
    rw [compareStage] at hanswer
    split_ifs at hanswer with hsame
    rw [if_pos hsame]
    cases hanswer
    rfl

theorem outcome_writeWork (session : Session) (options : FormatOptions) (files : FileSystem)
    (path : String) : (writeWork session options files path).outcome = (do
      let formatted ← (session.pipeline.formatFile (session.hostWith files) options path).outcome
      let target ← (session.hostWith files).resolve options.directory path
      let bytes ← Pipeline.readResolved (session.hostWith files) target
      if Pipeline.decodeSource bytes == formatted then return (true, files)
      else
        let written := files.overwrite [] target (Text.Utf8.bytesOf formatted)
        let after ← written.mapError (Failure.system · target)
        return (true, after)) := by
  simp only [writeWork, Traced.outcome_bind, Pipeline.resolvePath, Traced.outcome_ofExcept]
  congr! 6 with formatted target bytes
  split_ifs
  · rfl
  · rw [Traced.outcome_bind, Traced.outcome_ofExcept]
    rfl

section Cases

variable {session : Session} {options : FormatOptions} {files : FileSystem} {path : String}
  {stage : WriteStage} {events : List Event}

/-- The steps after which a worker goes on. -/
theorem writeSteps_goesOn {next : WriteStage}
    (h : (writeSteps session options).step files path stage = ⟨events, .ok (.inl next)⟩) :
    (∃ code, stage = .reading ∧ next = .formatting code ∧
      (Pipeline.readSource (session.hostWith files) options path).outcome = .ok code) ∨
    (∃ code formatted, stage = .formatting code ∧ next = .comparing formatted ∧
      (session.pipeline.formatSource (session.hostWith files) options code path).outcome =
        .ok formatted) ∨
    (∃ formatted target bytes, stage = .comparing formatted ∧ next = .writing target formatted ∧
      (reread (session.hostWith files) options path).outcome = .ok (target, bytes) ∧
      Pipeline.decodeSource bytes ≠ formatted) := by
  have houtcome := congrArg Traced.outcome h
  cases stage with
  | reading =>
    obtain ⟨code, hread, ⟨⟩⟩ := map_eq_ok_iff.1 ((Traced.outcome_map _ _).symm.trans houtcome)
    exact .inl ⟨code, rfl, rfl, hread⟩
  | formatting code =>
    obtain ⟨formatted, hformat, ⟨⟩⟩ :=
      map_eq_ok_iff.1 ((Traced.outcome_map _ _).symm.trans houtcome)
    exact .inr (.inl ⟨code, formatted, rfl, rfl, hformat⟩)
  | comparing formatted =>
    obtain ⟨⟨target, bytes⟩, hread, hnext⟩ :=
      map_eq_ok_iff.1 ((Traced.outcome_map _ _).symm.trans houtcome)
    rw [compareStage] at hnext
    split_ifs at hnext with hsame
    cases hnext
    exact .inr (.inr ⟨formatted, target, bytes, rfl, rfl, hread, by simpa using hsame⟩)
  | writing target formatted =>
    obtain ⟨_, -, ⟨⟩⟩ := map_eq_ok_iff.1 ((Traced.outcome_map _ _).symm.trans houtcome)

/-- The steps that end the work on a file. -/
theorem writeSteps_finishes {verdict : Bool} {after : FileSystem}
    (h : (writeSteps session options).step files path stage =
      ⟨events, .ok (.inr (verdict, after))⟩) :
    (∃ formatted target bytes, stage = .comparing formatted ∧ after = files ∧
      (reread (session.hostWith files) options path).outcome = .ok (target, bytes) ∧
      Pipeline.decodeSource bytes = formatted) ∨
    (∃ target formatted, stage = .writing target formatted ∧
      (rewrite files path target formatted).outcome = .ok (verdict, after)) := by
  have houtcome := congrArg Traced.outcome h
  cases stage with
  | reading | formatting =>
    obtain ⟨_, -, ⟨⟩⟩ := map_eq_ok_iff.1 ((Traced.outcome_map _ _).symm.trans houtcome)
  | comparing formatted =>
    obtain ⟨⟨target, bytes⟩, hread, hend⟩ :=
      map_eq_ok_iff.1 ((Traced.outcome_map _ _).symm.trans houtcome)
    rw [compareStage] at hend
    split_ifs at hend with hsame
    cases hend
    exact .inl ⟨formatted, target, bytes, rfl, rfl, hread, by simpa using hsame⟩
  | writing target formatted =>
    obtain ⟨_, hwritten, ⟨⟩⟩ := map_eq_ok_iff.1 ((Traced.outcome_map _ _).symm.trans houtcome)
    exact .inr ⟨target, formatted, rfl, hwritten⟩

end Cases

theorem mapError_eq_ok_iff {ε ε' α : Type} {f : ε → ε'} {result : Except ε α} {value : α} :
    result.mapError f = .ok value ↔ result = .ok value := by
  cases result <;> simp [Except.mapError]

/-- A path leads to the regular file at a place, with the given content. -/
structure LeadsTo (host : Host) (options : FormatOptions) (path : String) (place : Location)
    (bytes : List UInt8) : Prop where
  found : ∃ target, host.resolve options.directory path = .ok target ∧
    host.files.find [] target = .ok place
  content : host.files.content? place = some bytes

theorem LeadsTo.unique {host : Host} {options : FormatOptions} {path : String}
    {place other : Location} {bytes others : List UInt8}
    (h : LeadsTo host options path place bytes) (hother : LeadsTo host options path other others) :
    place = other ∧ bytes = others := by
  obtain ⟨⟨target, htarget, hfind⟩, hcontent⟩ := h
  obtain ⟨⟨target', htarget', hfind'⟩, hcontent'⟩ := hother
  obtain rfl : target = target' := Except.ok.inj (htarget.symm.trans htarget')
  obtain rfl : place = other := Except.ok.inj (hfind.symm.trans hfind')
  exact ⟨rfl, Option.some.inj (hcontent.symm.trans hcontent')⟩

section Outline

variable {session : Session} {options : FormatOptions} {files : FileSystem} {path : String}
  (houtline : SameOutline session.host.files files)
include houtline

theorem resolve_hostWith (base : Option String) (path : String) :
    (session.hostWith files).resolve base path = session.host.resolve base path :=
  (houtline.resolve_eq _ _ _).symm

theorem formatSource_hostWith (code path : String) :
    session.pipeline.formatSource (session.hostWith files) options code path =
      session.pipeline.formatSource session.host options code path := by
  rw [Pipeline.formatSource, Pipeline.formatSource, Pipeline.resolvePath, Pipeline.resolvePath,
    resolve_hostWith houtline]

/-- What is found at a place now was a file with some content before. -/
theorem leadsTo_of_content {target : String} {place : Location} {bytes : List UInt8}
    (htarget : session.host.resolve options.directory path = .ok target)
    (hfind : files.find [] target = .ok place) (hcontent : files.content? place = some bytes) :
    ∃ original, LeadsTo session.host options path place original := by
  have hsome := houtline.isSome_content? place
  rw [hcontent] at hsome
  obtain ⟨original, horiginal⟩ := Option.isSome_iff_exists.1 hsome
  exact ⟨original, ⟨target, htarget, (houtline.find_eq _ _).trans hfind⟩, horiginal⟩

theorem readSource_hostWith_eq_ok {code : String}
    (h : (Pipeline.readSource (session.hostWith files) options path).outcome = .ok code) :
    ∃ place original bytes, LeadsTo session.host options path place original ∧
      files.content? place = some bytes ∧ Pipeline.decodeSource bytes = code := by
  obtain ⟨target, bytes, htarget, hread, hcode⟩ := Pipeline.readSource_eq_ok h
  rw [resolve_hostWith houtline] at htarget
  obtain ⟨place, hfind, hcontent⟩ := content?_of_read hread
  obtain ⟨original, hleads⟩ := leadsTo_of_content houtline htarget hfind hcontent
  exact ⟨place, original, bytes, hleads, hcontent, hcode⟩

theorem reread_hostWith_eq_ok {target : String} {bytes : List UInt8}
    (h : (reread (session.hostWith files) options path).outcome = .ok (target, bytes)) :
    ∃ place original, LeadsTo session.host options path place original ∧
      session.host.files.find [] target = .ok place ∧ files.content? place = some bytes := by
  rw [reread, Traced.outcome_bind] at h
  obtain ⟨resolved, hresolved, h⟩ := bind_eq_ok_iff.1 h
  rw [Traced.outcome_bind] at h
  obtain ⟨found, hfound, h⟩ := bind_eq_ok_iff.1 h
  cases h
  have hread : files.read [] target = .ok bytes := by
    rw [Traced.outcome_ofExcept, Pipeline.readResolved] at hfound
    change (files.read [] target).mapError _ = _ at hfound
    exact mapError_eq_ok_iff.1 hfound
  obtain ⟨place, hfind, hcontent⟩ := content?_of_read hread
  have htarget : session.host.resolve options.directory path = .ok target :=
    (resolve_hostWith houtline _ _).symm.trans hresolved
  obtain ⟨original, hleads⟩ := leadsTo_of_content houtline htarget hfind hcontent
  exact ⟨place, original, hleads, (houtline.find_eq _ _).trans hfind, hcontent⟩

end Outline

theorem rewrite_eq_ok {files after : FileSystem} {path target formatted : String} {verdict : Bool}
    (h : (rewrite files path target formatted).outcome = .ok (verdict, after)) :
    ∃ place old mode, files.find [] target = .ok place ∧
      files.entry? place = some (.file old mode) ∧ mode.writable = true ∧
      after = files.put place (.file (Text.Utf8.bytesOf formatted) mode) := by
  rw [rewrite, Traced.outcome_bind] at h
  obtain ⟨written, hwritten, h⟩ := bind_eq_ok_iff.1 h
  rw [Traced.outcome_bind] at h
  obtain ⟨-, -, h⟩ := bind_eq_ok_iff.1 h
  cases h
  refine overwrite_eq_ok ?_
  rw [Traced.outcome_ofExcept] at hwritten
  exact mapError_eq_ok_iff.1 hwritten

end DecoratorVeil.CommandLine
