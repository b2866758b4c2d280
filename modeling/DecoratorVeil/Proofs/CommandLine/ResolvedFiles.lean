import DecoratorVeil.Proofs.CommandLine.WriteSteps
import DecoratorVeil.Proofs.FileSystem.Resolved
import Mathlib

/-!
# One file behind a path

The formatter is given the resolved path, and the file is read and written under it.  These are one
file, and writing it does not change what the path is resolved to.  The resolved path leads straight
to that file, without links, and is resolved to itself, unless a link is met again on the way.
-/

namespace DecoratorVeil.CommandLine
open FileSystem

section Uses

variable {session : Session} {options : FormatOptions} {path resolved : String}

variable (session options) in
/-- All work on a path is done under a resolved path: its text is formatted under it, its file is
read there, and the file that is written is the one that was read. -/
structure WorksUnder (path resolved : String) : Prop where
  formats : ∀ formatter code, session.formatter = .ok formatter →
    session.pipeline.formatSource session.host options code path =
      markCode session.reader code >>= fun marked =>
        unmarkText <$> formatter marked resolved options.config
  reads : ∀ code, (Pipeline.readSource session.host options path).outcome = .ok code →
    ∃ place bytes, session.host.files.find [] resolved = .ok place ∧
      session.host.files.content? place = some bytes ∧ Pipeline.decodeSource bytes = code
  writes : ∀ verdict after,
    (writeWork session options session.host.files path).outcome = .ok (verdict, after) →
    ∃ formatted place old mode,
      (session.pipeline.formatFile session.host options path).outcome = .ok formatted ∧
      session.host.files.find [] resolved = .ok place ∧
      session.host.files.entry? place = some (.file old mode) ∧
      (after = session.host.files ∧ Pipeline.decodeSource old = formatted ∨
        after = session.host.files.put place (.file (Text.Utf8.bytesOf formatted) mode)) ∧
      (session.hostWith after).resolve options.directory path = .ok resolved ∧
      after.find [] resolved = .ok place

variable (h : session.host.resolve options.directory path = .ok resolved)
include h

theorem formatSource_of_resolve {formatter : Formatter}
    (hformatter : session.formatter = .ok formatter) (code : String) :
    session.pipeline.formatSource session.host options code path =
      markCode session.reader code >>= fun marked =>
        unmarkText <$> formatter marked resolved options.config := by
  have hpipeline : session.pipeline.formatter = .ok formatter := hformatter
  simp only [Pipeline.formatSource, Pipeline.resolvePath, h, Traced.ofExcept_ok_bind,
    Pipeline.formatCode, Pipeline.formatMarked, hpipeline, Traced.bind_assoc, Traced.pure_bind]
  rfl

/-- Writing a file that is found under the resolved path changes its content at most. -/
theorem writeWork_of_resolve {verdict : Bool} {after : FileSystem}
    (hwork : (writeWork session options session.host.files path).outcome = .ok (verdict, after)) :
    ∃ formatted place old mode,
      (session.pipeline.formatFile session.host options path).outcome = .ok formatted ∧
      session.host.files.find [] resolved = .ok place ∧
      session.host.files.entry? place = some (.file old mode) ∧
      (after = session.host.files ∧ Pipeline.decodeSource old = formatted ∨
        after = session.host.files.put place
          (.file (Text.Utf8.bytesOf formatted) mode)) := by
  rw [outcome_writeWork] at hwork
  obtain ⟨formatted, hformatted, hwork⟩ := bind_eq_ok_iff.1 hwork
  obtain ⟨target, htarget, hwork⟩ := bind_eq_ok_iff.1 hwork
  obtain ⟨bytes, hbytes, hwork⟩ := bind_eq_ok_iff.1 hwork
  obtain rfl : target = resolved := Except.ok.inj (htarget.symm.trans h)
  obtain ⟨place, mode, hfind, hentry, -⟩ := read_eq_ok_iff.1 (mapError_eq_ok_iff.1 hbytes)
  refine ⟨formatted, place, bytes, mode, hformatted, hfind, hentry, ?_⟩
  split_ifs at hwork with hsame
  · cases hwork
    exact .inl ⟨rfl, by simpa using hsame⟩
  · obtain ⟨written, hwritten, hwork⟩ := bind_eq_ok_iff.1 hwork
    cases hwork
    -- The file is looked up again, under the same path and in the same files.
    obtain ⟨place', old, mode', hfind', hentry', -, rfl⟩ :=
      overwrite_eq_ok (mapError_eq_ok_iff.1 hwritten)
    obtain rfl := Except.ok.inj (hfind.symm.trans hfind')
    cases hentry.symm.trans hentry'
    exact .inr rfl

theorem worksUnder_of_resolve : WorksUnder session options path resolved where
  formats formatter code hformatter := formatSource_of_resolve h hformatter code
  reads code hcode := by
    obtain ⟨target, bytes, htarget, hread, hdecode⟩ := Pipeline.readSource_eq_ok hcode
    obtain rfl : target = resolved := Except.ok.inj (htarget.symm.trans h)
    obtain ⟨place, hfind, hcontent⟩ := content?_of_read hread
    exact ⟨place, bytes, hfind, hcontent, hdecode⟩
  writes verdict after hwork := by
    obtain ⟨formatted, place, old, mode, hformatted, hfind, hentry, hafter⟩ :=
      writeWork_of_resolve h hwork
    have houtline : SameOutline session.host.files after := by
      rcases hafter with ⟨rfl, -⟩ | rfl
      · exact .refl _
      · exact sameOutline_put _ hentry
    exact ⟨formatted, place, old, mode, hformatted, hfind, hentry, hafter,
      (resolve_hostWith houtline _ _).trans h, (houtline.find_eq _ _).symm.trans hfind⟩

end Uses

/-- The resolved path is absolute, with proper names, and all work on a path is done under it.  If
no link is met again on the way, the names of the path lead to the location of the resolved path;
there is no link on the way to it, it is the place where the file is found, and the resolved path
is resolved to itself from any directory. -/
theorem resolved_path_final {session : Session} {options : FormatOptions} {path resolved : String}
    (hdirectory : Clear session.host.files session.host.directory)
    (h : session.host.resolve options.directory path = .ok resolved) :
    WorksUnder session options path resolved ∧ isAbsolute resolved = true ∧
    ∃ place, (∀ name ∈ place, ProperName name) ∧
      (resolved = render place ∨ resolved = "/" ++ render place ∧
        MeetsAgain session.host.files session.host.directory options.directory path) ∧
      (¬ MeetsAgain session.host.files session.host.directory options.directory path →
        Arrives session.host.files (origin session.host.directory options.directory path)
          (fullNames options.directory path) place ∧
        (∀ front, front <+: place → ∀ target,
          session.host.files.entry? front ≠ some (.link target)) ∧
        (∀ found, session.host.files.find [] resolved = .ok found → found = place) ∧
        ∀ current base, session.host.files.resolve current base resolved = .ok resolved) := by
  refine ⟨worksUnder_of_resolve h, ?_⟩
  by_cases hloop : MeetsAgain session.host.files session.host.directory options.directory path
  · obtain ⟨place, hproper, hresolved⟩ := exists_render_of_meetsAgain hdirectory h hloop
    have habsolute : isAbsolute resolved = true := by
      rcases hresolved with rfl | rfl
      · exact isAbsolute_render place
      · simp [isAbsolute]
    exact ⟨habsolute, place, hproper, hresolved.imp_right fun heq => ⟨heq, hloop⟩,
      fun hnot => absurd hloop hnot⟩
  · obtain ⟨place, harrives, hclear, rfl⟩ := arrives_of_resolve hdirectory h hloop
    exact ⟨isAbsolute_render place, place, hclear.proper, .inl rfl, fun _ =>
      ⟨harrives, hclear.linkFree, fun found hfound => hclear.eq_of_find hfound,
        hclear.resolve_render⟩⟩

/-- A link through another one to a file, seen from the directory of the link. -/
def chainedSession : Session where
  host := ⟨⟨[(["w"], .directory), (["w", "a"], .link "../v/./b"), (["v"], .link "/u"),
    (["u"], .directory), (["u", "b"], .file [0x78] false)]⟩, ["w"], [], fun _ _ _ => ⟨[], [], 0⟩⟩
  reader := .constant (.container .source none [])
  formatter := .ok (.scripted (.constant "y"))
  input := []
  interactive := false
  processors := 1

theorem arrives_chainedSession : Arrives chainedSession.host.files ["w"] ["a"] ["u", "b"] := by
  have hnames : IsName "a" ∧ IsName "b" ∧ IsName "u" ∧ IsName "v" := by
    refine ⟨?_, ?_, ?_, ?_⟩ <;> exact ⟨by decide, by decide, by decide⟩
  obtain ⟨ha, hb, hu, hv⟩ := hnames
  have hfirst : chainedSession.host.files.link? (["w"] ++ ["a"]) = some "../v/./b" := by decide
  have hsecond : chainedSession.host.files.link? ([] ++ ["v"]) = some "/u" := by decide
  have hinner : Arrives chainedSession.host.files [] (rawNames "/u") ["u"] := by
    rw [show rawNames "/u" = ["", "u"] by decide]
    exact .void (by decide) (.plain hu (by decide) (.done _))
  have hlast : Arrives chainedSession.host.files ["u"] [".", "b"] ["u", "b"] :=
    .void (by decide) (.plain hb (by decide) (.done _))
  have houter : Arrives chainedSession.host.files ["w"] (rawNames "../v/./b") ["u", "b"] := by
    rw [show rawNames "../v/./b" = ["..", "v", ".", "b"] by decide]
    exact .up (.link hv hsecond hinner hlast)
  exact .link ha hfirst houter (.done _)

theorem resolved_path_final_through_links :
    chainedSession.host.resolve (some ".") "a" = .ok "/u/b" ∧
      WorksUnder chainedSession ⟨none, some "."⟩ "a" "/u/b" ∧
      ∀ current base, chainedSession.host.files.resolve current base "/u/b" = .ok "/u/b" := by
  have hdirectory : Clear chainedSession.host.files chainedSession.host.directory :=
    (clear_nil _).concat ⟨⟨by decide, by decide, by decide⟩, by decide⟩ (by decide)
  have hplace : chainedSession.host.files.follow ⟨[], []⟩
      (origin chainedSession.host.directory (some ".") "a")
      ((fullNames (some ".") "a").map .enter) = .place ["u", "b"] :=
    follow_eq_place_iff.2 arrives_chainedSession
  have hresolve : chainedSession.host.resolve (some ".") "a" = .ok "/u/b" := by
    rw [Host.resolve, resolve_eq_resolveFrom, resolveFrom, hplace]
    rfl
  have hloop : ¬ MeetsAgain chainedSession.host.files chainedSession.host.directory (some ".")
      "a" := by
    rintro ⟨link, rest, hfollow⟩
    cases hplace.symm.trans hfollow
  obtain ⟨hworks, -, place, -, -, hfinal⟩ :=
    @resolved_path_final chainedSession ⟨none, some "."⟩ "a" "/u/b" hdirectory hresolve
  exact ⟨hresolve, hworks, (hfinal hloop).2.2.2⟩

/-- A link that leads through itself to another link, and one that leads through itself and two
empty names to nothing. -/
def circularFiles : FileSystem :=
  ⟨[(["a"], .link "a/../b"), (["b"], .link "c"), (["d"], .link "d///e")]⟩

/-- Where a link is met again, a link may be left, so that the resolved path is resolved to another
one, and an empty name may be left in front. -/
theorem link_left_in_resolved_path :
    Clear circularFiles [] ∧ circularFiles.resolve [] none "a" = .ok "/b" ∧
      circularFiles.entry? ["b"] = some (.link "c") ∧
      circularFiles.resolve [] none "/b" = .ok "/c" ∧
      circularFiles.resolve [] none "d" = .ok "//e" := by
  have hlink : circularFiles.resolve [] none "a" = .ok "/b" :=
    @resolve_of_selfLink _ _ "a" "a/../b" ["..", "b"] ⟨by decide, by decide, by decide⟩ (by decide)
      (by decide) (by decide) (by decide) (by decide) (by cbv)
  have hslash : circularFiles.resolve [] none "d" = .ok "//e" :=
    @resolve_of_selfLink _ _ "d" "d///e" ["", "", "e"] ⟨by decide, by decide, by decide⟩ (by decide)
      (by decide) (by decide) (by decide) (by decide) (by cbv)
  exact ⟨clear_nil _, hlink, by decide, by cbv, hslash⟩

end DecoratorVeil.CommandLine
