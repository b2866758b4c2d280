import DecoratorVeil.Pipeline
import DecoratorVeil.Proofs.Locate
import DecoratorVeil.Proofs.Sentinel.RoundTrip

/-!
# Formatting and checking agree

Both mark the text and give it to the formatter once, or fail before.  They differ in what they make
of the answer: a check compares it with the marked text, formatting takes the sentinels out.  Where
unmarking undoes marking, a text that passes the check is its own formatted text.
-/

namespace DecoratorVeil

namespace Sentinel

theorem unmark_of_clean {code : List Char} (h : ¬ magicWord <:+: code) : unmark code = code :=
  @unmark_markedText [] code h

/-- Marks come out again if no marked range ends in the start of a comment. -/
theorem unmark_of_mark {code marked : List Char} {ranges : List DecoratorRange}
    (hword : ¬ magicWord <:+: code) (hmark : mark code ranges = .ok marked)
    (hclosed : ∀ range ∈ ranges, ¬ "/*".toList <:+ range.slice code) : unmark marked = code := by
  obtain ⟨segments, tail, hcode, rfl, hinside⟩ := mark_layout hmark
  have hopen : ∀ segment ∈ segments, ¬ commentStart <:+ segment.inside := by
    intro segment hsegment
    have hmem := List.mem_map_of_mem (f := Segment.inside) hsegment
    rw [hinside] at hmem
    obtain ⟨range, hrange, heq⟩ := List.mem_map.1 hmem
    exact heq ▸ hclosed range hrange
  rw [unmark_markedText (hcode ▸ hword), (unmarked_eq_plainText_iff segments tail).2 hopen, ← hcode]

end Sentinel

/-- A text that comes back when it is marked and unmarked: the magic word is not in it, and no
located decorator ends in the start of a comment. -/
structure Restorable (reader : SourceReader) (code : String) : Prop where
  clean : ¬ Sentinel.magicWord <:+: code.toList
  closed : ∀ ranges, (locate reader code).outcome = .ok (some ranges) →
    ∀ range ∈ ranges, ¬ "/*".toList <:+ range.slice code.toList

theorem Restorable.unmarkText_eq {reader : SourceReader} {code marked : String}
    (h : Restorable reader code) (hmark : (markCode reader code).outcome = .ok marked) :
    unmarkText marked = code := by
  cases hlocate : (locate reader code).outcome with
  | error failure =>
    rw [markCode_of_locate_error hlocate] at hmark
    cases hmark
  | ok found =>
    rw [markCode_of_locate hlocate] at hmark
    cases found with
    | none =>
      cases hmark
      rw [unmarkText, Sentinel.unmark_of_clean h.clean, String.ofList_toList]
    | some ranges =>
      cases hranges : Sentinel.mark code.toList ranges with
      | error error =>
        rw [markRanges, hranges] at hmark
        cases hmark
      | ok text =>
        rw [markRanges, hranges] at hmark
        cases hmark
        rw [unmarkText, String.toList_ofList,
          Sentinel.unmark_of_mark h.clean hranges (h.closed ranges hlocate), String.ofList_toList]

namespace Pipeline

variable (pipeline : Pipeline) (code path : String) (config : Option String)

theorem checkCode_eq : pipeline.checkCode code path config =
    ⟨(pipeline.formatMarked code path config).trace,
      (fun (marked, formatted) => formatted == marked) <$>
        (pipeline.formatMarked code path config).outcome⟩ :=
  Traced.map_eq _ _

theorem formatCode_eq : pipeline.formatCode code path config =
    ⟨(pipeline.formatMarked code path config).trace,
      (fun (_, formatted) => unmarkText formatted) <$>
        (pipeline.formatMarked code path config).outcome⟩ :=
  Traced.map_eq _ _

/-- How a text goes to the formatter: it cannot be marked, or there is no formatter, or the
formatter is called once. -/
inductive Formats : Traced (String × String) → Prop
  | unmarked {failure : Failure}
      (hmark : (markCode pipeline.reader code).outcome = .error failure) :
      Formats ⟨(markCode pipeline.reader code).trace, .error failure⟩
  | unbuilt {marked : String} {failure : Failure}
      (hmark : (markCode pipeline.reader code).outcome = .ok marked)
      (hbuild : pipeline.formatter = .error failure) :
      Formats ⟨(markCode pipeline.reader code).trace, .error failure⟩
  | called {marked : String} {formatter : Formatter}
      (hmark : (markCode pipeline.reader code).outcome = .ok marked)
      (hbuild : pipeline.formatter = .ok formatter) :
      Formats ⟨(markCode pipeline.reader code).trace ++ (formatter marked path config).trace,
        (marked, ·) <$> (formatter marked path config).outcome⟩

theorem formats_formatMarked :
    Formats pipeline code path config (pipeline.formatMarked code path config) := by
  rw [formatMarked]
  cases hmark : (markCode pipeline.reader code).outcome with
  | error failure =>
    rw [Traced.bind_of_error _ hmark]
    exact .unmarked hmark
  | ok marked =>
    rw [Traced.bind_of_ok _ hmark]
    cases hbuild : pipeline.formatter with
    | error failure =>
      rw [Traced.bind_of_error _ (Traced.outcome_ofExcept _), Traced.after, Traced.ofExcept,
        List.append_nil]
      exact .unbuilt hmark hbuild
    | ok formatter =>
      rw [Traced.ofExcept_ok_bind]
      change Formats _ _ _ _ (((marked, ·) <$> formatter marked path config).after _)
      rw [Traced.map_eq]
      exact .called hmark hbuild

/-- What checking and formatting a text have in common. -/
structure Agrees : Prop where
  /-- The formatter is called by both in the same way: not at all if the text cannot be marked or
  there is no formatter, and else once, with the marked text, the path and the configuration. -/
  calls : (∃ failure, ((markCode pipeline.reader code).outcome = .error failure ∨
        (∃ marked, (markCode pipeline.reader code).outcome = .ok marked) ∧
          pipeline.formatter = .error failure) ∧
      pipeline.checkCode code path config =
        ⟨(markCode pipeline.reader code).trace, .error failure⟩ ∧
      pipeline.formatCode code path config =
        ⟨(markCode pipeline.reader code).trace, .error failure⟩) ∨
    ∃ marked formatter, (markCode pipeline.reader code).outcome = .ok marked ∧
      pipeline.formatter = .ok formatter ∧
      pipeline.checkCode code path config =
        ⟨(markCode pipeline.reader code).trace ++ (formatter marked path config).trace,
          (· == marked) <$> (formatter marked path config).outcome⟩ ∧
      pipeline.formatCode code path config =
        ⟨(markCode pipeline.reader code).trace ++ (formatter marked path config).trace,
          unmarkText <$> (formatter marked path config).outcome⟩
  /-- Both fail in the same cases, and with the same failure. -/
  failures : ∀ failure, (pipeline.checkCode code path config).outcome = .error failure ↔
    (pipeline.formatCode code path config).outcome = .error failure
  /-- A text that passes the check is its own formatted text. -/
  passed : Restorable pipeline.reader code →
    (pipeline.checkCode code path config).outcome = .ok true →
    (pipeline.formatCode code path config).outcome = .ok code

/-- A text that passes the check is marked, and the formatter gives the marked text back. -/
theorem outcome_of_passed (h : (pipeline.checkCode code path config).outcome = .ok true) :
    ∃ marked, (markCode pipeline.reader code).outcome = .ok marked ∧
      (pipeline.formatMarked code path config).outcome = .ok (marked, marked) := by
  rw [checkCode_eq] at h
  obtain ⟨⟨marked, formatted⟩, hresult, hsame⟩ := map_eq_ok_iff.1 h
  obtain rfl : formatted = marked := by simpa using hsame
  have hformats := formats_formatMarked pipeline code path config
  generalize pipeline.formatMarked code path config = result at hformats hresult
  cases hformats with
  | unmarked | unbuilt => cases hresult
  | called hmark _ =>
    obtain ⟨text, -, heq⟩ := map_eq_ok_iff.1 hresult
    cases heq
    exact ⟨_, hmark, hresult⟩

theorem agrees : Agrees pipeline code path config where
  calls := by
    rw [checkCode_eq, formatCode_eq]
    have hformats := formats_formatMarked pipeline code path config
    generalize pipeline.formatMarked code path config = result at hformats
    cases hformats with
    | @unmarked failure hmark => exact .inl ⟨failure, .inl hmark, rfl, rfl⟩
    | @unbuilt marked failure hmark hbuild =>
      exact .inl ⟨failure, .inr ⟨⟨marked, hmark⟩, hbuild⟩, rfl, rfl⟩
    | @called marked formatter hmark hbuild =>
      refine .inr ⟨marked, formatter, hmark, hbuild, ?_, ?_⟩ <;>
        cases (formatter marked path config).outcome <;> rfl
  failures := by
    intro failure
    rw [checkCode_eq, formatCode_eq, map_eq_error_iff, map_eq_error_iff]
  passed := by
    intro hrestorable hpassed
    obtain ⟨marked, hmark, hresult⟩ := outcome_of_passed pipeline code path config hpassed
    rw [formatCode_eq, hresult, ← hrestorable.unmarkText_eq hmark]
    rfl

section Files

variable {pipeline path} {host : Host} {options : FormatOptions}

/-- A source text that is read is the text of a file at the resolved path. -/
theorem readSource_eq_ok {text : String} (h : (readSource host options path).outcome = .ok text) :
    ∃ resolved bytes, host.resolve options.directory path = .ok resolved ∧
      host.files.read [] resolved = .ok bytes ∧ decodeSource bytes = text := by
  rw [readSource, Traced.outcome_bind] at h
  obtain ⟨resolved, hresolved, h⟩ := bind_eq_ok_iff.1 h
  cases hread : host.files.read [] resolved with
  | error error =>
    rw [hread] at h
    cases error <;> cases h
  | ok bytes =>
    rw [hread] at h
    exact ⟨resolved, bytes, hresolved, hread, Except.ok.inj h⟩

/-- A file that passes the check has its own text as formatted text. -/
theorem formatFile_of_passed
    (hrestorable : ∀ text, (readSource host options path).outcome = .ok text →
      Restorable pipeline.reader text)
    (h : (pipeline.checkFile host options path).outcome = .ok true) :
    ∃ text, (readSource host options path).outcome = .ok text ∧
      (pipeline.formatFile host options path).outcome = .ok text := by
  rw [checkFile, Traced.outcome_bind] at h
  obtain ⟨text, htext, h⟩ := bind_eq_ok_iff.1 h
  rw [checkSource, Traced.outcome_bind] at h
  obtain ⟨resolved, hresolved, h⟩ := bind_eq_ok_iff.1 h
  have hformat := (agrees pipeline text resolved options.config).passed (hrestorable text htext) h
  refine ⟨text, htext, ?_⟩
  rw [formatFile, Traced.outcome_bind, htext]
  change (pipeline.formatSource host options text path).outcome = _
  rw [formatSource, Traced.outcome_bind, hresolved]
  exact hformat

end Files

end Pipeline

end DecoratorVeil
