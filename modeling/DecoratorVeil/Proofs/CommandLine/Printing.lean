import DecoratorVeil.Proofs.CommandLine.Console
import DecoratorVeil.Proofs.Traced
import Mathlib

/-!
# Printing files

Files are formatted and printed in turn until one fails.  The output is what the files before it are
formatted to, one text after the other; the console names the file that failed and why; no file
after it is looked at, and none is changed.  The texts lose their terminal styles on the way, so the
output is the formatted texts only if these hold no styles.
-/

namespace DecoratorVeil

namespace Text

/-- An escape character, a bracket, parameters and a letter stand together somewhere in a text. -/
def HasStyle (text : List Char) : Prop :=
  ∃ before parameters letter after,
    text = before ++ escapeCharacter :: '[' :: (parameters ++ letter :: after) ∧
      (∀ c ∈ parameters, isStyleParameter c = true) ∧ letter.isAlpha = true

theorem not_isStyleParameter_of_isAlpha {c : Char} (h : c.isAlpha = true) :
    isStyleParameter c = false := by
  have hdigit : c.isDigit = false := by
    simp only [Char.isAlpha, Char.isUpper, Char.isLower, Bool.or_eq_true, Bool.and_eq_true,
      decide_eq_true_eq, ge_iff_le, UInt32.le_iff_toNat_le] at h
    change 65 ≤ c.toNat ∧ c.toNat ≤ 90 ∨ 97 ≤ c.toNat ∧ c.toNat ≤ 122 at h
    rw [← Bool.not_eq_true]
    intro hdigit
    simp only [Char.isDigit, Bool.and_eq_true, decide_eq_true_eq, ge_iff_le,
      UInt32.le_iff_toNat_le] at hdigit
    change 48 ≤ c.toNat ∧ c.toNat ≤ 57 at hdigit
    omega
  have hsemicolon : c ≠ ';' := by
    rintro rfl
    exact absurd h (by decide)
  have hquestion : c ≠ '?' := by
    rintro rfl
    exact absurd h (by decide)
  simp [isStyleParameter, hdigit, hsemicolon, hquestion]

theorem afterStyle?_append {parameters : List Char} {letter : Char} (after : List Char)
    (hparameters : ∀ c ∈ parameters, isStyleParameter c = true) (hletter : letter.isAlpha = true) :
    afterStyle? ('[' :: (parameters ++ letter :: after)) = some after := by
  have hrest : (parameters ++ letter :: after).dropWhile isStyleParameter = letter :: after := by
    rw [List.dropWhile_append_of_pos hparameters, List.dropWhile_cons_of_neg]
    simp [not_isStyleParameter_of_isAlpha hletter]
  simp [afterStyle?, hrest, hletter]

theorem hasStyle_cons_iff (c : Char) (rest : List Char) :
    HasStyle (c :: rest) ↔
      (c = escapeCharacter ∧ ∃ more, afterStyle? rest = some more) ∨ HasStyle rest := by
  constructor
  · rintro ⟨before, parameters, letter, after, htext, hparameters, hletter⟩
    cases before with
    | nil =>
      cases htext
      exact .inl ⟨rfl, after, afterStyle?_append after hparameters hletter⟩
    | cons d before =>
      cases htext
      exact .inr ⟨before, parameters, letter, after, rfl, hparameters, hletter⟩
  · rintro (⟨rfl, more, hmore⟩ | ⟨before, parameters, letter, after, rfl, hparameters, hletter⟩)
    · obtain ⟨parameters, letter, rfl, hparameters, hletter⟩ := afterStyle?_eq_some hmore
      exact ⟨[], parameters, letter, more, rfl, hparameters, hletter⟩
    · exact ⟨c :: before, parameters, letter, after, rfl, hparameters, hletter⟩

theorem length_dropStyles_le (text : List Char) : (dropStyles text).length ≤ text.length := by
  fun_induction dropStyles text with
  | case1 => simp
  | case2 c rest _ more hmore hshorter ih =>
    rw [List.length_cons]
    omega
  | case3 c rest _ _ ih => simpa using ih
  | case4 c rest _ ih => simpa using ih

theorem length_dropStyles_lt {text : List Char} (h : HasStyle text) :
    (dropStyles text).length < text.length := by
  fun_induction dropStyles text with
  | case1 =>
    obtain ⟨before, parameters, letter, after, htext, -⟩ := h
    simp at htext
  | case2 c rest _ more hmore hshorter _ =>
    have hle := length_dropStyles_le more
    rw [List.length_cons]
    omega
  | case3 c rest _ hnone ih =>
    rcases (hasStyle_cons_iff c rest).1 h with ⟨-, more, hmore⟩ | hrest
    · cases hnone.symm.trans hmore
    · simpa using ih hrest
  | case4 c rest hplain ih =>
    rcases (hasStyle_cons_iff c rest).1 h with ⟨hescape, -⟩ | hrest
    · exact absurd hescape (by simpa using hplain)
    · simpa using ih hrest

/-- A text is left as it is if and only if there is no style in it. -/
theorem dropStyles_eq_self_iff (text : List Char) : dropStyles text = text ↔ ¬ HasStyle text := by
  constructor
  · intro hsame hstyle
    have hlt := length_dropStyles_lt hstyle
    rw [hsame] at hlt
    exact Nat.lt_irrefl _ hlt
  · intro hnone
    fun_induction dropStyles text with
    | case1 => rfl
    | case2 c rest hescape more hmore =>
      exact absurd ((hasStyle_cons_iff c rest).2 (.inl ⟨by simpa using hescape, more, hmore⟩)) hnone
    | case3 c rest _ _ ih =>
      rw [ih fun hrest => hnone ((hasStyle_cons_iff c rest).2 (.inr hrest))]
    | case4 c rest _ ih =>
      rw [ih fun hrest => hnone ((hasStyle_cons_iff c rest).2 (.inr hrest))]

end Text

/-! ## One file -/

namespace Pipeline

/-- What the formatter is given for a file: the marked text and the resolved path. -/
def prepare (pipeline : Pipeline) (host : Host) (options : FormatOptions) (path : String) :
    Traced (String × String) := do
  let code ← readSource host options path
  let resolved ← resolvePath host options path
  let marked ← markCode pipeline.reader code
  return (marked, resolved)

/-- A file is formatted by one call of the formatter with what is prepared for it. -/
theorem formatFile_eq {pipeline : Pipeline} {formatter : Formatter}
    (h : pipeline.formatter = .ok formatter) (host : Host) (options : FormatOptions)
    (path : String) :
    pipeline.formatFile host options path = pipeline.prepare host options path >>= fun prepared =>
      unmarkText <$> formatter prepared.1 prepared.2 options.config := by
  simp only [formatFile, formatSource, formatCode, formatMarked, prepare, h, Traced.bind_assoc,
    Traced.ofExcept_ok_bind, Traced.pure_bind]
  rfl

/-- What the formatter is called with for a file, if the file gets that far. -/
def call? (pipeline : Pipeline) (host : Host) (options : FormatOptions) (path : String) :
    Option (String × String) :=
  (pipeline.prepare host options path).outcome.toOption

theorem trace_formatFile {pipeline : Pipeline} {formatter : Formatter}
    (h : pipeline.formatter = .ok formatter) (host : Host) (options : FormatOptions)
    (path : String) :
    (pipeline.formatFile host options path).trace =
      (pipeline.prepare host options path).trace ++
        (pipeline.call? host options path).elim [] fun prepared =>
          (formatter prepared.1 prepared.2 options.config).trace := by
  rw [formatFile_eq h, call?]
  cases hprepare : (pipeline.prepare host options path).outcome with
  | error failure =>
    rw [Traced.bind_of_error _ hprepare]
    exact (List.append_nil _).symm
  | ok prepared =>
    rw [Traced.bind_of_ok _ hprepare, Traced.map_eq]
    rfl

end Pipeline

namespace CommandLine

/-! ## Files in turn -/

section Printing

variable {session : Session} {options : FormatOptions}

/-- Files that are formatted go before what is printed of the rest. -/
theorem printFiles_append_of_ok {done : List (String × String)}
    (hdone : ∀ entry ∈ done,
      (session.pipeline.formatFile session.host options entry.1).outcome = .ok entry.2)
    (rest : List String) :
    printFiles session options (done.map Prod.fst ++ rest) =
      { printFiles session options rest with
        trace := (done.map Prod.fst).flatMap
            (fun path => (session.pipeline.formatFile session.host options path).trace) ++
          (printFiles session options rest).trace
        output := String.join (done.map fun entry => echoed entry.2) ++
          (printFiles session options rest).output } := by
  induction done with
  | nil => simp
  | cons entry done ih =>
    obtain ⟨hentry, hlater⟩ := List.forall_mem_cons.1 hdone
    simp only [List.map_cons, List.cons_append, printFiles, hentry, ih hlater]
    simp [List.append_assoc, String.append_assoc]

theorem printFiles_of_error {path : String} {failure : Failure}
    (herror : (session.pipeline.formatFile session.host options path).outcome = .error failure)
    (later : List String) : printFiles session options (path :: later) =
      { failed session.console path failure with
        trace := (session.pipeline.formatFile session.host options path).trace
        files := session.host.files } := by
  simp only [printFiles, herror]

/-- Every list of files starts with a part that is formatted, and the first file after it, if there
is one, fails. -/
theorem exists_done (paths : List String) :
    ∃ (done : List (String × String)) (rest : List String), paths = done.map Prod.fst ++ rest ∧
      (∀ entry ∈ done,
        (session.pipeline.formatFile session.host options entry.1).outcome = .ok entry.2) ∧
      ∀ path ∈ rest.head?, ∃ failure,
        (session.pipeline.formatFile session.host options path).outcome = .error failure := by
  induction paths with
  | nil => exact ⟨[], [], rfl, by simp, by simp⟩
  | cons path paths ih =>
    cases hpath : (session.pipeline.formatFile session.host options path).outcome with
    | error failure => exact ⟨[], path :: paths, rfl, by simp, by simp [hpath]⟩
    | ok text =>
      obtain ⟨done, rest, rfl, hdone, hrest⟩ := ih
      exact ⟨(path, text) :: done, rest, rfl, List.forall_mem_cons.2 ⟨hpath, hdone⟩, hrest⟩

/-- Texts come out together as they are if and only if none of them holds a style. -/
theorem join_echoed_eq_iff (texts : List String) :
    String.join (texts.map echoed) = String.join texts ↔
      ∀ text ∈ texts, ¬ Text.HasStyle text.toList := by
  have hlength (text : String) : (echoed text).toList.length ≤ text.toList.length := by
    rw [echoed, String.toList_ofList]
    exact Text.length_dropStyles_le text.toList
  have hjoined (texts : List String) :
      (String.join (texts.map echoed)).toList.length ≤ (String.join texts).toList.length := by
    induction texts with
    | nil => simp
    | cons text texts ih =>
      have hfirst := hlength text
      simp only [List.map_cons, String.join_cons, String.toList_append, List.length_append]
      omega
  induction texts with
  | nil => simp
  | cons text texts ih =>
    have hfirst : echoed text = text ↔ ¬ Text.HasStyle text.toList := by
      rw [← Text.dropStyles_eq_self_iff, echoed, String.ext_iff, String.toList_ofList]
    rw [List.forall_mem_cons, List.map_cons, String.join_cons, String.join_cons]
    refine Iff.trans ?_ (and_congr hfirst ih)
    constructor
    · intro heq
      have hchars := congrArg String.toList heq
      rw [String.toList_append, String.toList_append] at hchars
      have hsum := congrArg List.length hchars
      rw [List.length_append, List.length_append] at hsum
      -- Neither part gets longer, so parts of the same length together are as long as before.
      have hle := hlength text
      have hrest := hjoined texts
      obtain ⟨htext, htexts⟩ := List.append_inj hchars (by omega)
      exact ⟨String.ext htext, String.ext htexts⟩
    · rintro ⟨htext, htexts⟩
      rw [htext, htexts]

variable (session options) in
/-- What is left of printing files, the first of which are formatted to the given texts, while the
first of the rest fails.  The formatter is called for the files up to that one, in turn. -/
structure Printed (formatter : Formatter) (done : List (String × String)) (rest : List String)
    (report : Report) : Prop where
  output : report.output = String.join (done.map fun entry => echoed entry.2)
  unstyled : report.output = String.join (done.map Prod.snd) ↔
    ∀ entry ∈ done, ¬ Text.HasStyle entry.2.toList
  files : report.files = session.host.files
  trace : report.trace = (done.map Prod.fst ++ rest.take 1).flatMap fun path =>
    (session.pipeline.prepare session.host options path).trace ++
      (session.pipeline.call? session.host options path).elim [] fun prepared =>
        (formatter prepared.1 prepared.2 options.config).trace
  ending : rest = [] ∧ report.errors = "" ∧ report.ending = .exit 0 ∧ report.unread = none ∨
    ∃ path later failure, rest = path :: later ∧
      (session.pipeline.formatFile session.host options path).outcome = .error failure ∧
      ReportedOnly session.console path failure report

theorem unstyled_of_output {done : List (String × String)} {report : Report}
    (h : report.output = String.join (done.map fun entry => echoed entry.2)) :
    report.output = String.join (done.map Prod.snd) ↔
      ∀ entry ∈ done, ¬ Text.HasStyle entry.2.toList := by
  have htexts := join_echoed_eq_iff (done.map Prod.snd)
  rw [List.map_map, List.forall_mem_map] at htexts
  rw [h]
  exact htexts

theorem run_of_files {request : Request} {formatter : Formatter}
    (hformatter : session.formatter = .ok formatter) (hfiles : request.files ≠ [])
    (hcheck : request.check = false) (hwrite : request.write = false) :
    run session request = printFiles session ⟨request.config, none⟩ request.files := by
  have hne : request.files.isEmpty = false := by simpa using hfiles
  rw [run, hformatter]
  simp [runReady, hne, hcheck, hwrite]

section Parts

variable {formatter : Formatter} {done : List (String × String)} {rest : List String}
  (hdone : ∀ entry ∈ done,
    (session.pipeline.formatFile session.host options entry.1).outcome = .ok entry.2)
include hdone

theorem printed_of_done (hformatter : session.formatter = .ok formatter) :
    Printed session options formatter done []
      (printFiles session options (done.map Prod.fst ++ [])) := by
  have hprinted : printFiles session options (done.map Prod.fst ++ []) =
      { output := String.join (done.map fun entry => echoed entry.2)
        ending := .exit 0
        trace := (done.map Prod.fst).flatMap
          (fun path => (session.pipeline.formatFile session.host options path).trace)
        files := session.host.files } := by
    rw [printFiles_append_of_ok hdone]
    simp [printFiles]
  rw [hprinted]
  refine ⟨rfl, unstyled_of_output rfl, rfl, ?_, .inl ⟨rfl, rfl, rfl, rfl⟩⟩
  simp only [Pipeline.trace_formatFile (show session.pipeline.formatter = .ok formatter from
    hformatter), List.take_nil, List.append_nil]

theorem printed_of_failure (hformatter : session.formatter = .ok formatter) {path : String}
    {failure : Failure}
    (hfailure : (session.pipeline.formatFile session.host options path).outcome = .error failure)
    (hreported : isReported failure = true) (later : List String) :
    Printed session options formatter done (path :: later)
      (printFiles session options (done.map Prod.fst ++ path :: later)) := by
  have hprinted : printFiles session options (done.map Prod.fst ++ path :: later) =
      { failed session.console path failure with
        output := String.join (done.map fun entry => echoed entry.2)
        trace := (done.map Prod.fst ++ [path]).flatMap
          (fun path => (session.pipeline.formatFile session.host options path).trace)
        files := session.host.files } := by
    rw [printFiles_append_of_ok hdone, printFiles_of_error hfailure]
    simp [List.flatMap_append, output_failed]
  rw [hprinted]
  refine ⟨rfl, unstyled_of_output rfl, rfl, ?_, .inr ⟨path, later, failure, rfl, hfailure,
    reportedOnly_of_failed hreported rfl rfl rfl⟩⟩
  simp only [Pipeline.trace_formatFile (show session.pipeline.formatter = .ok formatter from
    hformatter), List.take_succ_cons, List.take_zero]

theorem Printed.exit_zero_iff {report : Report}
    (h : Printed session options formatter done rest report) :
    report.ending = .exit 0 ↔ ∀ path ∈ done.map Prod.fst ++ rest, ∃ text,
      (session.pipeline.formatFile session.host options path).outcome = .ok text := by
  rcases h.ending with ⟨rfl, -, hending, -⟩ | ⟨path, later, failure, rfl, hfailure, honly⟩
  · refine iff_of_true hending ?_
    simpa using fun path text hmem => ⟨text, hdone (path, text) hmem⟩
  · rw [honly.ending]
    refine iff_of_false (by simp) fun hall => ?_
    obtain ⟨text, htext⟩ := hall path (by simp)
    cases hfailure.symm.trans htext

end Parts

/-- Printing stops at the first file that fails.  If every failure is one that is reported, the
output is the formatted texts of the files before it without their styles. -/
theorem printed_up_to_failure {formatter : Formatter} {paths : List String}
    (hformatter : session.formatter = .ok formatter)
    (hreported : ∀ path ∈ paths, ∀ failure,
      (session.pipeline.formatFile session.host options path).outcome = .error failure →
        isReported failure = true) :
    (∃ (done : List (String × String)) (rest : List String), paths = done.map Prod.fst ++ rest ∧
      (∀ entry ∈ done,
        (session.pipeline.formatFile session.host options entry.1).outcome = .ok entry.2) ∧
      Printed session options formatter done rest (printFiles session options paths)) ∧
    ((printFiles session options paths).ending = .exit 0 ↔ ∀ path ∈ paths, ∃ text,
      (session.pipeline.formatFile session.host options path).outcome = .ok text) ∧
    ∀ request : Request, request.files = paths → paths ≠ [] → request.check = false →
      request.write = false → options = ⟨request.config, none⟩ →
      run session request = printFiles session options paths := by
  obtain ⟨done, rest, rfl, hdone, hrest⟩ := @exists_done session options paths
  have hprinted : Printed session options formatter done rest
      (printFiles session options (done.map Prod.fst ++ rest)) := by
    cases rest with
    | nil => exact printed_of_done hdone hformatter
    | cons path later =>
      obtain ⟨failure, hfailure⟩ := hrest path rfl
      exact printed_of_failure hdone hformatter hfailure
        (hreported path (by simp) failure hfailure) later
  refine ⟨⟨done, rest, rfl, hdone, hprinted⟩, hprinted.exit_zero_iff hdone, ?_⟩
  rintro request hfiles hne hcheck hwrite rfl
  rw [← hfiles] at hne ⊢
  exact run_of_files hformatter hne hcheck hwrite

end Printing

/-- Two files, of which the second starts with a style, and a formatter that leaves every text as it
is. -/
def shelfSession : Session where
  host := ⟨⟨[(["a"], .file [0x78] false), (["s"], .file [0x1b, 0x5b, 0x6d, 0x79] false)]⟩, [], [],
    fun _ _ _ => ⟨[], [], 0⟩⟩
  reader := .constant (.container .source none [])
  formatter := .ok (.scripted .identity)
  input := []
  interactive := false
  processors := 1

theorem formatFile_shelfSession :
    (shelfSession.pipeline.formatFile shelfSession.host ⟨none, none⟩ "s").outcome =
      .ok "\x1b[my" := by cbv

/-- The second file is missing, and the third one is not looked at. -/
theorem printed_up_to_failure_missing :
    (shelfSession.pipeline.formatFile shelfSession.host ⟨none, none⟩ "b").outcome =
        .error (.missingFile "b") ∧
      ∃ (done : List (String × String)) (rest : List String),
        ["a", "b", "s"] = done.map Prod.fst ++ rest ∧
        (∀ entry ∈ done, (shelfSession.pipeline.formatFile shelfSession.host ⟨none, none⟩
          entry.1).outcome = .ok entry.2) ∧
        Printed shelfSession ⟨none, none⟩ (.scripted .identity) done rest
          (printFiles shelfSession ⟨none, none⟩ ["a", "b", "s"]) := by
  have ha : (shelfSession.pipeline.formatFile shelfSession.host ⟨none, none⟩ "a").outcome =
      .ok "x" := by cbv
  have hb : (shelfSession.pipeline.formatFile shelfSession.host ⟨none, none⟩ "b").outcome =
      .error (.missingFile "b") := by cbv
  have hreported : ∀ path ∈ ["a", "b", "s"], ∀ failure,
      (shelfSession.pipeline.formatFile shelfSession.host ⟨none, none⟩ path).outcome =
        .error failure → isReported failure = true := by
    simp only [List.forall_mem_cons, ha, hb, formatFile_shelfSession]
    simp [isReported, Failure.isSystem]
  exact ⟨hb, (printed_up_to_failure rfl hreported).1⟩

/-- A style is missing from the output, though the formatted text holds it. -/
theorem style_missing_from_output :
    (shelfSession.pipeline.formatFile shelfSession.host ⟨none, none⟩ "s").outcome =
        .ok "\x1b[my" ∧
      (run shelfSession ⟨["s"], false, false, none, none, none, false⟩).output = "y" := by
  have hrun : run shelfSession ⟨["s"], false, false, none, none, none, false⟩ =
      printFiles shelfSession ⟨none, none⟩ ["s"] := run_of_files rfl (by simp) rfl rfl
  have hechoed : echoed "\x1b[my" = "y" := by cbv
  refine ⟨formatFile_shelfSession, ?_⟩
  rw [hrun]
  simp only [printFiles, formatFile_shelfSession, hechoed, String.append_empty]

end CommandLine

end DecoratorVeil
