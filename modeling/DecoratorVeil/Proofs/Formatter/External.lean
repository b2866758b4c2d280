import DecoratorVeil.Formatter.External
import DecoratorVeil.Proofs.Pipeline
import DecoratorVeil.Proofs.Text.Utf8
import Mathlib

/-!
# Checking with a formatter program

A check gives the marked text to a program and compares what comes back with it.  The answer has its
line ends unified before it is compared, and the marked text has not.  So the verdict is about bytes
only where the program writes no carriage return, and a text with one never passes, not even when
the program gives its input back.
-/

namespace DecoratorVeil

namespace Text

theorem unifyNewlines_eq_self_iff (text : List Char) : unifyNewlines text = text ↔ '\r' ∉ text := by
  constructor
  · intro h
    rw [← h]
    exact not_mem_unifyNewlines text
  · fun_induction unifyNewlines text with
    | case1 => simp
    | case2 rest ih => simp
    | case3 rest _ ih => simp
    | case4 c rest _ hc ih =>
      intro h
      rw [ih fun hmem => h (List.mem_cons_of_mem _ hmem)]

end Text

/-- Sentinels hold no carriage return, so marking neither adds nor removes one. -/
theorem carriageReturn_mem_of_markCode {reader : SourceReader} {code marked : String}
    (h : (markCode reader code).outcome = .ok marked) :
    '\r' ∈ marked.toList ↔ '\r' ∈ code.toList := by
  cases hlocate : (locate reader code).outcome with
  | error failure =>
    rw [markCode_of_locate_error hlocate] at h
    cases h
  | ok found =>
    rw [markCode_of_locate hlocate] at h
    cases found with
    | none =>
      cases h
      rfl
    | some ranges =>
      cases hranges : Sentinel.mark code.toList ranges with
      | error error =>
        rw [markRanges, hranges] at h
        cases h
      | ok text =>
        rw [markRanges, hranges] at h
        cases h
        obtain ⟨segments, tail, hcode, rfl, -⟩ := Sentinel.mark_layout hranges
        have hopening : '\r' ∉ Sentinel.opening := by decide
        have hclosing : '\r' ∉ Sentinel.closing := by decide
        rw [hcode, String.toList_ofList]
        simp [Sentinel.markedText, Sentinel.plainText, Sentinel.Segment.marked,
          Sentinel.Segment.plain, hopening, hclosing]

namespace Formatter.External
open Text

/-- A command that can be started, and whose program turns every text on its input into some text on
its output.  It may say anything else, and ends with status zero. -/
structure Answers (host : Host) (command : List String) (path : String) (config : Option String)
    (process : List UInt8 → List UInt8) : Prop where
  noZero : (arguments command path config).any FileSystem.hasZero = false
  started : ∃ place, host.findProgram ((arguments command path config).headD "") = .ok place ∧
    ∀ input, ∃ errors, host.execute place (arguments command path config).tail input =
      ⟨process input, Utf8.encode errors, 0⟩
  wellFormed : ∀ text, ∃ answer, process (Utf8.encode text) = Utf8.encode answer

theorem readOutput_encode (text : List Char) :
    readOutput (Utf8.encode text) = .ok (String.ofList (unifyNewlines text)) := by
  rw [readOutput, Utf8.decode?_encode]

variable {host : Host} {command : List String} {path : String} {config : Option String}
  {process : List UInt8 → List UInt8}

/-- The formatted text is the program's answer with unified line ends. -/
theorem Answers.outcome_formatter (h : Answers host command path config process) (code : String) :
    ∃ answer, process (Utf8.bytesOf code) = Utf8.encode answer ∧
      (formatter host command code path config).outcome =
        .ok (String.ofList (unifyNewlines answer)) := by
  obtain ⟨answer, hanswer⟩ := h.wellFormed code.toList
  obtain ⟨place, hplace, hexecute⟩ := h.started
  obtain ⟨errors, herrors⟩ := hexecute (Utf8.bytesOf code)
  refine ⟨answer, hanswer, ?_⟩
  have hlaunch : host.launch ((arguments command path config).headD "")
      (arguments command path config).tail (Utf8.bytesOf code) =
        .ok ⟨Utf8.encode answer, Utf8.encode errors, 0⟩ := by
    rw [Host.launch, hplace, ← hanswer]
    exact congrArg Except.ok herrors
  have hevaluate : evaluate ⟨Utf8.encode answer, Utf8.encode errors, 0⟩ =
      .ok (String.ofList (unifyNewlines answer)) := by
    rw [evaluate, readOutput_encode, readOutput_encode]
    rfl
  simp only [formatter, Traced.outcome_bind, h.noZero, hlaunch]
  exact hevaluate

end Formatter.External

namespace Pipeline
open Text Formatter

variable {reader : SourceReader} {host : Host} {command : List String} {code path : String}
  {config : Option String} {process : List UInt8 → List UInt8}

theorem outcome_checkCode_of_answer {pipeline : Pipeline} {formatter : Formatter}
    {marked formatted : String} (hmark : (markCode pipeline.reader code).outcome = .ok marked)
    (hbuild : pipeline.formatter = .ok formatter)
    (hformat : (formatter marked path config).outcome = .ok formatted) :
    (pipeline.checkCode code path config).outcome = .ok (formatted == marked) := by
  simp only [checkCode, formatMarked, Traced.outcome_bind, Traced.outcome_ofExcept, hmark, hbuild]
  change (((formatter marked path config).outcome >>= fun formatted => .ok (marked, formatted)) >>=
    fun result => .ok (result.2 == result.1)) = _
  rw [hformat]
  rfl

/-- What a check with a formatter program says of a text that can be marked. -/
theorem check_external_exact {marked : String}
    (hmark : (markCode reader code).outcome = .ok marked)
    (hprocess : External.Answers host command path config process) :
    ∃ verdict answer,
      (checkCode ⟨reader, .ok (External.formatter host command)⟩ code path config).outcome =
        .ok verdict ∧
      process (Utf8.bytesOf marked) = Utf8.encode answer ∧
      (verdict = true ↔ unifyNewlines answer = marked.toList) ∧
      ('\r' ∉ answer → (verdict = true ↔ process (Utf8.bytesOf marked) = Utf8.bytesOf marked)) ∧
      ('\r' ∈ code.toList → verdict = false) ∧
      (process (Utf8.bytesOf marked) = Utf8.bytesOf marked →
        (verdict = true ↔ '\r' ∉ code.toList)) := by
  obtain ⟨answer, hanswer, hformat⟩ := hprocess.outcome_formatter marked
  have hverdict : (String.ofList (unifyNewlines answer) == marked) = true ↔
      unifyNewlines answer = marked.toList := by
    rw [beq_iff_eq, String.ext_iff, String.toList_ofList]
  have hbytes : process (Utf8.bytesOf marked) = Utf8.bytesOf marked ↔ answer = marked.toList := by
    rw [hanswer, Utf8.bytesOf, Utf8.encode_inj]
  refine ⟨String.ofList (unifyNewlines answer) == marked, answer,
    outcome_checkCode_of_answer hmark rfl hformat, hanswer, hverdict, ?_, ?_, ?_⟩
  · intro hclean
    rw [hverdict, hbytes, (unifyNewlines_eq_self_iff answer).2 hclean]
  · intro hreturn
    rw [← Bool.not_eq_true, hverdict]
    intro hsame
    have hmem := (carriageReturn_mem_of_markCode hmark).2 hreturn
    rw [← hsame] at hmem
    exact not_mem_unifyNewlines answer hmem
  · intro hecho
    rw [hverdict, hbytes.1 hecho, unifyNewlines_eq_self_iff, carriageReturn_mem_of_markCode hmark]

def echoHost : Host :=
  ⟨⟨[(["p"], .file [] true)]⟩, [], [], fun _ _ input => ⟨input, [], 0⟩⟩

theorem echoHost_answers : External.Answers echoHost ["/p"] "/a.ts" none id where
  noZero := by decide
  started := ⟨["p"], by cbv, fun _ => ⟨[], rfl⟩⟩
  wellFormed text := ⟨text, rfl⟩

def echoPipeline : Pipeline :=
  ⟨.constant (.container .source none [.decorated .enumType none [⟨0, 2⟩]]),
    .ok (External.formatter echoHost ["/p"])⟩

/-- A program that gives its input back passes a text with a decorator on a line of its own. -/
theorem check_external_exact_echo :
    (echoPipeline.checkCode "@a\nenum E {}\n" "/a.ts" none).outcome = .ok true := by
  have hmark : (markCode echoPipeline.reader "@a\nenum E {}\n").outcome = .ok
      ("/*MAGIC_CODE_ASSEMBLYSCRIPT_PRETTIER@aMAGIC_CODE_ASSEMBLYSCRIPT_PRETTIER*/" ++
        "\nenum E {}\n") := by decide +kernel
  obtain ⟨verdict, answer, houtcome, -, -, -, -, hecho⟩ :=
    check_external_exact hmark echoHost_answers
  rw [(hecho rfl).2 (by decide)] at houtcome
  exact houtcome

/-- The same program does not pass a text with carriage returns, though it changes nothing. -/
theorem carriage_return_fails_check :
    External.Answers echoHost ["/p"] "/a.ts" none id ∧
      (markCode echoPipeline.reader "@a\r\nenum E {}\r\n").outcome = .ok
        ("/*MAGIC_CODE_ASSEMBLYSCRIPT_PRETTIER@aMAGIC_CODE_ASSEMBLYSCRIPT_PRETTIER*/" ++
          "\r\nenum E {}\r\n") ∧
      (echoPipeline.checkCode "@a\r\nenum E {}\r\n" "/a.ts" none).outcome = .ok false := by
  have hmark : (markCode echoPipeline.reader "@a\r\nenum E {}\r\n").outcome = .ok
      ("/*MAGIC_CODE_ASSEMBLYSCRIPT_PRETTIER@aMAGIC_CODE_ASSEMBLYSCRIPT_PRETTIER*/" ++
        "\r\nenum E {}\r\n") := by decide +kernel
  obtain ⟨answer, hanswer, hformat⟩ := echoHost_answers.outcome_formatter
    ("/*MAGIC_CODE_ASSEMBLYSCRIPT_PRETTIER@aMAGIC_CODE_ASSEMBLYSCRIPT_PRETTIER*/" ++
      "\r\nenum E {}\r\n")
  obtain rfl := Utf8.encode_inj.1 hanswer
  refine ⟨echoHost_answers, hmark, (outcome_checkCode_of_answer hmark rfl hformat).trans ?_⟩
  decide +kernel

end Pipeline

end DecoratorVeil
