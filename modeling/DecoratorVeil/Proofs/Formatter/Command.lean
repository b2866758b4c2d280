import DecoratorVeil.Proofs.Formatter.External
import DecoratorVeil.Proofs.Text.ShellWords

/-!
# The command of a formatter

The line that is logged before a formatter program is started can be given as a setting and then
names the same words.  If the program is not found, or ends with a status other than zero, the
formatter fails in a way of its own.  That is not so if the system refuses to start the program for
another reason, or if the command has no words, as a setting of separators makes it.
-/

namespace DecoratorVeil

namespace Text

/-- The inner text is the text without the blank characters at its two ends. -/
structure Stripped (text inner : List Char) : Prop where
  around : ∃ before after, text = before ++ inner ++ after ∧
    (∀ c ∈ before, isBlank c = true) ∧ ∀ c ∈ after, isBlank c = true
  first : ∀ c ∈ inner.head?, isBlank c = false
  last : ∀ c ∈ inner.getLast?, isBlank c = false

theorem head?_dropWhile {drop : Char → Bool} {text : List Char} {c : Char}
    (h : c ∈ (text.dropWhile drop).head?) : drop c = false := by
  have hnot := List.head?_dropWhile_not drop text
  rw [h] at hnot
  simpa using hnot

theorem stripped_strip (text : String) : Stripped text.toList (strip text).toList := by
  let front := text.toList.dropWhile isBlank
  have hinner : (strip text).toList = (front.reverse.dropWhile isBlank).reverse := by
    rw [strip, String.toList_ofList, stripWhile]
  have hfront : front = (front.reverse.dropWhile isBlank).reverse ++
      (front.reverse.takeWhile isBlank).reverse := by
    rw [← List.reverse_append, List.takeWhile_append_dropWhile, List.reverse_reverse]
  have hblank {chars : List Char} : ∀ c ∈ chars.takeWhile isBlank, isBlank c = true :=
    List.all_eq_true.1 List.all_takeWhile
  rw [hinner]
  refine ⟨⟨text.toList.takeWhile isBlank, (front.reverse.takeWhile isBlank).reverse, ?_, hblank,
    fun c hc => hblank c (List.mem_reverse.1 hc)⟩, ?_, ?_⟩
  · rw [List.append_assoc, ← hfront, List.takeWhile_append_dropWhile]
  · intro c hc
    have hhead : c ∈ front.head? := by
      rw [hfront, List.head?_append, hc]
      rfl
    exact head?_dropWhile hhead
  · intro c hc
    rw [List.getLast?_reverse] at hc
    exact head?_dropWhile hc

end Text

namespace Formatter.External
open Text

/-! ## Settings -/

/-- A joined line is a setting for its words. -/
theorem commandWords_join {words : List String} (h : words ≠ []) :
    commandWords (some (ShellWords.join words)) = .ok words := by
  have hne := ShellWords.join_ne_empty h
  simp [commandWords, hne, ShellWords.split_join, Except.mapError]

/-- A setting names no words if it is not empty and has nothing but separators. -/
theorem commandWords_eq_nil_iff (setting : Option String) :
    commandWords setting = .ok [] ↔ ∃ line, setting = some line ∧ line ≠ "" ∧
      ∀ c ∈ line.toList, ShellWords.isSeparator c = true := by
  have hdefault : ShellWords.split defaultCommand ≠ .ok [] := by
    rw [Ne, ShellWords.split_eq_nil_iff]
    simp [defaultCommand, ShellWords.isSeparator]
  have herror {result : Except ShellWords.WordsError (List String)} :
      result.mapError Failure.commandWords = .ok [] ↔ result = .ok [] := by
    cases result <;> simp [Except.mapError]
  rw [commandWords, herror]
  cases setting with
  | none => simpa using hdefault
  | some line =>
    by_cases hline : line = ""
    · simpa [hline] using hdefault
    · simp [hline, ShellWords.split_eq_nil_iff]

/-! ## The logged line -/

theorem arguments_ne_nil (command : List String) (path : String) (config : Option String) :
    arguments command path config ≠ [] := by
  simp [arguments, options]

/-- The command is logged before anything else happens. -/
theorem trace_formatter (host : Host) (command : List String) (code path : String)
    (config : Option String) : ∃ later,
      (formatter host command code path config).trace =
        .log ("Running " ++ ShellWords.join (arguments command path config)) :: later ∧
      (later = [] ∨ later = [.launch (arguments command path config) code]) := by
  rw [formatter]
  dsimp only
  rw [Traced.log, Traced.bind_of_ok _ rfl, Traced.after, Traced.emit]
  refine ⟨_, rfl, ?_⟩
  split
  · exact .inl rfl
  · split
    · exact .inl rfl
    · exact .inr rfl

/-- The logged line of a command is a setting for the command: every list of words is read back from
its joined line, and so are the arguments of a formatter from its log. -/
theorem logged_command_recovered :
    (∀ words, words ≠ [] → commandWords (some (ShellWords.join words)) = .ok words) ∧
    ∀ host command code path config, ∃ line later,
      (formatter host command code path config).trace = .log ("Running " ++ line) :: later ∧
      (later = [] ∨ later = [.launch (arguments command path config) code]) ∧
      commandWords (some line) = .ok (arguments command path config) := by
  refine ⟨fun words => commandWords_join, ?_⟩
  intro host command code path config
  obtain ⟨later, htrace, hlater⟩ := trace_formatter host command code path config
  exact ⟨_, later, htrace, hlater, commandWords_join (arguments_ne_nil command path config)⟩

/-- Words that are empty or made of blanks, quotes and backslashes. -/
theorem logged_command_recovered_marks :
    ["", "\x27", "\x22\\", " \t\n", "né"] ≠ [] ∧
      commandWords (some (ShellWords.join ["", "\x27", "\x22\\", " \t\n", "né"])) =
        .ok ["", "\x27", "\x22\\", " \t\n", "né"] :=
  ⟨by simp, logged_command_recovered.1 _ (by simp)⟩

/-! ## Programs that are not started or fail -/

def attempt (host : Host) (command : List String) (code path : String) (config : Option String) :
    Except SystemError ProcessResult :=
  host.launch ((arguments command path config).headD "") (arguments command path config).tail
    (Utf8.bytesOf code)

theorem attempt_of_unfound {host : Host} {command : List String} {path : String}
    {config : Option String} {error : SystemError}
    (h : host.findProgram ((arguments command path config).headD "") = .error error)
    (code : String) : attempt host command code path config = .error error := by
  rw [attempt, Host.launch, h]
  rfl

section Outcomes

variable {host : Host} {command : List String} {code path : String} {config : Option String}
  (hzero : (arguments command path config).any FileSystem.hasZero = false)
include hzero

theorem outcome_formatter_of_unstarted {error : SystemError}
    (h : attempt host command code path config = .error error) :
    (formatter host command code path config).outcome =
      .error (startFailure command ((arguments command path config).headD "") error) := by
  rw [attempt] at h
  simp only [formatter, Traced.outcome_bind, hzero, h]
  rfl

theorem outcome_formatter_of_finished {result : ProcessResult}
    (h : attempt host command code path config = .ok result) :
    (formatter host command code path config).outcome = evaluate result := by
  rw [attempt] at h
  simp only [formatter, Traced.outcome_bind, hzero, h]
  rfl

end Outcomes

theorem evaluate_of_encode {result : ProcessResult} {output errors : List Char}
    (houtput : result.output = Utf8.encode output) (herrors : result.errors = Utf8.encode errors)
    (hstatus : result.status ≠ 0) :
    evaluate result =
      .error (.formatter (complaint (String.ofList (unifyNewlines errors)) result.status)) := by
  rw [evaluate, houtput, herrors, readOutput_encode, readOutput_encode]
  change (if result.status = 0 then _ else _) = _
  rw [if_neg hstatus]
  rfl

/-- A program that complains is quoted without the blanks around its words; one that is silent is
known by its status. -/
theorem complaint_eq (errors : List Char) (status : Int) :
    ∃ said, Stripped errors said ∧ complaint (String.ofList errors) status =
      if said = [] then "prettier exited with code " ++ toString status
      else String.ofList said := by
  have hstripped := stripped_strip (String.ofList errors)
  rw [String.toList_ofList] at hstripped
  refine ⟨_, hstripped, ?_⟩
  simp [complaint]

theorem startFailure_eq_formatter_iff {command : List String} {executable : String}
    {error : SystemError} :
    (∃ message, startFailure command executable error = .formatter message) ↔
      error = .noEntry ∧ command ≠ [] := by
  cases error <;> cases command <;> simp [startFailure, Failure.formatter]

/-- How the formatter of a command fails when its program cannot be started or ends with a status
other than zero, and which settings leave it without a command. -/
theorem unfinished_reported {host : Host} {command : List String} {path : String}
    {config : Option String}
    (hzero : (arguments command path config).any FileSystem.hasZero = false) (code : String) :
    (∀ result output errors, attempt host command code path config = .ok result →
      result.output = Utf8.encode output → result.errors = Utf8.encode errors →
      result.status ≠ 0 →
      ∃ said, Stripped (unifyNewlines errors) said ∧
        (formatter host command code path config).outcome = .error (.formatter
          (if said = [] then "prettier exited with code " ++ toString result.status
          else String.ofList said))) ∧
    (∀ first rest, command = first :: rest →
      attempt host command code path config = .error .noEntry →
      (formatter host command code path config).outcome = .error (.formatter
        ("Prettier executable not found: " ++ quoted first ++
          ". Set AS_PRETTIER_COMMAND to override."))) ∧
    (∀ error, attempt host command code path config = .error error →
      ((∃ message, (formatter host command code path config).outcome =
          .error (.formatter message)) ↔ error = .noEntry ∧ command ≠ []) ∧
      (error ≠ .noEntry → (formatter host command code path config).outcome =
        .error (.system error ((arguments command path config).headD ""))) ∧
      (error = .noEntry → command = [] →
        (formatter host command code path config).outcome = .error .emptyCommand)) ∧
    ∀ setting, commandWords setting = .ok [] ↔ ∃ line, setting = some line ∧ line ≠ "" ∧
      ∀ c ∈ line.toList, ShellWords.isSeparator c = true := by
  refine ⟨?_, ?_, ?_, commandWords_eq_nil_iff⟩
  · intro result output errors hresult houtput herrors hstatus
    obtain ⟨said, hsaid, hmessage⟩ := complaint_eq (unifyNewlines errors) result.status
    refine ⟨said, hsaid, ?_⟩
    rw [outcome_formatter_of_finished hzero hresult,
      evaluate_of_encode houtput herrors hstatus, hmessage]
  · rintro first rest rfl hmissing
    exact outcome_formatter_of_unstarted hzero hmissing
  · intro error herror
    have houtcome := outcome_formatter_of_unstarted hzero herror
    rw [houtcome]
    refine ⟨?_, ?_, ?_⟩
    · simp only [Except.error.injEq]
      exact startFailure_eq_formatter_iff
    · intro hother
      cases error <;> first | rfl | exact absurd rfl hother
    · rintro rfl rfl
      rfl

def sternHost : Host :=
  ⟨⟨[(["d"], .directory), (["p"], .file [] true)]⟩, [], [],
    fun _ _ _ => ⟨[], Utf8.encode " no\r\n".toList, 2⟩⟩

/-- The complaint is stripped after its line ends are unified. -/
theorem unfinished_reported_complaint :
    ∃ said, Stripped " no\n".toList said ∧
      (formatter sternHost ["/p"] "a" "/a.ts" none).outcome = .error (.formatter
        (if said = [] then "prettier exited with code " ++ toString (2 : Int)
        else String.ofList said)) := by
  have hzero : (arguments ["/p"] "/a.ts" none).any FileSystem.hasZero = false := by decide
  have hresult : attempt sternHost ["/p"] "a" "/a.ts" none =
      .ok ⟨[], Utf8.encode " no\r\n".toList, 2⟩ := by cbv
  exact (unfinished_reported hzero "a").1 _ [] _ hresult rfl rfl (by decide)

/-- A setting of one space leaves no command, and then the failure is none of the formatter's own.
Neither is it for a command that names a directory. -/
theorem unstarted_not_reported :
    commandWords (some " ") = .ok [] ∧
      (formatter sternHost [] "a" "/a.ts" none).outcome = .error .emptyCommand ∧
      (formatter sternHost ["./d"] "a" "/a.ts" none).outcome =
        .error (.system .permissionDenied "./d") := by
  have hmissing : sternHost.findProgram "--stdin-filepath" = .error .noEntry := by
    rw [Host.findProgram, if_neg (by simp)]
    rfl
  have hrefused : sternHost.findProgram "./d" = .error .permissionDenied := by cbv
  have hunnamed : attempt sternHost [] "a" "/a.ts" none = .error .noEntry :=
    attempt_of_unfound hmissing "a"
  have hdirectory : attempt sternHost ["./d"] "a" "/a.ts" none = .error .permissionDenied :=
    attempt_of_unfound hrefused "a"
  refine ⟨(commandWords_eq_nil_iff _).2 ⟨" ", rfl, by simp, by simp [ShellWords.isSeparator]⟩,
    ?_, ?_⟩
  · exact outcome_formatter_of_unstarted (by decide) hunnamed
  · exact outcome_formatter_of_unstarted (by decide) hdirectory

end Formatter.External

end DecoratorVeil
