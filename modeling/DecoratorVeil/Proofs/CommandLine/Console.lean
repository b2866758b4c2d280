import DecoratorVeil.CommandLine.Run
import DecoratorVeil.Proofs.Text.Markup

/-!
# What a console prints

A failure that is to be reported is printed with its path if the console can print them, and the
status is one in any case.  The standard console prints plain texts as they are; a path that opens
or closes a tag can change what is printed of it, and can end a run.
-/

namespace DecoratorVeil.CommandLine
open Text

/-! ## Failures -/

theorem failed_of_reported {failure : Failure} (h : isReported failure = true) {console : Console}
    {path text : String} (htext : console.report path failure.message = .ok text) :
    failed console path failure = { errors := text, ending := .exit 1 } := by
  rw [failed, if_pos h, htext]

theorem failed_of_not_reported {failure : Failure} (h : isReported failure = false)
    (console : Console) (path : String) :
    failed console path failure = { ending := .escaped failure } := by
  simp [failed, h]

theorem ending_failed_of_reported {failure : Failure} (h : isReported failure = true)
    (console : Console) (path : String) : (failed console path failure).ending = .exit 1 := by
  rw [failed, if_pos h]
  split <;> rfl

theorem output_failed (console : Console) (path : String) (failure : Failure) :
    (failed console path failure).output = "" := by
  unfold failed
  split
  · split <;> rfl
  · rfl

theorem status_failed (console : Console) (path : String) (failure : Failure) :
    (failed console path failure).ending.status = 1 := by
  cases h : isReported failure with
  | true =>
    rw [ending_failed_of_reported h]
    rfl
  | false =>
    rw [failed_of_not_reported h]
    rfl

/-- A failure that escapes is none that is to be reported. -/
theorem isReported_of_escaped {console : Console} {path : String} {failure cause : Failure}
    (h : (failed console path cause).ending = .escaped failure) : isReported failure = false := by
  cases hcause : isReported cause with
  | true =>
    rw [ending_failed_of_reported hcause] at h
    cases h
  | false =>
    rw [failed_of_not_reported hcause] at h
    cases h
    exact hcause

/-- What a run says of the failure that ends it: if the console can print the path and the message,
they are among what is printed, and nothing escapes but the error of a display, if any. -/
structure Reported (console : Console) (display : Option MarkupError) (report : Report)
    (path : String) (failure : Failure) : Prop where
  printed : ∀ text, console.report path failure.message = .ok text →
    (∃ before after, report.errors = before ++ text ++ after) ∧ report.unread = display
  ending : report.ending = .exit 1

/-! ## Consoles that can print -/

namespace Console

variable (console : Console)

/-- The display of a task can be brought to its end with any of the paths, and with none. -/
def Ends (task : String) (paths : List String) : Prop :=
  ∀ last : Option String, (∀ path, last = some path → path ∈ paths) →
    ∃ text, console.displayed task last = .ok text

/-- Each of the paths can be listed, with these lines. -/
def Lists (paths lines : List String) : Prop :=
  List.Forall₂ (fun path line => console.listed path = .ok line) paths lines

end Console

theorem rejectedLines_of_lists {console : Console} {paths lines : List String}
    (h : console.Lists paths lines) : rejectedLines console paths = (String.join lines, none) := by
  induction h with
  | nil => rfl
  | cons hline _ ih => rw [rejectedLines, hline, ih, String.join_cons]

/-! ## The standard console -/

namespace Console

/-- Characters that are printed as they are. -/
structure Printable (text : List Char) : Prop where
  literal : Markup.isLiteral text = true
  kept : ∀ c ∈ text, isDropped c = false ∧ c ≠ '\t'

theorem Printable.cons {c : Char} {text : List Char} (h : Printable text)
    (hmarkup : c ≠ '\\' ∧ c ≠ '[') (hc : isDropped c = false ∧ c ≠ '\t') :
    Printable (c :: text) where
  literal := Markup.isLiteral_cons_iff.2
    ⟨hmarkup.1, fun hbracket => absurd hbracket hmarkup.2, h.literal⟩
  kept := List.forall_mem_cons.2 ⟨hc, h.kept⟩

theorem Printable.append {text rest : List Char} (htext : Printable text) (hrest : Printable rest)
    (hhead : rest.head?.any Markup.opensTag = false) : Printable (text ++ rest) where
  literal := Markup.isLiteral_append htext.literal hrest.literal hhead
  kept := List.forall_mem_append.2 ⟨htext.kept, hrest.kept⟩

theorem Printable.printed_eq {markup : List Char} (h : Printable markup) :
    printed markup = .ok (String.ofList (markup ++ ['\n'])) := by
  have hfilter : markup.filter (!isDropped ·) = markup :=
    List.filter_eq_self.2 fun c hc => by simp [(h.kept c hc).1]
  rw [printed, Markup.render_of_isLiteral h.literal, Except.map, hfilter, expandTabs,
    expandTabsFrom_of_not_mem fun htab => (h.kept _ htab).2 rfl]

/-- Whether a text may hold the name of an emoji, between two colons. -/
def namesEmoji : List Char → Bool
  | [] => false
  | c :: rest =>
    c == ':' && (rest.dropWhile fun c => c != ':' && !isBlank c).head? == some ':' ||
      namesEmoji rest

/-- A text that is printed as it is, also by a console that knows emoji. -/
structure Plain (text : String) : Prop where
  printable : Printable text.toList
  unnamed : namesEmoji text.toList = false

/-- The path and the message stand on lines of their own. -/
theorem report_standard_of_plain {path message : String} (hpath : Plain path)
    (hmessage : Plain message) :
    standard.report path message = .ok (path ++ "\n" ++ message ++ "\n") := by
  have hline : Printable ('\n' :: message.toList) :=
    hmessage.printable.cons (by decide) (by decide)
  change printed (Markup.escape path.toList ++ '\n' :: Markup.escape message.toList) = _
  rw [Markup.escape_of_isLiteral hpath.printable.literal,
    Markup.escape_of_isLiteral hmessage.printable.literal,
    (hpath.printable.append hline rfl).printed_eq]
  refine congrArg Except.ok (String.ext ?_)
  simp

/-- A path between quotation marks, after what can be printed. -/
theorem Plain.quoted {path : String} (h : Plain path) :
    Printable ('\x27' :: path.toList ++ ['\x27']) :=
  (h.printable.cons (by decide) (by decide)).append
    ⟨by decide, by simp [isDropped]⟩ (by decide)

theorem listed_standard_of_plain {path : String} (hpath : Plain path) :
    standard.listed path = .ok ("- \x27" ++ path ++ "\x27\n") := by
  have hline : Printable ("- \x27".toList ++ path.toList ++ "\x27".toList) :=
    (hpath.quoted.cons (by decide) (by decide)).cons (by decide) (by decide)
  change printed ("- \x27".toList ++ Markup.escape path.toList ++ "\x27".toList) = _
  rw [Markup.escape_of_isLiteral hpath.printable.literal, hline.printed_eq]
  refine congrArg Except.ok (String.ext ?_)
  simp

/-- The display of a task ends with a line feed. -/
theorem displayed_standard_of_plain {task : String} {last : Option String}
    (htask : Markup.isLiteral task.toList = true) (hlast : ∀ path, last = some path → Plain path) :
    standard.displayed task last = .ok "\n" := by
  have hshown : Printable ('\x27' :: (last.getD "N/A").toList ++ ['\x27']) := by
    cases last with
    | none => exact ⟨by decide, by simp [isDropped]⟩
    | some path => exact (hlast path rfl).quoted
  have hliteral :
      Markup.isLiteral (task ++ " \x27" ++ last.getD "N/A" ++ "\x27").toList = true := by
    have hspace : Printable (' ' :: '\x27' :: (last.getD "N/A").toList ++ ['\x27']) :=
      hshown.cons (by decide) (by decide)
    have happend := Markup.isLiteral_append htask hspace.literal rfl
    simpa using happend
  change (Markup.render _).map _ = _
  rw [Markup.render_of_isLiteral hliteral]
  rfl

theorem ends_standard_of_plain {task : String} {paths : List String}
    (htask : Markup.isLiteral task.toList = true) (hpaths : ∀ path ∈ paths, Plain path) :
    standard.Ends task paths :=
  fun _ hlast => ⟨"\n", displayed_standard_of_plain htask fun path hpath =>
    hpaths path (hlast path hpath)⟩

theorem lists_standard_of_plain {paths : List String} (hpaths : ∀ path ∈ paths, Plain path) :
    standard.Lists paths (paths.map fun path => "- \x27" ++ path ++ "\x27\n") := by
  induction paths with
  | nil => exact .nil
  | cons path rest ih =>
    obtain ⟨hpath, hrest⟩ := List.forall_mem_cons.1 hpaths
    exact .cons (listed_standard_of_plain hpath) (ih hrest)

end Console

/-! ## One failure -/

/-- The path and the message of a failure are all that is printed of it, and the status is one; but
if the console cannot print them, nothing is printed, and its error escapes. -/
structure ReportedOnly (console : Console) (path : String) (failure : Failure) (report : Report) :
    Prop where
  ending : report.ending = .exit 1
  readable : ∀ text, console.report path failure.message = .ok text →
    report.errors = text ∧ report.unread = none
  unreadable : ∀ error, console.report path failure.message = .error error →
    report.errors = "" ∧ report.unread = some error
  plain : console = .standard → Console.Plain path → Console.Plain failure.message →
    report.errors = path ++ "\n" ++ failure.message ++ "\n" ∧ report.unread = none

theorem reportedOnly_of_failed {console : Console} {path : String} {failure : Failure}
    (hreported : isReported failure = true) {report : Report}
    (herrors : report.errors = (failed console path failure).errors)
    (hending : report.ending = (failed console path failure).ending)
    (hunread : report.unread = (failed console path failure).unread) :
    ReportedOnly console path failure report := by
  have hreadable : ∀ text, console.report path failure.message = .ok text →
      report.errors = text ∧ report.unread = none := by
    intro text htext
    rw [herrors, hunread, failed_of_reported hreported htext]
    exact ⟨rfl, rfl⟩
  refine ⟨hending.trans (ending_failed_of_reported hreported console path), hreadable, ?_, ?_⟩
  · intro error herror
    rw [herrors, hunread, failed, if_pos hreported, herror]
    exact ⟨rfl, rfl⟩
  · rintro rfl hpath hmessage
    exact hreadable _ (Console.report_standard_of_plain hpath hmessage)

end DecoratorVeil.CommandLine
