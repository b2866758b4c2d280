import DecoratorVeil.CommandLine.Console
import DecoratorVeil.CommandLine.Options
import DecoratorVeil.Pipeline
import DecoratorVeil.Text.Newline

/-!
# Running a request

Printing, checking or writing files, or formatting the input.  Files are taken in order and the
first failure decides how the run ends; when files are checked or written, the work that is under
way at that point is still done.  A failure of the tool or of the file system is reported on the
console; any other one escapes, and so does an error of the console itself.
-/

namespace DecoratorVeil.CommandLine
open Text

inductive Ending where
  | exit (status : Nat)
  /-- A failure that is not reported on the console. -/
  | escaped (failure : Failure)

def Ending.status : Ending → Nat
  | .exit status => status
  | .escaped _ => 1

structure Conclusion where
  output : String := ""
  errors : String := ""
  ending : Ending
  /-- Why the console could not print a text.  It escapes from the run and makes its status one. -/
  unread : Option MarkupError := none

def Conclusion.ofUnread (error : MarkupError) : Conclusion :=
  { ending := .exit 1, unread := some error }

structure Report extends Conclusion where
  trace : List Event
  files : FileSystem

structure Session where
  host : Host
  reader : SourceReader
  formatter : Except Failure Formatter
  input : List UInt8
  /-- Whether the input is a terminal. -/
  interactive : Bool
  /-- How many files are worked on at a time if the request does not say. -/
  processors : Nat
  lineEnds : LineEnds := .unified
  console : Console := .standard

namespace Session

variable (session : Session)

def pipeline : Pipeline := ⟨session.reader, session.formatter⟩

def hostWith (files : FileSystem) : Host := { session.host with files := files }

end Session

/-- The failures that are reported with the file they belong to. -/
def isReported (failure : Failure) : Bool := failure.isTool || failure.isSystem

def failed (console : Console) (path : String) (failure : Failure) : Conclusion :=
  if isReported failure then
    match console.report path failure.message with
    | .ok text => { errors := text, ending := .exit 1 }
    | .error error => .ofUnread error
  else { ending := .escaped failure }

/-! ## Printing -/

def printFiles (session : Session) (options : FormatOptions) : List String → Report
  | [] => { ending := .exit 0, trace := [], files := session.host.files }
  | path :: rest =>
    let result := session.pipeline.formatFile session.host options path
    match result.outcome with
    | .ok formatted =>
      let later := printFiles session options rest
      { later with
        trace := result.trace ++ later.trace
        output := echoed formatted ++ later.output }
    | .error failure =>
      { failed session.console path failure with
        trace := result.trace
        files := session.host.files }

/-! ## Batches -/

/-- What is told while files are worked on. -/
inductive Notice where
  /-- What has come of the work on a file. -/
  | heard (path : String) (result : Except Failure Bool)
  /-- The progress display has ended, with the file that was finished last. -/
  | ended (last : Option String)

namespace Notice

def verdict? : Notice → Option (String × Bool)
  | .heard path (.ok verdict) => some (path, verdict)
  | .heard _ (.error _) | .ended _ => none

def failure? : Notice → Option (String × Failure)
  | .heard path (.error failure) => some (path, failure)
  | .heard _ (.ok _) | .ended _ => none

def isEnd : Notice → Bool
  | .heard _ _ => false
  | .ended _ => true

variable (console : Console) (task : String)

def printed : Notice → String
  | .heard _ (.ok _) => ""
  | .heard path (.error failure) => (failed console path failure).errors
  | .ended last =>
    match console.displayed task last with
    | .ok text => text
    | .error _ => ""

/-- The error of a display that cannot be brought to its end. -/
def displayError? : Notice → Option MarkupError
  | .heard _ _ => none
  | .ended last =>
    match console.displayed task last with
    | .ok _ => none
    | .error error => some error

end Notice

/-- What has been done so far of the work on several files, and what has been told of it. -/
structure Batch where
  trace : List Event
  files : FileSystem
  notices : List Notice

namespace Batch

def start (files : FileSystem) : Batch := ⟨[], files, []⟩

variable (batch : Batch)

def note (events : List Event) (files : FileSystem) : Batch :=
  { batch with trace := batch.trace ++ events, files := files }

def hear (path : String) (result : Except Failure Bool) : Batch :=
  { batch with notices := batch.notices ++ [.heard path result] }

/-- Takes in work that nothing is told of.  Work that fails leaves the files as they are. -/
def overlook (result : Traced (Bool × FileSystem)) : Batch :=
  match result.outcome with
  | .ok (_, files) => batch.note result.trace files
  | .error _ => batch.note result.trace batch.files

def take (path : String) (result : Traced (Bool × FileSystem)) : Batch :=
  (batch.overlook result).hear path (result.outcome.map Prod.fst)

def verdicts : List (String × Bool) := batch.notices.filterMap Notice.verdict?

/-- The failure that was heard of first. -/
def failure? : Option (String × Failure) := batch.notices.findSome? Notice.failure?

def close : Batch :=
  { batch with
    notices := batch.notices ++ [.ended (batch.verdicts.getLast?.map Prod.fst)] }

def isClosed : Bool := batch.notices.any Notice.isEnd

/-- The listed paths among those with a negative verdict. -/
def rejected (paths : List String) : List String :=
  paths.filter fun path => batch.verdicts.contains (path, false)

def displayError? (console : Console) (task : String) : Option MarkupError :=
  batch.notices.findSome? (Notice.displayError? console task)

/-- The report of a batch.  A display that cannot be brought to its end takes the place of any other
end, and a failure that of the end of good work, which depends on the rejected paths. -/
def report (console : Console) (task : String) (paths : List String)
    (finish : List String → Conclusion) : Report :=
  let conclusion : Conclusion :=
    match batch.displayError? console task, batch.failure? with
    | some error, _ => .ofUnread error
    | none, some (path, failure) => failed console path failure
    | none, none => finish (batch.rejected paths)
  { conclusion with
    errors := String.join (batch.notices.map (Notice.printed console task))
    trace := batch.trace
    files := batch.files }

end Batch

abbrev Work := FileSystem → String → Traced (Bool × FileSystem)

/-- Does the work on files of which nothing is told any more. -/
def runOn (work : Work) (batch : Batch) : List String → Batch
  | [] => batch
  | path :: rest => runOn work (batch.overlook (work batch.files path)) rest

/-- Does the work on files in turn, for the given number of files at a time.  When one fails, the
files that are under way are finished, and so is the one that takes the free place. -/
def runAll (work : Work) (jobs : Nat) (batch : Batch) : List String → Batch
  | [] => batch.close
  | path :: rest =>
    let result := work batch.files path
    match result.outcome with
    | .ok _ => runAll work jobs (batch.take path result) rest
    | .error _ => runOn work (batch.take path result).close (rest.take jobs)

/-! ## Checking and writing -/

def checkWork (session : Session) (options : FormatOptions) : Work :=
  fun files path => do
    let verdict ← session.pipeline.checkFile (session.hostWith files) options path
    return (verdict, files)

/-- The lines of the list of rejected files, up to one that the console cannot print. -/
def rejectedLines (console : Console) : List String → String × Option MarkupError
  | [] => ("", none)
  | path :: rest =>
    match console.listed path with
    | .ok line =>
      let (later, unread) := rejectedLines console rest
      (line ++ later, unread)
    | .error error => ("", some error)

def checkVerdict (console : Console) (rejected : List String) : Conclusion :=
  if rejected.isEmpty then { output := "Perfect code style!\n", ending := .exit 0 }
  else
    let (lines, unread) := rejectedLines console rejected
    { output :=
        "Code style issues found in the following files. Forgot to run Prettier?\n" ++ lines
      ending := .exit 1
      unread := unread }

def checkReport (session : Session) (paths : List String) (batch : Batch) : Report :=
  batch.report session.console "checking" paths (checkVerdict session.console)

def checkFiles (session : Session) (options : FormatOptions) (jobs : Nat) (paths : List String) :
    Report :=
  checkReport session paths
    (runAll (checkWork session options) jobs (.start session.host.files) paths)

/-- Formats a file and reads it again; it is written only if its text differs. -/
def writeWork (session : Session) (options : FormatOptions) : Work :=
  fun files path => do
    let host := session.hostWith files
    let formatted ← session.pipeline.formatFile host options path
    let target ← Pipeline.resolvePath host options path
    let bytes ← Traced.ofExcept (Pipeline.readResolved host target)
    if Pipeline.decodeSource bytes == formatted then return (true, files)
    else
      let written := files.overwrite [] target (Text.Utf8.bytesOf formatted)
      let after ← Traced.ofExcept (written.mapError (Failure.system · target))
      Traced.log ("Rewrote " ++ path)
      return (true, after)

def writeReport (session : Session) (paths : List String) (batch : Batch) : Report :=
  batch.report session.console "formatting" paths fun _ => { ending := .exit 0 }

def writeFiles (session : Session) (options : FormatOptions) (jobs : Nat) (paths : List String) :
    Report :=
  writeReport session paths
    (runAll (writeWork session options) jobs (.start session.host.files) paths)

/-! ## The input -/

def inputText (lineEnds : LineEnds) (bytes : List UInt8) : Except Failure String :=
  match Utf8.decode? bytes with
  | some chars => .ok (String.ofList (lineEnds.read chars))
  | none => .error .undecodable

/-- Formats the input under a path.  Only failures of the tool are reported. -/
def formatInput (session : Session) (options : FormatOptions) (path : String) : Report :=
  let result := do
    let code ← Traced.ofExcept (inputText session.lineEnds session.input)
    session.pipeline.formatSource session.host options code path
  let conclusion : Conclusion :=
    match result.outcome with
    | .ok formatted => { output := echoed formatted, ending := .exit 0 }
    | .error failure =>
      if failure.isTool then failed session.console path failure else { ending := .escaped failure }
  { conclusion with
    trace := result.trace
    files := session.host.files }

/-- A run that only says why it does nothing. -/
def complain (session : Session) (message : String) : Report :=
  { errors := message, ending := .exit 1, trace := [], files := session.host.files }

def runInput (session : Session) (options : FormatOptions) (path : String) : Report :=
  if path.isEmpty then
    complain session "--stdin-filepath must be specified when piping to stdin\n"
  else formatInput session options path

/-! ## Requests -/

/-- Runs a request once its formatter is known to exist.  Checking wins over writing. -/
def runReady (session : Session) (request : Request) : Report :=
  let options : FormatOptions := ⟨request.config, none⟩
  let jobs := request.jobs.getD session.processors
  if request.files.isEmpty then
    match request.stdinPath with
    | some path => runInput session options path
    | none =>
      if session.interactive then
        complain session "No input files given. Run with --help for usage.\n"
      else runInput session options ""
  else if request.check then checkFiles session options jobs request.files
  else if request.write then writeFiles session options jobs request.files
  else printFiles session options request.files

def run (session : Session) (request : Request) : Report :=
  match session.formatter with
  | .ok _ => runReady session request
  | .error failure =>
    { ending := .escaped failure, trace := [], files := session.host.files }

end DecoratorVeil.CommandLine
