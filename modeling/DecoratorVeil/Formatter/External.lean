import DecoratorVeil.Formatter.Basic
import DecoratorVeil.Host
import DecoratorVeil.Text.Blank
import DecoratorVeil.Text.Newline

/-!
# The external formatter

Runs a formatter program: the text goes to its input, the path and the configuration are arguments,
and the formatted text is its output.  A setting may replace the command.
-/

namespace DecoratorVeil.Formatter.External
open Text

def defaultCommand : String := "prettier"

/-- The words of the command; an empty setting counts as none. -/
def commandWords (setting : Option String) : Except Failure (List String) :=
  let line := setting.getD ""
  (ShellWords.split (if line.isEmpty then defaultCommand else line)).mapError .commandWords

/-- The option for the configuration file; an empty name counts as none. -/
def configArguments (config : Option String) : List String :=
  match config with
  | none => []
  | some name => if name.isEmpty then [] else ["--config", name]

def options (path : String) (config : Option String) : List String :=
  ["--stdin-filepath", path, "--parser", "typescript"] ++ configArguments config

def arguments (command : List String) (path : String) (config : Option String) : List String :=
  command ++ options path config

/-- Reads what a program wrote: strict UTF-8 with any line ends. -/
def readOutput (bytes : List UInt8) : Except Failure String :=
  match Utf8.decode? bytes with
  | some text => .ok (String.ofList (unifyNewlines text))
  | none => .error .undecodable

/-- Why a program with a non-zero status failed: what it said, or its status if it said nothing. -/
def complaint (errors : String) (status : Int) : String :=
  let said := strip errors
  if said.isEmpty then "prettier exited with code " ++ toString status else said

/-- The formatted text of a finished program.  Both outputs are read before the status counts. -/
def evaluate (result : ProcessResult) : Except Failure String := do
  let output ← readOutput result.output
  let errors ← readOutput result.errors
  if result.status = 0 then return output
  else throw (.formatter (complaint errors result.status))

def startFailure (command : List String) (executable : String) : SystemError → Failure
  | .noEntry =>
    match command with
    | [] => .emptyCommand
    | first :: _ =>
      .formatter ("Prettier executable not found: " ++ quoted first ++
        ". Set AS_PRETTIER_COMMAND to override.")
  | error => .system error executable

/-- The formatter that runs a command.  Without a command the first option is run. -/
def formatter (host : Host) (command : List String) : Formatter :=
  fun code path config => do
    let words := arguments command path config
    Traced.log ("Running " ++ ShellWords.join words)
    if words.any FileSystem.hasZero then Traced.fail .zeroCharacter
    else
      let executable := words.headD ""
      match host.launch executable words.tail (Utf8.bytesOf code) with
      | .error error => Traced.fail (startFailure command executable error)
      | .ok result => do
        Traced.emit (.launch words code)
        Traced.ofExcept (evaluate result)

def ofSetting (host : Host) (setting : Option String) : Except Failure Formatter :=
  (commandWords setting).map (formatter host)

end DecoratorVeil.Formatter.External
