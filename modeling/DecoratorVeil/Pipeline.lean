import DecoratorVeil.Formatter.Basic
import DecoratorVeil.Host
import DecoratorVeil.Locate

/-!
# Formatting and checking

A text is marked, formatted and unmarked; a check asks whether formatting changes the marked text.
Both work on a text, on a text under a path that is resolved first, and on a file.
-/

namespace DecoratorVeil

/-- How paths are read and which configuration file the formatter is given. -/
structure FormatOptions where
  config : Option String := none
  directory : Option String := none
  deriving DecidableEq, Repr

/-- What the texts of a run go through.  The formatter is built only once there is a marked text. -/
structure Pipeline where
  reader : SourceReader
  formatter : Except Failure Formatter

namespace Pipeline

/-- The marked text and what the formatter makes of it. -/
def formatMarked (pipeline : Pipeline) (code path : String) (config : Option String) :
    Traced (String × String) := do
  let marked ← markCode pipeline.reader code
  let formatter ← Traced.ofExcept pipeline.formatter
  let formatted ← formatter marked path config
  return (marked, formatted)

def formatCode (pipeline : Pipeline) (code path : String) (config : Option String) :
    Traced String := do
  let (_, formatted) ← pipeline.formatMarked code path config
  return unmarkText formatted

def checkCode (pipeline : Pipeline) (code path : String) (config : Option String) :
    Traced Bool := do
  let (marked, formatted) ← pipeline.formatMarked code path config
  return formatted == marked

variable (pipeline : Pipeline) (host : Host) (options : FormatOptions)

def resolvePath (path : String) : Traced String :=
  Traced.ofExcept (host.resolve options.directory path)

def formatSource (code path : String) : Traced String := do
  pipeline.formatCode code (← resolvePath host options path) options.config

def checkSource (code path : String) : Traced Bool := do
  pipeline.checkCode code (← resolvePath host options path) options.config

def decodeSource (bytes : List UInt8) : String :=
  String.ofList (Text.Utf8.decodeLossy bytes)

def readResolved (resolved : String) : Except Failure (List UInt8) :=
  (host.files.read [] resolved).mapError (Failure.system · resolved)

/-- The text of a source file.  A file that is not there is named as it was asked for. -/
def readSource (path : String) : Traced String := do
  let resolved ← resolvePath host options path
  match host.files.read [] resolved with
  | .ok bytes => return decodeSource bytes
  | .error .noEntry => Traced.fail (.missingFile path)
  | .error error => Traced.fail (.system error resolved)

def formatFile (path : String) : Traced String := do
  pipeline.formatSource host options (← readSource host options path) path

def checkFile (path : String) : Traced Bool := do
  pipeline.checkSource host options (← readSource host options path) path

end Pipeline

end DecoratorVeil
