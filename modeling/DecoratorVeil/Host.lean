import DecoratorVeil.FileSystem.Resolve

/-!
# The host

What a run finds around it: the file system, the current directory, the directories that are
searched for programs, and how programs behave.
-/

namespace DecoratorVeil

/-- What a program wrote and how it ended; a negative status is the signal that ended it. -/
structure ProcessResult where
  output : List UInt8
  errors : List UInt8
  status : Int

structure Host where
  files : FileSystem
  directory : FileSystem.Location
  searchPath : List FileSystem.Location
  /-- Runs the program at a location with its arguments and input. -/
  execute : FileSystem.Location → List String → List UInt8 → ProcessResult

namespace Host

open FileSystem

def program (host : Host) (path : String) : Except SystemError Location := do
  let place ← host.files.find host.directory path
  match host.files.entry? place with
  | some (.file _ mode) => if mode.executable then return place else throw .permissionDenied
  | _ => throw .permissionDenied

/-- Tries paths in turn.  If none can be run, the first error other than a missing file or directory
counts, and the error of the last path if there is no other. -/
def firstProgram (host : Host) : List String → Except SystemError Location
  | [] => .error .noEntry
  | [path] => host.program path
  | path :: rest =>
    match host.program path with
    | .ok place => .ok place
    | .error error =>
      match firstProgram host rest with
      | .ok place => .ok place
      | .error later => .error (if error = .noEntry ∨ error = .notDirectory then later else error)

/-- The program of a command: a path if it has a slash, otherwise a name in the searched
directories. -/
def findProgram (host : Host) (command : String) : Except SystemError Location :=
  if command.toList.contains '/' then host.program command
  else host.firstProgram (host.searchPath.map fun place => render place ++ "/" ++ command)

def launch (host : Host) (command : String) (arguments : List String) (input : List UInt8) :
    Except SystemError ProcessResult := do
  let place ← host.findProgram command
  return host.execute place arguments input

/-- The path that a path stands for, from the given directory or the current one. -/
def resolve (host : Host) (base : Option String) (path : String) : Except Failure String :=
  host.files.resolve host.directory base path

end Host

end DecoratorVeil
