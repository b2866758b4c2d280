import DecoratorVeil.FileSystem.Basic
import DecoratorVeil.Text.Utf8

/-!
# Looking paths up

The operating system's way to follow a path: every name needs a directory to stand in, links are
followed up to a limit, and names and paths have a greatest length.
-/

namespace DecoratorVeil.FileSystem

def linkLimit : Nat := 40

/-- The greatest number of bytes in a name. -/
def nameLimit : Nat := 255

/-- The greatest number of bytes in a path. -/
def pathLimit : Nat := 4095

/-- Follows names from a location that exists, with a budget of links.  Names may be empty or dots;
those too need a directory. -/
def walk (files : FileSystem) (budget : Nat) (location : Location) :
    List String → Except SystemError Location
  | [] => .ok location
  | name :: rest =>
    if files.entry? location ≠ some .directory then .error .notDirectory
    else if isVoid name then walk files budget location rest
    else if name == ".." then walk files budget location.dropLast rest
    else if nameLimit < name.utf8ByteSize then .error .nameTooLong
    else
      match files.entry? (location ++ [name]) with
      | none => .error .noEntry
      | some (.link target) =>
        match budget with
        | 0 => .error .tooManyLinks
        | left + 1 =>
          walk files left (if isAbsolute target then [] else location) (rawNames target ++ rest)
      | some _ => walk files budget (location ++ [name]) rest
termination_by names => (budget, names.length)

def find (files : FileSystem) (directory : Location) (path : String) :
    Except SystemError Location :=
  if pathLimit < path.utf8ByteSize then .error .nameTooLong
  else if path.isEmpty then .error .noEntry
  else files.walk linkLimit (if isAbsolute path then [] else directory) (rawNames path)

def read (files : FileSystem) (directory : Location) (path : String) :
    Except SystemError (List UInt8) := do
  let place ← files.find directory path
  match files.entry? place with
  | some (.file content mode) => if mode.readable then return content else throw .permissionDenied
  | some _ => throw .isDirectory
  | none => throw .noEntry

def overwrite (files : FileSystem) (directory : Location) (path : String) (content : List UInt8) :
    Except SystemError FileSystem := do
  let place ← files.find directory path
  match files.entry? place with
  | some (.file _ mode) =>
    if mode.writable then return files.put place (.file content mode) else throw .permissionDenied
  | some _ => throw .isDirectory
  | none => throw .noEntry

/-! ## Building a file system -/

/-- Makes the directories on the way from a location, following links that are there. -/
def makeDirectories (files : FileSystem) (location : Location) :
    List String → Except SystemError FileSystem
  | [] => .ok files
  | name :: rest =>
    match files.walk linkLimit location [name] with
    | .ok next => makeDirectories files next rest
    | .error .noEntry =>
      let next := location ++ [name]
      makeDirectories (files.put next .directory) next rest
    | .error error => .error error

def create (files : FileSystem) (directory : Location) (path : String) (entry : Entry) :
    Except SystemError FileSystem := do
  let all := names path
  let made ← files.makeDirectories directory all.dropLast
  let parent ← made.walk linkLimit directory all.dropLast
  match all.getLast? with
  | none => throw .isDirectory
  | some name =>
    match made.walk linkLimit parent [name] with
    | .error .noEntry => return made.put (parent ++ [name]) entry
    | .error error => throw error
    | .ok place =>
      match made.entry? place with
      | some .directory => throw .isDirectory
      | _ => return made.put place entry

def remove (files : FileSystem) (directory : Location) (path : String) :
    Except SystemError FileSystem := do
  let all := names path
  let parent ← files.walk linkLimit directory all.dropLast
  match all.getLast? with
  | none => throw .isDirectory
  | some name =>
    match files.entry? (parent ++ [name]) with
    | none => throw .noEntry
    | some .directory => throw .isDirectory
    | some _ => return files.erase (parent ++ [name])

end DecoratorVeil.FileSystem
