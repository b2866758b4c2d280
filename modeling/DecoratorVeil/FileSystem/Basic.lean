import DecoratorVeil.Failure
import DecoratorVeil.FileSystem.Path

/-!
# Directories, files and links

A finite file system: what stands at which location.  The root is always a directory, and every
directory may be searched.
-/

namespace DecoratorVeil

namespace FileSystem

/-- What may be done with a file. -/
structure Mode where
  executable : Bool
  readable : Bool := true
  writable : Bool := true
  deriving DecidableEq, Repr

/-- A file may be read and written if nothing else is said. -/
instance : Coe Bool Mode := ⟨fun executable => { executable := executable }⟩

inductive Entry where
  | directory
  | file (content : List UInt8) (mode : Mode)
  | link (target : String)
  deriving DecidableEq, Repr

end FileSystem

open FileSystem in
structure FileSystem where
  entries : List (Location × Entry)

namespace FileSystem

def entry? (files : FileSystem) (location : Location) : Option Entry :=
  if location.isEmpty then some .directory else files.entries.lookup location

def link? (files : FileSystem) (location : Location) : Option String :=
  match files.entries.lookup location with
  | some (.link target) => some target
  | _ => none

/-- Removes what stands at a location. -/
def erase (files : FileSystem) (location : Location) : FileSystem :=
  ⟨files.entries.filter (·.1 != location)⟩

def put (files : FileSystem) (location : Location) (entry : Entry) : FileSystem :=
  ⟨(location, entry) :: (files.erase location).entries⟩

/-- The regular files below a location with the names that lead to them from there. -/
def filesBelow (files : FileSystem) (location : Location) : List (Location × List UInt8) :=
  files.entries.filterMap fun (place, entry) =>
    match entry with
    | .file content _ =>
      if location.isPrefixOf place then some (place.drop location.length, content) else none
    | _ => none

end FileSystem

end DecoratorVeil
