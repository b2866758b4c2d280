/-!
# Paths

A path is a text of names with slashes between them.  A location is the list of names that leads
from the root to a place, without empty names and dots.
-/

namespace DecoratorVeil.FileSystem

/-- The names from the root to a place. -/
abbrev Location := List String

def splitSlashes : List Char → List (List Char)
  | [] => [[]]
  | c :: rest =>
    if c == '/' then [] :: splitSlashes rest
    else
      match splitSlashes rest with
      | [] => [[c]]
      | first :: more => (c :: first) :: more

def rawNames (path : String) : List String :=
  (splitSlashes path.toList).map String.ofList

def isVoid (name : String) : Bool := name == "" || name == "."

/-- The names of a path without empty ones and single dots. -/
def names (path : String) : List String :=
  (rawNames path).filter (!isVoid ·)

def isAbsolute (path : String) : Bool :=
  path.toList.head? == some '/'

def hasZero (text : String) : Bool := text.toList.contains '\x00'

def render (location : Location) : String :=
  "/" ++ "/".intercalate location

/-- Follows one name without looking at any file system. -/
def stepLexically (location : Location) (name : String) : Location :=
  if isVoid name then location
  else if name == ".." then location.dropLast
  else location ++ [name]

/-- The location that names lead to if no link is on the way. -/
def normalize (start : Location) (names : List String) : Location :=
  names.foldl stepLexically start

end DecoratorVeil.FileSystem
