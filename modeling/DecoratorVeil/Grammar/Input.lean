/-!
# Texts under reading

A text cut into characters, with the byte offset of every position.  Positions count characters;
spans of syntax nodes count bytes.
-/

namespace DecoratorVeil.Grammar

structure Input where
  chars : Array Char
  offsets : Array Nat

namespace Input

def offsetsFrom (start : Nat) : List Char → List Nat
  | [] => [start]
  | c :: rest => start :: offsetsFrom (start + c.utf8Size) rest

def ofString (text : String) : Input where
  chars := text.toList.toArray
  offsets := (offsetsFrom 0 text.toList).toArray

def size (input : Input) : Nat := input.chars.size

/-- The byte offset of a position; positions past the end count as the end. -/
def byteOffset (input : Input) (pos : Nat) : Nat :=
  input.offsets.getD pos (input.offsets.back?.getD 0)

/-- The character at a position, the null character past the end. -/
def charAt (input : Input) (pos : Nat) : Char :=
  input.chars.getD pos '\x00'

def startsWith (input : Input) : List Char → Nat → Bool
  | [], _ => true
  | c :: rest, pos => input.chars[pos]? == some c && input.startsWith rest (pos + 1)

/-- The first position from the given one on whose character is not of the class. -/
def skipWhile (input : Input) (accept : Char → Bool) (pos : Nat) : Nat :=
  if h : pos < input.chars.size then
    if accept input.chars[pos] then input.skipWhile accept (pos + 1) else pos
  else pos
termination_by input.chars.size - pos

def slice (input : Input) (start stop : Nat) : String :=
  String.ofList (input.chars.extract start stop).toList

def linesBetween (input : Input) (start stop : Nat) : Nat :=
  ((input.chars.extract start stop).toList.filter (· == '\n')).length

end Input

end DecoratorVeil.Grammar
