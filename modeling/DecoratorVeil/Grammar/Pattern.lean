/-!
# Patterns of characters

Regular patterns over characters, matched by derivatives: what is left of a pattern after one more
character is again a pattern, and a text matches once the empty text matches what is left.
-/

namespace DecoratorVeil.Grammar

inductive Pattern where
  /-- Matches nothing. -/
  | fail
  /-- Matches the empty text. -/
  | empty
  /-- One character of a class. -/
  | one (accept : Char → Bool)
  | seq (first second : Pattern)
  | either (first second : Pattern)
  | many (body : Pattern)

namespace Pattern

instance : Append Pattern := ⟨.seq⟩

instance : OrElse Pattern := ⟨fun first second => .either first (second ())⟩

instance : Inhabited Pattern := ⟨.fail⟩

def char (c : Char) : Pattern := .one (· == c)

def chars : List Char → Pattern
  | [] => .empty
  | [c] => char c
  | c :: rest => .seq (char c) (chars rest)

def text (s : String) : Pattern := chars s.toList

def oneOf (s : String) : Pattern := .one s.toList.contains

/-- Any character but the given ones and the null character. -/
def noneOf (s : String) : Pattern :=
  let excluded := '\x00' :: s.toList
  .one fun c => !excluded.contains c

def maybe (body : Pattern) : Pattern := .either body .empty

def many1 (body : Pattern) : Pattern := .seq body (.many body)

/-- Whether the empty text matches. -/
def nullable : Pattern → Bool
  | fail => false
  | empty => true
  | one _ => false
  | seq first second => first.nullable && second.nullable
  | either first second => first.nullable || second.nullable
  | many _ => true

def isFail : Pattern → Bool
  | fail => true
  | _ => false

/-- A sequence without needless parts. -/
def join : Pattern → Pattern → Pattern
  | fail, _ => fail
  | empty, second => second
  | first, second => .seq first second

/-- A choice without needless parts. -/
def merge : Pattern → Pattern → Pattern
  | fail, second => second
  | first, fail => first
  | first, second => .either first second

/-- What is left of a pattern after a character. -/
def derive (c : Char) : Pattern → Pattern
  | fail => fail
  | empty => fail
  | one accept => if accept c then empty else fail
  | seq first second =>
    if first.nullable then merge (join (first.derive c) second) (second.derive c)
    else join (first.derive c) second
  | either first second => merge (first.derive c) (second.derive c)
  | many body => join (body.derive c) (.many body)

end Pattern

end DecoratorVeil.Grammar
