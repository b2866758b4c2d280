import DecoratorVeil.Text.Blank

/-!
# Markup

A text for the console may hold tags in square brackets, which style what follows them up to a
closing tag.  A backslash in front of a tag makes plain text of it.  Styles are told apart by their
names alone, what a tag says after an equals sign is not read, and names of emoji stay as they are.
-/

namespace DecoratorVeil.Text

structure MarkupError where
  message : String
  deriving DecidableEq, Repr

namespace Markup

def opensTag (c : Char) : Bool := c.isLower || c == '#' || c == '/' || c == '@'

/-- What stands in a tag, by what follows its opening bracket. -/
def tagBody? (rest : List Char) : Option (List Char) :=
  let body := rest.takeWhile fun c => c != '[' && c != ']'
  match body, rest.drop body.length with
  | first :: _, ']' :: _ => if opensTag first then some body else none
  | _, _ => none

/-! ## Escaping -/

/-- Puts backslashes in front of tags, after the given number of backslashes. -/
def escapeTags (slashes : Nat) : List Char → List Char
  | [] => []
  | c :: rest =>
    if c == '\\' then c :: escapeTags (slashes + 1) rest
    else if c == '[' && (tagBody? rest).isSome then
      List.replicate (slashes + 1) '\\' ++ c :: escapeTags 0 rest
    else c :: escapeTags 0 rest

/-- Doubles a single backslash at the end. -/
def closeSlash (text : List Char) : List Char :=
  match text.reverse with
  | '\\' :: '\\' :: _ => text
  | '\\' :: _ => text ++ ['\\']
  | _ => text

/-- A text in which no tag is read. -/
def escape (text : List Char) : List Char := closeSlash (escapeTags 0 text)

/-! ## Reading -/

inductive Piece where
  | plain (text : List Char)
  | tag (position : Nat) (body : List Char)

def backslashes (count : Nat) : List Char := List.replicate count '\\'

/-- The pieces of a text from a position on, after characters to be skipped and backslashes that are
still to be read.  Of the backslashes in front of a tag one stands for two, and a last one makes
plain text of the tag; in front of another bracket one is lost. -/
def pieces (position skipped slashes : Nat) : List Char → List Piece
  | [] => [.plain (backslashes slashes)]
  | c :: rest =>
    match skipped with
    | left + 1 => pieces (position + 1) left 0 rest
    | 0 =>
      if c == '\\' then pieces (position + 1) 0 (slashes + 1) rest
      else if c == '[' then
        match tagBody? rest with
        | some body =>
          let piece := if slashes % 2 = 1 then .plain ('[' :: body ++ [']']) else .tag position body
          .plain (backslashes (slashes / 2)) :: piece ::
            pieces (position + 1) (body.length + 1) 0 rest
        | none => .plain (backslashes (slashes - 1) ++ [c]) :: pieces (position + 1) 0 0 rest
      else .plain (backslashes slashes ++ [c]) :: pieces (position + 1) 0 0 rest

def styleName (text : List Char) : List Char :=
  (stripWhile isBlank text).map Char.toLower

def unmatched (position : Nat) (body : List Char) : MarkupError :=
  ⟨"closing tag \x27[" ++ String.ofList body ++ "]\x27 at position " ++ toString position ++
    " doesn\x27t match any open tag"⟩

def nothingOpen (position : Nat) : MarkupError :=
  ⟨"closing tag \x27[/]\x27 at position " ++ toString position ++ " has nothing to close"⟩

def follow (opened : List (List Char)) (position : Nat) (body : List Char) :
    Except MarkupError (List (List Char)) :=
  match body.takeWhile (· != '=') with
  | '/' :: closed =>
    let name := styleName closed
    if name.isEmpty then
      match opened with
      | [] => .error (nothingOpen position)
      | _ :: outer => .ok outer
    else if opened.contains name then .ok (opened.erase name)
    else .error (unmatched position body)
  | name => .ok (styleName name :: opened)

/-- The text of pieces while styles are open. -/
def join (opened : List (List Char)) : List Piece → Except MarkupError (List Char)
  | [] => .ok []
  | .plain text :: rest => (text ++ ·) <$> join opened rest
  | .tag position body :: rest => do join (← follow opened position body) rest

def render (text : List Char) : Except MarkupError (List Char) := join [] (pieces 0 0 0 text)

end Markup

end DecoratorVeil.Text
