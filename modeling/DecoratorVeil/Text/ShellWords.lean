/-!
# Words of a command line

Splitting a command line into words, with single quotes, double quotes and backslashes, and writing
a list of words so that splitting gives it back.  Inside double quotes a backslash only escapes the
quote and itself.
-/

namespace DecoratorVeil.Text.ShellWords

inductive WordsError where
  | openQuote
  | danglingEscape
  deriving DecidableEq, Repr

def WordsError.message : WordsError → String
  | .openQuote => "No closing quotation"
  | .danglingEscape => "No escaped character"

/-- How the next character is read. -/
inductive Mode where
  | bare
  | escaped
  | quoted (mark : Char)
  /-- After a backslash inside double quotes. -/
  | quotedEscaped
  deriving DecidableEq, Repr

def isSeparator (c : Char) : Bool := c == ' ' || c == '\t' || c == '\r' || c == '\n'

/-- Adds characters to the word under construction, which is kept in reverse. -/
def extend (word : Option (List Char)) (chars : List Char) : Option (List Char) :=
  some (chars.reverse ++ word.getD [])

/-- The finished word, if one was begun. -/
def finish : Option (List Char) → List String
  | none => []
  | some word => [String.ofList word.reverse]

def splitFrom : Mode → Option (List Char) → List Char → Except WordsError (List String)
  | .bare, word, [] => .ok (finish word)
  | .escaped, _, [] => .error .danglingEscape
  | .quoted _, _, [] => .error .openQuote
  | .quotedEscaped, _, [] => .error .danglingEscape
  | .bare, word, c :: rest =>
    if isSeparator c then
      (splitFrom .bare none rest).map (finish word ++ ·)
    else if c == '\\' then splitFrom .escaped word rest
    else if c == '\x22' || c == '\x27' then splitFrom (.quoted c) (extend word []) rest
    else splitFrom .bare (extend word [c]) rest
  | .escaped, word, c :: rest => splitFrom .bare (extend word [c]) rest
  | .quoted mark, word, c :: rest =>
    if c == mark then splitFrom .bare word rest
    else if c == '\\' && mark == '\x22' then splitFrom .quotedEscaped word rest
    else splitFrom (.quoted mark) (extend word [c]) rest
  | .quotedEscaped, word, c :: rest =>
    if c == '\\' || c == '\x22' then splitFrom (.quoted '\x22') (extend word [c]) rest
    else splitFrom (.quoted '\x22') (extend word ['\\', c]) rest

def split (line : String) : Except WordsError (List String) :=
  splitFrom .bare none line.toList

def isSafe (c : Char) : Bool :=
  c.isAlphanum || "_@%+=:,./-".toList.contains c

def quoteChars (word : List Char) : List Char :=
  '\x27' :: word.flatMap escapeMark ++ ['\x27']
where
  escapeMark (c : Char) : List Char :=
    if c == '\x27' then "\x27\x22\x27\x22\x27".toList else [c]

/-- A word in a form that splitting reads back. -/
def quote (word : String) : String :=
  if word.toList.isEmpty || word.toList.any (!isSafe ·) then
    String.ofList (quoteChars word.toList)
  else word

/-- A command line with the given words. -/
def join (words : List String) : String :=
  " ".intercalate (words.map quote)

end DecoratorVeil.Text.ShellWords
