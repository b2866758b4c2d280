import DecoratorVeil.Grammar.Pattern

/-!
# Tokens

The tokens of the source language.  A keyword or a sign has one spelling; the other tokens match a
pattern or stand for an end that the text only implies.
-/

namespace DecoratorVeil.Grammar

inductive Token where
  | endOfText
  /-- The end of a statement that a line break or a closing brace implies. -/
  | lineEnd
  /-- The same after a function signature. -/
  | signatureEnd
  /-- The question mark of a conditional expression. -/
  | ternaryMark
  /-- Characters of a template. -/
  | templateChars
  /-- A comment in the manner of hypertext pages. -/
  | pageComment
  | comment
  /-- A first line for the program loader. -/
  | loaderLine
  /-- A word that no rule asks for by its spelling. -/
  | name
  | privateName
  | number
  /-- Characters between double quotes. -/
  | doubleChars
  /-- Characters between single quotes. -/
  | singleChars
  | escape
  | regexBody
  | regexEnd
  | regexFlags
  /-- A keyword or sign with its spelling. -/
  | fixed (text : String)
  deriving DecidableEq, Repr, Hashable

instance : Inhabited Token := ⟨.endOfText⟩

/-! ## Classes of characters -/

def isWithin (c : Char) (low high : Nat) : Bool := low ≤ c.toNat && c.toNat ≤ high

/-- White space between tokens. -/
def isSpace (c : Char) : Bool :=
  c == ' ' || isWithin c 9 13 || c == '\u00A0' || c == '\u1680' || isWithin c 0x2000 0x200B ||
    c == '\u2028' || c == '\u2029' || c == '\u202F' || c == '\u205F' || c == '\u2060' ||
    c == '\u3000' || c == '\uFEFF'

/-- White space where the end of a statement is looked for. -/
def isBlank (c : Char) : Bool :=
  c == ' ' || isWithin c 9 13 || c == '\u1680' || isWithin c 0x2000 0x2006 ||
    isWithin c 0x2008 0x200A || c == '\u2028' || c == '\u2029' || c == '\u205F' || c == '\u3000'

/-- The characters beyond control characters and white space that end a word. -/
def wordBreaks : List Char := ":;\x60\x22\x27@#.,|^&<=>+-*/\\%?!~()[]\x7b\x7d".toList

def isWordPart (c : Char) : Bool :=
  c.toNat ≥ 0x20 && !isSpace c && !wordBreaks.contains c

def isWordStart (c : Char) : Bool := isWordPart c && !c.isDigit

def isHexDigit (c : Char) : Bool :=
  c.isDigit || isWithin c 0x41 0x46 || isWithin c 0x61 0x66

def isOctalDigit (c : Char) : Bool := isWithin c 0x30 0x37

def isLineSeparator (c : Char) : Bool := c == '\u2028' || c == '\u2029'

namespace Token
open Pattern

/-! ## Patterns -/

def hex : Pattern := .one isHexDigit

def octal : Pattern := .one isOctalDigit

def braced (body : Pattern) : Pattern := char '\x7b' ++ body ++ char '\x7d'

def codePoint : Pattern :=
  char 'u' ++ (hex ++ hex ++ hex ++ hex <|> braced (many1 hex))

def wordEscape : Pattern := char '\\' ++ codePoint

def wordTail : Pattern := .many (.one isWordPart <|> wordEscape)

def wordPattern : Pattern := (.one isWordStart <|> wordEscape) ++ wordTail

def digits (digit : Pattern) : Pattern := digit ++ .many (maybe (char '_') ++ digit)

def decimal : Pattern := digits (.one Char.isDigit)

def based (letters : String) (digit : Pattern) : Pattern :=
  char '0' ++ oneOf letters ++ digits digit

def exponent : Pattern := oneOf "eE" ++ maybe (oneOf "+-") ++ decimal

/-- The digits before a point or an exponent: at most one leading zero. -/
def wholePart : Pattern :=
  char '0' <|> maybe (char '0') ++ oneOf "123456789" ++ maybe (maybe (char '_') ++ decimal)

def integer : Pattern :=
  based "xX" hex <|> based "bB" (oneOf "01") <|> based "oO" octal <|> decimal

def numberPattern : Pattern :=
  integer ++ maybe (char 'n') <|>
  wholePart ++ char '.' ++ maybe decimal ++ maybe exponent <|>
  char '.' ++ decimal ++ maybe exponent <|>
  wholePart ++ exponent

def escapePattern : Pattern :=
  char '\\' ++
    (noneOf "xu01234567" <|>
      octal ++ maybe (octal ++ maybe octal) <|>
      char 'x' ++ hex ++ hex <|>
      codePoint <|>
      oneOf "\r?" ++ .one (fun c => c == '\n' || isLineSeparator c))

def lineCommentPattern : Pattern :=
  text "//" ++
    .many (.one fun c => !(c == '\x00' || c == '\r' || c == '\n' || isLineSeparator c))

def blockCommentPattern : Pattern :=
  text "/*" ++ .many (noneOf "*") ++ many1 (char '*') ++
    .many (noneOf "/*" ++ .many (noneOf "*") ++ many1 (char '*')) ++ char '/'

def regexPattern : Pattern :=
  many1
    (char '[' ++ .many (escaped <|> noneOf "]\n\\") ++ char ']' <|> escaped <|> noneOf "/\\[\n")
where
  escaped : Pattern := char '\\' ++ noneOf "\n"

/-- The pattern of a token.  The tokens without one are found by looking at the text around them. -/
def pattern : Token → Pattern
  | .endOfText | .lineEnd | .signatureEnd | .ternaryMark | .templateChars | .pageComment => .fail
  | .comment => lineCommentPattern <|> blockCommentPattern
  | .loaderLine => text "#!" ++ .many (noneOf "\n")
  | .name => wordPattern
  | .privateName => char '#' ++ wordPattern
  | .number => numberPattern
  | .doubleChars => many1 (noneOf "\x22\\\r\n")
  | .singleChars => many1 (noneOf "\x27\\\r\n")
  | .escape => escapePattern
  | .regexBody => regexPattern
  | .regexEnd => char '/'
  | .regexFlags => many1 (.one Char.isLower)
  | .fixed s => text s

def isImmediate : Token → Bool
  | .doubleChars | .singleChars | .escape | .regexBody | .regexEnd | .regexFlags => true
  | _ => false

/-- Of two tokens that match, the one with more weight is taken. -/
def weight : Token → Int
  | .doubleChars | .singleChars | .regexEnd => 1
  | .regexBody => -1
  | _ => 0

def hasSpelling : Token → Bool
  | .fixed _ | .regexEnd => true
  | _ => false

def isKeyword : Token → Bool
  | .fixed s => s.toList.all Char.isAlpha
  | _ => false

/-- Whether a token stands in the text, unlike an end that is only implied. -/
def isVisible : Token → Bool
  | .endOfText | .lineEnd | .signatureEnd => false
  | _ => true

/-- Whether a token is a thing of its own rather than a mark of the rule around it. -/
def isNamed : Token → Bool
  | .fixed s => ["this", "super", "true", "false", "null", "undefined"].contains s
  | .regexEnd | .ternaryMark => false
  | token => token.isVisible

end Token

end DecoratorVeil.Grammar
