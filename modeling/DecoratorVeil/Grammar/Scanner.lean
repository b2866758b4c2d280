import DecoratorVeil.Grammar.Input
import DecoratorVeil.Grammar.Production

/-!
# Finding the next token

Which token comes next depends on which tokens may come next.  First the tokens are tried that only
the text around a place decides, such as the end of a statement that a line break implies.  Then all
patterns that may match are followed in step, and the longest match is taken.  A word is a keyword
only where that keyword may come next.
-/

namespace DecoratorVeil.Grammar

structure Lexeme where
  token : Nat
  start : Nat
  stop : Nat
  deriving Repr, DecidableEq

structure LexicalEntry where
  number : Nat
  token : Token
  pattern : Pattern

structure Lexicon where
  vocabulary : Vocabulary
  entries : List LexicalEntry
  /-- The tokens that are spelled like words. -/
  keywords : TokenSet
  /-- The tokens that may come anywhere. -/
  extras : TokenSet
  /-- The tokens that are looked for where no rule says what comes next. -/
  anything : TokenSet

namespace Lexicon

def ofVocabulary (vocabulary : Vocabulary) : Lexicon where
  vocabulary := vocabulary
  entries := (List.range vocabulary.tokens.size).filterMap fun number =>
    let token := vocabulary.token number
    if token.isKeyword then none else some ⟨number, token, token.pattern⟩
  keywords := vocabulary.select Token.isKeyword
  extras := vocabulary.select fun token => token == .comment || token == .pageComment
  anything := vocabulary.select fun token => !dependent.contains token
where
  /-- The tokens that other tokens would be taken for. -/
  dependent : List Token :=
    [.doubleChars, .singleChars, .regexBody, .regexFlags, .fixed "?:"]

def source : Lexicon := ofVocabulary .standard

def allows (lexicon : Lexicon) (valid : TokenSet) (token : Token) : Bool :=
  valid.contains (lexicon.vocabulary.number token)

/-- The entries whose patterns may match.  Where a keyword may come, any word is matched. -/
def candidates (lexicon : Lexicon) (valid : TokenSet) : List LexicalEntry :=
  let wordsToo := !(valid ∩ lexicon.keywords).isEmpty
  lexicon.entries.filter fun entry =>
    valid.contains entry.number || (wordsToo && entry.token == .name)

end Lexicon

/-! ## Implied ends and marks -/

namespace Input

def skipBlanks (input : Input) (pos : Nat) : Nat := input.skipWhile isBlank pos

/-- The end of a comment in slashes and stars whose opening ends at a position, or the end of the
text. -/
def blockCommentEnd (input : Input) : Nat → Nat → Nat
  | 0, pos => pos
  | fuel + 1, pos =>
    let star := input.skipWhile (fun c => c != '*' && c != '\x00') pos
    if input.charAt star == '*' then
      if input.charAt (star + 1) == '/' then star + 2 else input.blockCommentEnd fuel (star + 1)
    else star

/-- A stretch of blanks and comments: where it ends, whether it ends before a token, and whether it
holds a comment that takes the rest of its line. -/
structure Gap where
  stop : Nat
  complete : Bool
  lineComment : Bool

def skipGap (input : Input) (lineComment : Bool) : Nat → Nat → Gap
  | 0, pos => ⟨pos, true, lineComment⟩
  | fuel + 1, pos =>
    let pos := input.skipBlanks pos
    if input.charAt pos != '/' then ⟨pos, true, lineComment⟩
    else if input.charAt (pos + 1) == '/' then
      input.skipGap true fuel (input.skipWhile (fun c => c != '\n' && c != '\x00') (pos + 2))
    else if input.charAt (pos + 1) == '*' then
      input.skipGap lineComment fuel (input.blockCommentEnd input.size (pos + 2))
    else ⟨pos + 1, false, lineComment⟩

end Input

def continuingChars : List Char := "\x60,.;*%><=?^|&/:".toList

def isLetter (c : Char) : Bool := c.isAlpha || (c.toNat ≥ 128 && isWordPart c)

/-- Whether a statement may end at a line break before what stands at a position.  A brace goes on
with a signature, and an opening parenthesis or bracket with an expression. -/
def endsBefore (input : Input) (inSignature inExpression : Bool) (pos : Nat) : Bool :=
  let c := input.charAt pos
  if continuingChars.contains c then false
  else if c == '\x7b' then !inSignature
  else if c == '(' || c == '[' then !inExpression
  else if c == '+' then input.charAt (pos + 1) == '+'
  else if c == '-' then input.charAt (pos + 1) == '-'
  else if c == '!' then input.charAt (pos + 1) != '='
  else !(continuesWith "in" || continuesWith "instanceof")
where
  continuesWith (word : String) : Bool :=
    input.startsWith word.toList pos && !isLetter (input.charAt (pos + word.length))

/-- Whether a statement may end at a position without a semicolon, where the search for an answer
stopped, and whether it met a comment that takes the rest of its line. -/
structure ImpliedEnd where
  holds : Bool
  stop : Nat
  lineComment : Bool

/-- A statement may end before the end of the text, before a closing brace, and at a line break
before what cannot go on with it.  A brace with a colon behind it closes a pattern that has a type,
except behind an expression, where it may stand in a conditional one. -/
def impliedEnd (input : Input) (inSignature inExpression : Bool) (pos : Nat) : ImpliedEnd :=
  let pos := input.skipWhile (fun c => isBlank c && c != '\n') pos
  let c := input.charAt pos
  if c == '\x00' then ⟨true, pos, false⟩
  else if c == '\x7d' then
    let after := input.skipBlanks (pos + 1)
    ⟨inExpression || input.charAt after != ':', after, false⟩
  else if c == '\n' then
    let gap := input.skipGap false (input.size + 1) (pos + 1)
    ⟨gap.complete && endsBefore input inSignature inExpression gap.stop, gap.stop, gap.lineComment⟩
  else ⟨false, pos, false⟩

/-- The question mark of a conditional expression: not the start of another sign, and not followed
by what would follow an optional parameter. -/
def ternaryMark? (input : Input) (pos : Nat) : Option (Nat × Nat) :=
  let start := input.skipBlanks pos
  if input.charAt start != '?' then none
  else
    let next := input.charAt (start + 1)
    if next == '?' || next == '.' then none
    else
      let after := input.skipBlanks (start + 1)
      let c := input.charAt after
      if c == ':' || c == ')' || c == ',' then none
      else if c == '.' && !(input.charAt (after + 1)).isDigit then none
      else some (start, start + 1)

/-- A comment in the manner of hypertext pages, which takes the rest of its line. -/
def pageComment? (input : Input) (pos : Nat) : Option (Nat × Nat) :=
  let start := input.skipBlanks pos
  if input.startsWith "<!--".toList start then some (start, lineEnd (start + 4))
  else if input.startsWith "-->".toList start then some (start, lineEnd (start + 3))
  else none
where
  lineEnd (pos : Nat) : Nat :=
    input.skipWhile (fun c => !(c == '\x00' || c == '\n' || isLineSeparator c)) pos

def templateEnd? (input : Input) : Nat → Nat → Option Nat
  | 0, _ => none
  | fuel + 1, pos =>
    let c := input.charAt pos
    if c == '\x60' || c == '\\' then some pos
    else if c == '\x00' then none
    else if c == '$' && input.charAt (pos + 1) == '\x7b' then some pos
    else templateEnd? input fuel (pos + 1)

def implied? (lexicon : Lexicon) (input : Input) (valid : TokenSet) (pos : Nat) : Option Lexeme :=
  if allows .templateChars then
    match templateEnd? input (input.size + 1) pos with
    | some stop =>
      if !allows .lineEnd && pos < stop then some ⟨number .templateChars, pos, stop⟩ else none
    | none => none
  else if allows .lineEnd || allows .signatureEnd then
    let found := impliedEnd input (allows .signatureEnd) (allows (.fixed "||")) pos
    if found.holds then some ⟨number .lineEnd, pos, pos⟩
    else if !found.lineComment && allows .ternaryMark && input.charAt found.stop == '?' then
      ternary found.stop
    else none
  else if allows .ternaryMark then ternary pos
  else if allows (.fixed "||") || allows .escape || allows .regexBody then none
  else (pageComment? input pos).map fun (start, stop) => ⟨number .pageComment, start, stop⟩
where
  allows (token : Token) : Bool := lexicon.allows valid token
  number (token : Token) : Nat := lexicon.vocabulary.number token
  ternary (pos : Nat) : Option Lexeme :=
    (ternaryMark? input pos).map fun (start, stop) => ⟨number .ternaryMark, start, stop⟩

/-! ## The longest match -/

/-- A pattern that has matched so far, and what is left of it. -/
structure Thread where
  entry : LexicalEntry
  rest : Pattern

namespace Thread

/-- The order in which finished threads are taken: by weight, then tokens with a spelling before
others and tokens without a gap before others, then by number. -/
def beats (a b : Thread) : Bool :=
  if a.entry.token.weight != b.entry.token.weight then
    a.entry.token.weight > b.entry.token.weight
  else if rank a != rank b then rank a > rank b
  else a.entry.number < b.entry.number
where
  rank (thread : Thread) : Nat :=
    (if thread.entry.token.hasSpelling then 2 else 0) +
      (if thread.entry.token.isImmediate then 1 else 0)

def finished? (threads : List Thread) : Option Thread :=
  threads.foldl
    (fun found thread =>
      if thread.rest.nullable then
        match found with
        | some other => if other.beats thread then found else some thread
        | none => some thread
      else found)
    none

def advance (c : Char) (threads : List Thread) : List Thread :=
  threads.filterMap fun thread =>
    let rest := thread.rest.derive c
    if rest.isFail then none else some { thread with rest := rest }

/-- Whether a finished thread is given up for going on.  White space may be passed over beside the
threads only as long as nothing else was read, and it never makes a match longer. -/
def yields (done : Thread) (advanced : List Thread) (gapBefore gapGoesOn : Bool) : Bool :=
  let weights := advanced.map (·.entry.token.weight) ++ (if gapGoesOn then [0] else [])
  let weight := done.entry.token.weight
  if weights.any (· > weight) then true
  else if weights.all (· < weight) then false
  else
    !advanced.isEmpty &&
      (!gapBefore || advanced.any (·.entry.number == done.entry.number) ||
        (gapGoesOn && !done.entry.token.isImmediate))

end Thread

/-- The longest match from a position on.  `inGap` holds as long as only white space was read, and
`start` is where the token starts. -/
def longest (input : Input) (again : List Thread) (endToken : Option Nat) (threads : List Thread)
    (inGap onlyGap : Bool) (start pos : Nat) (best : Option Lexeme) : Option Lexeme :=
  let done := Thread.finished? threads
  let best := match done with
    | some thread => some ⟨thread.entry.number, start, pos⟩
    | none => best
  if h : pos < input.chars.size then
    let c := input.chars[pos]
    let advanced := Thread.advance c threads
    let gapGoesOn := inGap && isSpace c
    let goesOn := match done with
      | some thread => thread.yields advanced inGap gapGoesOn
      | none => true
    if (advanced.isEmpty && !gapGoesOn) || !goesOn then best
    else
      longest input again endToken (if gapGoesOn then advanced ++ again else advanced) gapGoesOn
        (onlyGap && advanced.isEmpty) (if advanced.isEmpty then pos + 1 else start) (pos + 1) best
  else
    match endToken with
    | some number => if onlyGap then some ⟨number, pos, pos⟩ else best
    | none => best
termination_by input.chars.size - pos

/-- The longest match of a token that may come next. -/
def matched? (lexicon : Lexicon) (input : Input) (valid : TokenSet) (pos : Nat) : Option Lexeme :=
  let threads := (lexicon.candidates valid).map fun entry => ⟨entry, entry.pattern⟩
  let again := threads.filter fun thread => !thread.entry.token.isImmediate
  let finish := lexicon.vocabulary.number .endOfText
  match longest input again (if valid.contains finish then some finish else none) threads true true
      pos pos none with
  | some found =>
    if found.token == lexicon.vocabulary.number .name then
      let keyword := lexicon.vocabulary.number (.fixed (input.slice found.start found.stop))
      some (if valid.contains keyword && lexicon.keywords.contains keyword
        then { found with token := keyword } else found)
    else some found
  | none => none

/-- The next token from a position on, given the tokens that may come next.  A byte order mark at
the very start is passed over. -/
def scan? (lexicon : Lexicon) (input : Input) (valid : TokenSet) (pos : Nat) : Option Lexeme :=
  let pos := if pos == 0 && input.charAt 0 == '\uFEFF' then 1 else pos
  let valid := valid ∪ lexicon.extras
  match implied? lexicon input valid pos with
  | some lexeme => some lexeme
  | none => matched? lexicon input valid pos

end DecoratorVeil.Grammar
