import DecoratorVeil.Grammar.Part
import DecoratorVeil.Grammar.Token

/-!
# Grammar rules as data

A part of the grammar has a list of branches.  A branch is a rule, which is a datum: a
token, another part, a sequence, a choice, or a rule whose match fills a field of the node that is
built.  It may carry a level and a side, which settle what happens where two rules could go on, and
a preference, which settles between two readings of a whole text.
-/

namespace DecoratorVeil.Grammar

inductive Rule where
  /-- Matches no tokens. -/
  | empty
  | token (token : Token)
  | part (part : Part)
  | seq (first second : Rule)
  | either (first second : Rule)
  | field (name : String) (body : Rule)

namespace Rule

instance : Append Rule := ⟨.seq⟩

instance : OrElse Rule := ⟨fun first second => .either first (second ())⟩

instance : Inhabited Rule := ⟨.empty⟩

def lit (text : String) : Rule := .token (.fixed text)

def name : Rule := .token .name

def maybe (body : Rule) : Rule := .either body .empty

def anyOf : List Rule → Rule
  | [] => .empty
  | [rule] => rule
  | rule :: rest => .either rule (anyOf rest)

def words (texts : List String) : Rule := anyOf (texts.map lit)

def between (opening closing : String) (body : Rule) : Rule := lit opening ++ body ++ lit closing

/-- One or more bodies between commas; the tail is the part for all but the first. -/
def separated (body : Rule) (tail : Part) : Rule := body ++ maybe (.part tail)

/-- Any number of bodies between commas, each of which may be absent. -/
def listed (body : Rule) (tail : Part) : Rule := maybe body ++ maybe (.part tail)

/-- The keywords that also serve as names. -/
def reservedWords : List String :=
  ["declare", "namespace", "type", "public", "private", "protected", "override", "readonly",
    "module", "any", "number", "boolean", "string", "symbol", "export", "object", "new", "get",
    "set", "async", "static", "let"]

def nameOrReserved : Rule := .either name (words reservedWords)

def variableName : Rule := .either (lit "undefined") nameOrReserved

def semicolon : Rule := .either (.token .lineEnd) (lit ";")

def expressions : Rule := .either (.part .expression) (.part .sequenceExpression)

def assignable : Rule :=
  anyOf [.part .memberExpression, .part .subscriptExpression, variableName,
    .part .destructuringPattern, .part .nonNullExpression]

end Rule

/-- How tightly a rule binds.  Levels are compared with each other and with parts in a list of
orderings; a rank is compared with ranks. -/
inductive Level where
  | none
  | rank (rank : Int)
  | member | templateCall | call | unaryVoid
  | power | times | plus | shift | relation | equality
  | bitAnd | bitXor | bitOr | logicalAnd | logicalOr | ternary
  | assign | construct | declare | literal | object
  | unary | binary | instantiation | extending
  deriving DecidableEq, Repr

/-- What happens between two rules of one level: the left one ends or the right one goes on. -/
inductive Side where
  | none | left | right
  deriving DecidableEq, Repr

structure Branch where
  rule : Rule
  level : Level
  side : Side
  preference : Int

namespace Branch

instance : Inhabited Branch := ⟨⟨.empty, .none, .none, 0⟩⟩

def plain (rule : Rule) : Branch := ⟨rule, .none, .none, 0⟩

def left (rule : Rule) : Branch := ⟨rule, .none, .left, 0⟩

def right (rule : Rule) : Branch := ⟨rule, .none, .right, 0⟩

def atLevel (level : Level) (rule : Rule) : Branch := ⟨rule, level, .none, 0⟩

def leftAt (level : Level) (rule : Rule) : Branch := ⟨rule, level, .left, 0⟩

def rightAt (level : Level) (rule : Rule) : Branch := ⟨rule, level, .right, 0⟩

/-- A reading that gives way to readings without it. -/
def reluctant (rule : Rule) : Branch := ⟨rule, .none, .none, -1⟩

def repeated (list : Part) (body : Rule) : List Branch :=
  [plain (.part list ++ body), plain body]

def tail (list : Part) (separator body : Rule) : List Branch :=
  repeated list (separator ++ body)

end Branch

end DecoratorVeil.Grammar
