import DecoratorVeil.Grammar.Definition
import DecoratorVeil.Grammar.TokenSet
import Std.Data.HashMap

/-!
# Productions

The branches of the parts written out as productions, which are plain sequences of symbols.
Tokens are numbered in the order in which the rules mention them, so that a set of tokens is a set
of numbers.
-/

namespace DecoratorVeil.Grammar

structure Vocabulary where
  tokens : Array Token
  numbers : Std.HashMap Token Nat

namespace Vocabulary

def empty : Vocabulary := ⟨#[], ∅⟩

/-- Gives a token the next number unless it has one. -/
def add (vocabulary : Vocabulary) (token : Token) : Vocabulary :=
  if vocabulary.numbers.contains token then vocabulary
  else ⟨vocabulary.tokens.push token, vocabulary.numbers.insert token vocabulary.tokens.size⟩

/-- The number of a token.  A token that no rule mentions has a number of no token. -/
def number (vocabulary : Vocabulary) (token : Token) : Nat :=
  vocabulary.numbers.getD token vocabulary.tokens.size

def token (vocabulary : Vocabulary) (number : Nat) : Token := vocabulary.tokens.getD number default

def select (vocabulary : Vocabulary) (accept : Token → Bool) : TokenSet :=
  TokenSet.ofList ((List.range vocabulary.tokens.size).filter fun n => accept (vocabulary.token n))

end Vocabulary

inductive Symbol where
  | token (number : Nat)
  | part (part : Part)
  deriving DecidableEq, Repr

/-- A symbol of a production and the field that it fills. -/
structure Step where
  symbol : Symbol
  field : Option String

structure Production where
  part : Part
  steps : Array Step
  level : Level
  side : Side
  preference : Int

instance : Inhabited Production := ⟨⟨.program, #[], .none, .none, 0⟩⟩

namespace Rule

def tokens : Rule → List Token
  | .empty | .part _ => []
  | .token t => [t]
  | .seq first second | .either first second => first.tokens ++ second.tokens
  | .field _ body => body.tokens

def expand (vocabulary : Vocabulary) : Rule → List (List Step)
  | .empty => [[]]
  | .token t => [[⟨.token (vocabulary.number t), none⟩]]
  | .part p => [[⟨.part p, none⟩]]
  | .seq first second =>
    let seconds := second.expand vocabulary
    (first.expand vocabulary).flatMap fun steps => seconds.map (steps ++ ·)
  | .either first second => first.expand vocabulary ++ second.expand vocabulary
  | .field name body =>
    (body.expand vocabulary).map fun steps =>
      steps.map fun step => { step with field := some name }

end Rule

namespace Vocabulary

/-- The tokens that stand in no rule, and the tokens of all rules. -/
def standard : Vocabulary :=
  (Part.all.flatMap fun part => part.branches.flatMap (·.rule.tokens)).foldl add
    (empty |>.add .endOfText |>.add .comment |>.add .pageComment)

end Vocabulary

namespace Production

def symbol? (production : Production) (place : Nat) : Option Symbol :=
  production.steps[place]?.map (·.symbol)

def ofBranch (vocabulary : Vocabulary) (part : Part) (branch : Branch) :
    List Production :=
  (branch.rule.expand vocabulary).map fun steps =>
    ⟨part, steps.toArray, branch.level, branch.side, branch.preference⟩

def all (vocabulary : Vocabulary) : List Production :=
  Part.all.flatMap fun part => part.branches.flatMap (ofBranch vocabulary part)

end Production

end DecoratorVeil.Grammar
