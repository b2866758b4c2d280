import DecoratorVeil.Grammar.Types

/-!
# Expressions and patterns

The rules of values and of the patterns that take them apart.  None of them is looked at later; they
only have to be read over.
-/

namespace DecoratorVeil.Grammar.Expressions
open Rule Branch

/-- The operators between two expressions that group to the left, with their levels. -/
def binaryOperators : List (String × Level) :=
  [("&&", .logicalAnd), ("||", .logicalOr), (">>", .shift), (">>>", .shift), ("<<", .shift),
    ("&", .bitAnd), ("^", .bitXor), ("|", .bitOr), ("+", .plus), ("-", .plus), ("*", .times),
    ("/", .times), ("%", .times), ("<", .relation), ("<=", .relation), ("==", .equality),
    ("===", .equality), ("!=", .equality), ("!==", .equality), (">=", .relation),
    (">", .relation), ("??", .ternary), ("instanceof", .relation), ("in", .relation)]

def binary (operator : String) (level : Level) : Branch :=
  leftAt level (part .expression ++ lit operator ++ part .expression)

def assignmentOperators : List String :=
  ["+=", "-=", "*=", "/=", "%=", "^=", "&=", "|=", ">>=", ">>>=", "<<=", "**=", "&&=", "||=",
    "??="]

def typeArguments : Rule := maybe (part .typeArguments)

def element : Rule := anyOf [part .expression, part .spreadElement]

def elementPattern : Rule := anyOf [part .pattern, part .assignmentPattern]

def property : Rule :=
  anyOf [part .pair, part .spreadElement, part .methodDefinition, nameOrReserved]

def propertyPattern : Rule :=
  anyOf [part .pairPattern, part .restPattern, part .objectAssignmentPattern, nameOrReserved]

/-- A variable of a declaration or the pattern that takes its value apart. -/
def binding : Rule := .either name (part .destructuringPattern)

/-- What an expression may be read on from. -/
def base : Rule := anyOf [part .expression, part .primaryExpression]

def quoted (mark : String) (characters : Part) : Rule := between mark mark (maybe (part characters))

def expressionBranches : Part → List Branch
  | .expression =>
    [plain (anyOf [part .asExpression, part .satisfiesExpression, part .instantiationExpression,
      part .namespaceModule, part .typeAssertion, part .primaryExpression,
      part .assignmentExpression, part .augmentedAssignment, part .awaitExpression,
      part .unaryExpression, part .binaryExpression, part .ternaryExpression,
      part .updateExpression, part .newExpression, part .yieldExpression])]
  | .primaryExpression =>
    [plain (anyOf [part .subscriptExpression, part .memberExpression,
      part .parenthesizedExpression, variableName, words ["this", "super"], .token .number,
      part .string, part .templateString, part .regex, words ["true", "false", "null"],
      part .object, part .array, part .functionExpression, part .arrowFunction,
      part .generatorFunction, part .classExpression, part .metaProperty, part .callExpression,
      part .nonNullExpression])]
  | .parenthesizedExpression =>
    [plain (between "(" ")"
      (.either (part .expression ++ Types.ascription) (part .sequenceExpression)))]
  | .sequenceExpression => [right (separated (part .expression) .expressionTail)]
  | .expressionTail => tail .expressionTail (lit ",") (part .expression)
  | .yieldExpression =>
    [right (lit "yield" ++ .either (lit "*" ++ part .expression) (maybe (part .expression)))]
  | .awaitExpression => [atLevel .unaryVoid (lit "await" ++ part .expression)]
  | .unaryExpression =>
    [leftAt .unaryVoid
      (words ["!", "~", "-", "+", "typeof", "void", "delete"] ++ part .expression)]
  | .updateExpression =>
    [left (part .expression ++ words ["++", "--"]), left (words ["++", "--"] ++ part .expression)]
  | .binaryExpression =>
    binaryOperators.map (fun (operator, level) => binary operator level) ++
      [leftAt .relation (.token .privateName ++ lit "in" ++ part .expression),
        rightAt .power (part .expression ++ lit "**" ++ part .expression)]
  | .ternaryExpression =>
    [rightAt .ternary (part .expression ++ .token .ternaryMark ++ part .expression ++ lit ":" ++
      part .expression)]
  | .assignmentExpression =>
    [rightAt .assign (maybe (lit "using") ++ .either (part .parenthesizedExpression) assignable ++
      lit "=" ++ part .expression)]
  | .augmentedTarget =>
    [plain (anyOf [part .memberExpression, part .subscriptExpression, nameOrReserved,
      part .parenthesizedExpression, part .nonNullExpression])]
  | .augmentedAssignment =>
    [rightAt .assign (part .augmentedTarget ++ words assignmentOperators ++ part .expression)]
  | .callExpression =>
    [atLevel .call (.either (part .expression) (part .importWord) ++ typeArguments ++
        part .arguments),
      atLevel .templateCall
        (.either (part .primaryExpression) (part .newExpression) ++ part .templateString),
      atLevel .member (part .primaryExpression ++ lit "?." ++ typeArguments ++ part .arguments)]
  | .newExpression =>
    [rightAt .construct (lit "new" ++ part .primaryExpression ++ typeArguments ++
      maybe (part .arguments))]
  | .memberExpression =>
    [atLevel .member (.either base (part .importWord) ++ .either (lit ".") (part .optionalChain) ++
      Types.propertyAccess)]
  | .subscriptExpression =>
    [rightAt .member (base ++ maybe (part .optionalChain) ++ between "[" "]" expressions)]
  | .optionalChain => [plain (lit "?.")]
  | .nonNullExpression => [leftAt .unary (part .expression ++ lit "!")]
  | .typeAssertion => [leftAt .unary (part .typeArguments ++ part .expression)]
  | .asExpression =>
    [leftAt .binary (part .expression ++ lit "as" ++ .either (lit "const") (part .type))]
  | .satisfiesExpression => [leftAt .binary (part .expression ++ lit "satisfies" ++ part .type)]
  | .instantiationExpression => [atLevel .instantiation (part .expression ++ part .typeArguments)]
  | .metaProperty =>
    [plain (.either (lit "new" ++ lit "." ++ lit "target") (lit "import" ++ lit "." ++ lit "meta"))]
  | .arguments => [plain (between "(" ")" (listed element .elementTail))]
  | .spreadElement => [plain (lit "..." ++ part .expression)]
  | .elementTail => tail .elementTail (lit ",") (maybe element)
  | .array => [plain (between "[" "]" (listed element .elementTail))]
  | .object => [atLevel .object (between "\x7b" "\x7d" (listed property .propertyTail))]
  | .propertyTail => tail .propertyTail (lit ",") (maybe property)
  | .pair => [plain (part .propertyName ++ lit ":" ++ part .expression)]
  | .propertyName =>
    [plain (anyOf [nameOrReserved, .token .privateName, part .string, .token .number,
      part .computedPropertyName])]
  | .computedPropertyName => [plain (between "[" "]" (part .expression))]
  | .initializer => [plain (lit "=" ++ part .expression)]
  | .string =>
    [plain (.either (quoted "\x22" .doubleQuotedText) (quoted "\x27" .singleQuotedText))]
  | .doubleQuotedText => repeated .doubleQuotedText (.either (.token .doubleChars) (.token .escape))
  | .singleQuotedText => repeated .singleQuotedText (.either (.token .singleChars) (.token .escape))
  | .templateString => [plain (quoted "\x60" .templateText)]
  | .templateText =>
    repeated .templateText
      (anyOf [.token .templateChars, .token .escape, part .templateSubstitution])
  | .templateSubstitution => [plain (between "$\x7b" "\x7d" expressions)]
  | .regex =>
    [plain (lit "/" ++ .token .regexBody ++ .token .regexEnd ++ maybe (.token .regexFlags))]
  | .nestedIdentifier =>
    [atLevel .member (.either name (part .nestedIdentifier) ++ lit "." ++ name)]
  | _ => []

def patternBranches : Part → List Branch
  | .pattern => [reluctant (.either assignable (part .restPattern))]
  | .restPattern => [right (lit "..." ++ assignable)]
  | .assignmentPattern => [plain (part .pattern ++ lit "=" ++ part .expression)]
  | .destructuringPattern => [plain (.either (part .objectPattern) (part .arrayPattern))]
  | .objectPattern =>
    [atLevel .object (between "\x7b" "\x7d" (listed propertyPattern .propertyPatternTail))]
  | .propertyPatternTail => tail .propertyPatternTail (lit ",") (maybe propertyPattern)
  | .pairPattern => [plain (part .propertyName ++ lit ":" ++ elementPattern)]
  | .objectAssignmentPattern =>
    [plain (.either nameOrReserved (part .destructuringPattern) ++ lit "=" ++ part .expression)]
  | .arrayPattern => [plain (between "[" "]" (listed elementPattern .elementPatternTail))]
  | .elementPatternTail => tail .elementPatternTail (lit ",") (maybe elementPattern)
  | _ => []

end DecoratorVeil.Grammar.Expressions
