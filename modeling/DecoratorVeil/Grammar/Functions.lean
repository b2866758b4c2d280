import DecoratorVeil.Grammar.Expressions

/-!
# Functions and classes

The rules of parameters, decorators, function and class values, and the members of a class.
Decorators, methods and method signatures are looked at later.
-/

namespace DecoratorVeil.Grammar.Functions
open Rule Branch

def decorators : Rule := maybe (part .decorators)

def accessibility : Rule := maybe (part .accessibilityModifier)

def memberName : Rule := .field "name" (part .propertyName)

def accessor : Rule := maybe (words ["get", "set", "*"])

def methodHead : Rule :=
  accessibility ++ maybe (lit "static") ++ maybe (part .overrideModifier) ++
    maybe (lit "readonly") ++ maybe (lit "async") ++ accessor ++ memberName ++ maybe (lit "?") ++
    part .callSignature

/-- The modifiers of a field behind those for its access. -/
def fieldModifiers : Rule :=
  anyOf [.empty,
    lit "static" ++ maybe (part .overrideModifier) ++ maybe (lit "readonly"),
    part .overrideModifier ++ maybe (lit "readonly"),
    lit "readonly" ++ maybe (lit "abstract"),
    lit "abstract" ++ maybe (lit "readonly"),
    lit "accessor"]

def fieldAccess : Rule :=
  anyOf [.empty, lit "declare" ++ accessibility,
    part .accessibilityModifier ++ maybe (lit "declare")]

def decoratedName : Rule := anyOf [name, part .decoratorMember, part .decoratorCall]

def asyncFunction : Rule := maybe (lit "async") ++ lit "function"

def body : Rule := part .statementBlock

def classTail : Rule :=
  Types.typeParameters ++ maybe (part .classHeritage) ++ .field "body" (part .classBody)

def member : Rule :=
  anyOf [
    decorators ++ part .methodDefinition ++ maybe semicolon,
    part .methodSignature ++ .either (.token .signatureEnd) (lit ","),
    part .staticBlock,
    anyOf [part .abstractMethodSignature, part .indexSignature, part .fieldDefinition] ++
      .either semicolon (lit ","),
    part .methodSignature ++ semicolon,
    lit ";"]

def branches : Part → List Branch
  | .callSignature =>
    [plain (Types.typeParameters ++ part .formalParameters ++
      maybe (anyOf [part .typeAscription, part .assertsAscription, part .predicateAscription]))]
  | .formalParameters =>
    [plain (between "(" ")"
      (maybe (separated (part .formalParameter) .parameterTail ++ maybe (lit ","))))]
  | .parameterTail => tail .parameterTail (lit ",") (part .formalParameter)
  | .formalParameter => [plain (.either (part .requiredParameter) (part .optionalParameter))]
  | .requiredParameter =>
    [plain (part .parameterName ++ Types.ascription ++ maybe (part .initializer))]
  | .optionalParameter =>
    [plain (part .parameterName ++ lit "?" ++ Types.ascription ++ maybe (part .initializer))]
  | .parameterName =>
    [plain (decorators ++ accessibility ++ maybe (part .overrideModifier) ++
      maybe (lit "readonly") ++ .either (part .pattern) (lit "this"))]
  | .accessibilityModifier => [plain (words ["public", "private", "protected"])]
  | .overrideModifier => [plain (lit "override")]
  | .decorators => repeated .decorators (part .decorator)
  | .decorator => [plain (lit "@" ++ .either decoratedName (part .decoratorParenthesized))]
  | .decoratorMember => [atLevel .member (.either name (part .decoratorMember) ++ lit "." ++ name)]
  | .decoratorCall =>
    [atLevel .call (.either name (part .decoratorMember) ++ Expressions.typeArguments ++
      part .arguments)]
  | .decoratorParenthesized => [plain (between "(" ")" decoratedName)]
  | .arrowFunction =>
    [plain (maybe (lit "async") ++ .either nameOrReserved (part .callSignature) ++ lit "=>" ++
      .either (part .expression) body)]
  | .functionExpression =>
    [atLevel .literal (asyncFunction ++ maybe name ++ part .callSignature ++ body)]
  | .generatorFunction =>
    [atLevel .literal (asyncFunction ++ lit "*" ++ maybe name ++ part .callSignature ++ body)]
  | .classExpression => [atLevel .literal (decorators ++ lit "class" ++ maybe name ++ classTail)]
  | .classHeritage =>
    [plain (.either (part .extendsClause ++ maybe (part .implementsClause))
      (part .implementsClause))]
  | .extendsClause => [plain (lit "extends" ++ separated (part .superclass) .superclassTail)]
  | .superclassTail => tail .superclassTail (lit ",") (part .superclass)
  | .superclass => [atLevel .extending (part .expression ++ Expressions.typeArguments)]
  | .implementsClause => [plain (lit "implements" ++ Types.typeList)]
  | .classBody => [plain (between "\x7b" "\x7d" (maybe (part .classMembers)))]
  | .classMembers => repeated .classMembers member
  | .methodDefinition => [left (methodHead ++ body)]
  | .methodSignature => [plain methodHead]
  | .abstractMethodSignature =>
    [plain (accessibility ++ lit "abstract" ++ maybe (part .overrideModifier) ++ accessor ++
      memberName ++ maybe (lit "?") ++ part .callSignature)]
  | .fieldDefinition =>
    [plain (decorators ++ fieldAccess ++ fieldModifiers ++ part .propertyName ++
      maybe (words ["?", "!"]) ++ Types.ascription ++ maybe (part .initializer))]
  | .staticBlock => [plain (lit "static" ++ maybe (.token .lineEnd) ++ body)]
  | _ => []

end DecoratorVeil.Grammar.Functions
