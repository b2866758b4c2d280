/-!
# The parts of the source grammar

The names of the mutually recursive parts of a source text.  Rules refer to a part by its name, so
each family of rules can be written on its own.  A list of things is a part of its own, and so is
the rest of a list behind its first element, which is called a tail.
-/

namespace DecoratorVeil.Grammar

inductive Part where
  -- whole texts and lists of statements
  | program | statements | statement | declaration | decorators
  -- imports and exports
  | exportStatement | namespaceExport | exportClause | exportTail | exportSpecifier
  | moduleExportName | importWord | importStatement | importClause | importName | fromClause
  | namespaceImport | namedImports | importTail | importSpecifier | importAttribute
  | importRequireClause | importAlias
  -- statements
  | expressionStatement | statementBlock | elseClause | ifStatement | switchStatement | switchBody
  | switchCases | switchCase | switchDefault | forStatement | forInStatement | forHeader
  | whileStatement | doStatement | tryStatement | catchClause | finallyClause | withStatement
  | breakStatement | continueStatement | debuggerStatement | returnStatement | throwStatement
  | emptyStatement | labeledStatement
  -- declarations
  | variableDeclaration | lexicalDeclaration | variableTail | variableDeclarator
  | functionDeclaration | generatorDeclaration | functionSignature | classDeclaration
  | abstractClassDeclaration | interfaceDeclaration | extendsTypeClause | superinterfaceTail
  | enumDeclaration | enumBody | enumTail | enumAssignment | typeAlias | namespaceModule
  | moduleDeclaration | moduleBody | ambientDeclaration
  -- expressions
  | expression | primaryExpression | parenthesizedExpression | sequenceExpression | expressionTail
  | yieldExpression | awaitExpression | unaryExpression | updateExpression | binaryExpression
  | ternaryExpression | assignmentExpression | augmentedTarget | augmentedAssignment
  | callExpression | newExpression | memberExpression | subscriptExpression | optionalChain
  | nonNullExpression | typeAssertion | asExpression | satisfiesExpression
  | instantiationExpression | metaProperty | arguments | spreadElement | elementTail | array
  | object | propertyTail | pair | propertyName | computedPropertyName | initializer
  | arrowFunction | functionExpression | generatorFunction | classExpression | string
  | doubleQuotedText | singleQuotedText | templateString | templateText | templateSubstitution
  | regex | nestedIdentifier
  -- patterns
  | pattern | restPattern | assignmentPattern | destructuringPattern | objectPattern
  | propertyPatternTail | pairPattern | objectAssignmentPattern | arrayPattern
  | elementPatternTail
  -- functions and classes
  | callSignature | formalParameters | parameterTail | formalParameter | requiredParameter
  | optionalParameter | parameterName | accessibilityModifier | overrideModifier | decorator
  | decoratorMember | decoratorCall | decoratorParenthesized | classHeritage | extendsClause
  | superclassTail | superclass | implementsClause | classBody | classMembers | methodDefinition
  | methodSignature | abstractMethodSignature | fieldDefinition | staticBlock
  -- types
  | type | primaryType | typeTail | typeArguments | typeParameters | typeParameterTail
  | typeParameter | constraint | defaultType | typeAscription | omittingAscription
  | addingAscription | optingAscription | assertsAscription | predicateAscription | asserts
  | typePredicate | importMember | importCall | functionType | constructorType | readonlyType
  | inferType | parenthesizedType | predefinedType | nestedTypeIdentifier | genericType
  | arrayType | tupleType | tupleTail | tupleMember | tupleParameter | optionalTupleParameter
  | optionalType | restType | maybeType | typeQuery | queryMember | querySubscript | queryCall
  | queryInstantiation | indexTypeQuery | existentialType | literalType | signedNumber
  | lookupType | conditionalType | templateLiteralType | templateTypeText | templateType
  | intersectionType | unionType | mappedTypeClause | objectType | typeMemberTail
  | callSignatureMember | propertySignature | constructSignature | indexSignature
  deriving DecidableEq, Repr

namespace Part

instance : Inhabited Part := ⟨.program⟩

def index (part : Part) : Nat := part.ctorIdx

def all : List Part :=
  [.program, .statements, .statement, .declaration, .decorators, .exportStatement,
    .namespaceExport, .exportClause, .exportTail, .exportSpecifier, .moduleExportName,
    .importWord, .importStatement, .importClause, .importName, .fromClause, .namespaceImport,
    .namedImports, .importTail, .importSpecifier, .importAttribute, .importRequireClause,
    .importAlias, .expressionStatement, .statementBlock, .elseClause, .ifStatement,
    .switchStatement, .switchBody, .switchCases, .switchCase, .switchDefault, .forStatement,
    .forInStatement, .forHeader, .whileStatement, .doStatement, .tryStatement, .catchClause,
    .finallyClause, .withStatement, .breakStatement, .continueStatement, .debuggerStatement,
    .returnStatement, .throwStatement, .emptyStatement, .labeledStatement, .variableDeclaration,
    .lexicalDeclaration, .variableTail, .variableDeclarator, .functionDeclaration,
    .generatorDeclaration, .functionSignature, .classDeclaration, .abstractClassDeclaration,
    .interfaceDeclaration, .extendsTypeClause, .superinterfaceTail, .enumDeclaration, .enumBody,
    .enumTail, .enumAssignment, .typeAlias, .namespaceModule, .moduleDeclaration, .moduleBody,
    .ambientDeclaration, .expression, .primaryExpression, .parenthesizedExpression,
    .sequenceExpression, .expressionTail, .yieldExpression, .awaitExpression, .unaryExpression,
    .updateExpression, .binaryExpression, .ternaryExpression, .assignmentExpression,
    .augmentedTarget, .augmentedAssignment, .callExpression, .newExpression, .memberExpression,
    .subscriptExpression, .optionalChain, .nonNullExpression, .typeAssertion, .asExpression,
    .satisfiesExpression, .instantiationExpression, .metaProperty, .arguments, .spreadElement,
    .elementTail, .array, .object, .propertyTail, .pair, .propertyName, .computedPropertyName,
    .initializer, .arrowFunction, .functionExpression, .generatorFunction, .classExpression,
    .string, .doubleQuotedText, .singleQuotedText, .templateString, .templateText,
    .templateSubstitution, .regex, .nestedIdentifier, .pattern, .restPattern, .assignmentPattern,
    .destructuringPattern, .objectPattern, .propertyPatternTail, .pairPattern,
    .objectAssignmentPattern, .arrayPattern, .elementPatternTail, .callSignature,
    .formalParameters, .parameterTail, .formalParameter, .requiredParameter, .optionalParameter,
    .parameterName, .accessibilityModifier, .overrideModifier, .decorator, .decoratorMember,
    .decoratorCall, .decoratorParenthesized, .classHeritage, .extendsClause, .superclassTail,
    .superclass, .implementsClause, .classBody, .classMembers, .methodDefinition,
    .methodSignature, .abstractMethodSignature, .fieldDefinition, .staticBlock, .type,
    .primaryType, .typeTail, .typeArguments, .typeParameters, .typeParameterTail, .typeParameter,
    .constraint, .defaultType, .typeAscription, .omittingAscription, .addingAscription,
    .optingAscription, .assertsAscription, .predicateAscription, .asserts, .typePredicate,
    .importMember, .importCall, .functionType, .constructorType, .readonlyType, .inferType,
    .parenthesizedType, .predefinedType, .nestedTypeIdentifier, .genericType, .arrayType,
    .tupleType, .tupleTail, .tupleMember, .tupleParameter, .optionalTupleParameter, .optionalType,
    .restType, .maybeType, .typeQuery, .queryMember, .querySubscript, .queryCall,
    .queryInstantiation, .indexTypeQuery, .existentialType, .literalType, .signedNumber,
    .lookupType, .conditionalType, .templateLiteralType, .templateTypeText, .templateType,
    .intersectionType, .unionType, .mappedTypeClause, .objectType, .typeMemberTail,
    .callSignatureMember, .propertySignature, .constructSignature, .indexSignature]

end Part

end DecoratorVeil.Grammar
