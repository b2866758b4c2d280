import DecoratorVeil.Grammar.Functions

/-!
# Statements and declarations

The rules of statements, declarations, imports and exports.  A declaration puts its name and its
body into fields, and an export puts what it exports into one.
-/

namespace DecoratorVeil.Grammar.Statements
open Rule Branch

/-! ## Statements -/

def condition : Rule := part .parenthesizedExpression

def loopBody : Rule := part .statement

def declarators : Rule := separated (part .variableDeclarator) .variableTail ++ semicolon

def statementBranches : Part → List Branch
  | .program => [plain (maybe (.token .loaderLine) ++ maybe (part .statements))]
  | .statements => repeated .statements (part .statement)
  | .statement =>
    [plain (anyOf [part .exportStatement, part .importStatement, part .debuggerStatement,
      part .expressionStatement, part .declaration, part .statementBlock, part .ifStatement,
      part .switchStatement, part .forStatement, part .forInStatement, part .whileStatement,
      part .doStatement, part .tryStatement, part .withStatement, part .breakStatement,
      part .continueStatement, part .returnStatement, part .throwStatement, part .emptyStatement,
      part .labeledStatement])]
  | .expressionStatement => [plain (expressions ++ semicolon)]
  | .statementBlock =>
    [right (between "\x7b" "\x7d" (maybe (part .statements)) ++ maybe (.token .lineEnd))]
  | .elseClause => [plain (lit "else" ++ part .statement)]
  | .ifStatement =>
    [right (lit "if" ++ condition ++ part .statement ++ maybe (part .elseClause))]
  | .switchStatement => [plain (lit "switch" ++ condition ++ part .switchBody)]
  | .switchBody => [plain (between "\x7b" "\x7d" (maybe (part .switchCases)))]
  | .switchCases => repeated .switchCases (.either (part .switchCase) (part .switchDefault))
  | .switchCase => [plain (lit "case" ++ expressions ++ lit ":" ++ maybe (part .statements))]
  | .switchDefault => [plain (lit "default" ++ lit ":" ++ maybe (part .statements))]
  | .forStatement =>
    [plain (lit "for" ++ lit "(" ++
      anyOf [part .lexicalDeclaration, part .variableDeclaration, expressions ++ lit ";",
        part .emptyStatement] ++
      .either (expressions ++ lit ";") (part .emptyStatement) ++ maybe expressions ++ lit ")" ++
      loopBody)]
  | .forInStatement => [plain (lit "for" ++ maybe (lit "await") ++ part .forHeader ++ loopBody)]
  | .forHeader =>
    [plain (between "(" ")"
      (anyOf [assignable, part .parenthesizedExpression,
          lit "var" ++ Expressions.binding ++ maybe (part .initializer),
          words ["let", "const"] ++ Expressions.binding ++ maybe (.token .lineEnd)] ++
        words ["in", "of"] ++ expressions))]
  | .whileStatement => [plain (lit "while" ++ condition ++ loopBody)]
  | .doStatement =>
    [right (lit "do" ++ loopBody ++ lit "while" ++ condition ++ maybe semicolon)]
  | .tryStatement =>
    [plain (lit "try" ++ part .statementBlock ++ maybe (part .catchClause) ++
      maybe (part .finallyClause))]
  | .catchClause =>
    [plain (lit "catch" ++ maybe (between "(" ")" (Expressions.binding ++ Types.ascription)) ++
      part .statementBlock)]
  | .finallyClause => [plain (lit "finally" ++ part .statementBlock)]
  | .withStatement => [plain (lit "with" ++ condition ++ part .statement)]
  | .breakStatement => [plain (lit "break" ++ maybe name ++ semicolon)]
  | .continueStatement => [plain (lit "continue" ++ maybe name ++ semicolon)]
  | .debuggerStatement => [plain (lit "debugger" ++ semicolon)]
  | .returnStatement => [plain (lit "return" ++ maybe expressions ++ semicolon)]
  | .throwStatement => [plain (lit "throw" ++ expressions ++ semicolon)]
  | .emptyStatement => [plain (lit ";")]
  | .labeledStatement => [reluctant (nameOrReserved ++ lit ":" ++ part .statement)]
  | _ => []

/-! ## Declarations -/

def declaredName : Rule := .field "name" name

def declarationBranches : Part → List Branch
  | .declaration =>
    [plain (anyOf [part .functionDeclaration, part .generatorDeclaration, part .classDeclaration,
        part .lexicalDeclaration, part .variableDeclaration, part .functionSignature,
        part .abstractClassDeclaration, part .moduleDeclaration, part .typeAlias,
        part .enumDeclaration, part .interfaceDeclaration, part .importAlias,
        part .ambientDeclaration]),
      atLevel .declare (part .namespaceModule)]
  | .variableDeclaration => [plain (lit "var" ++ declarators)]
  | .lexicalDeclaration => [plain (words ["let", "const"] ++ declarators)]
  | .variableTail => tail .variableTail (lit ",") (part .variableDeclarator)
  | .variableDeclarator =>
    [plain (Expressions.binding ++ Types.ascription ++ maybe (part .initializer)),
      atLevel .declare (name ++ lit "!" ++ part .typeAscription)]
  | .functionDeclaration =>
    [rightAt .declare (Functions.asyncFunction ++ declaredName ++ part .callSignature ++
      part .statementBlock ++ maybe (.token .lineEnd))]
  | .generatorDeclaration =>
    [rightAt .declare (Functions.asyncFunction ++ lit "*" ++ declaredName ++ part .callSignature ++
      part .statementBlock ++ maybe (.token .lineEnd))]
  | .functionSignature =>
    [plain (Functions.asyncFunction ++ declaredName ++ part .callSignature ++
      .either semicolon (.token .signatureEnd))]
  | .classDeclaration =>
    [leftAt .declare (Functions.decorators ++ lit "class" ++ declaredName ++ Functions.classTail ++
      maybe (.token .lineEnd))]
  | .abstractClassDeclaration =>
    [atLevel .declare (Functions.decorators ++ lit "abstract" ++ lit "class" ++ declaredName ++
      Functions.classTail)]
  | .interfaceDeclaration =>
    [plain (lit "interface" ++ declaredName ++ Types.typeParameters ++
      maybe (part .extendsTypeClause) ++ .field "body" (part .objectType))]
  | .extendsTypeClause => [plain (lit "extends" ++ separated superinterface .superinterfaceTail)]
  | .superinterfaceTail => tail .superinterfaceTail (lit ",") superinterface
  | .enumDeclaration =>
    [plain (maybe (lit "const") ++ lit "enum" ++ declaredName ++ part .enumBody)]
  | .enumBody =>
    [plain (between "\x7b" "\x7d" (maybe (separated enumMember .enumTail ++ maybe (lit ","))))]
  | .enumTail => tail .enumTail (lit ",") enumMember
  | .enumAssignment => [plain (part .propertyName ++ part .initializer)]
  | .typeAlias =>
    [plain (lit "type" ++ declaredName ++ Types.typeParameters ++ lit "=" ++ part .type ++
      semicolon)]
  | .namespaceModule => [plain (lit "namespace" ++ part .moduleBody)]
  | .moduleDeclaration => [plain (lit "module" ++ part .moduleBody)]
  | .moduleBody =>
    [right (.field "name" (anyOf [part .string, name, part .nestedIdentifier]) ++
      maybe (.field "body" (part .statementBlock)))]
  | .ambientDeclaration =>
    [plain (lit "declare" ++ anyOf [part .declaration, lit "global" ++ part .statementBlock,
      lit "module" ++ lit "." ++ name ++ lit ":" ++ part .type ++ semicolon])]
  | _ => []
where
  superinterface : Rule := anyOf [name, part .nestedTypeIdentifier, part .genericType]
  enumMember : Rule := .either (part .propertyName) (part .enumAssignment)

/-! ## Imports and exports -/

def typeMark : Rule := maybe (words ["type", "typeof"])

def moduleBranches : Part → List Branch
  | .exportStatement =>
    [plain (lit "export" ++
        anyOf [lit "*" ++ part .fromClause, part .namespaceExport ++ part .fromClause,
          part .exportClause ++ part .fromClause, part .exportClause] ++ semicolon),
      plain (Functions.decorators ++ lit "export" ++
        .either exported (lit "default" ++ .either exported (part .expression ++ semicolon))),
      plain (lit "export" ++ lit "type" ++ part .exportClause ++ maybe (part .fromClause) ++
        semicolon),
      plain (lit "export" ++ lit "import" ++ part .importAlias),
      plain (lit "export" ++ lit "=" ++ part .expression ++ semicolon),
      plain (lit "export" ++ lit "as" ++ lit "namespace" ++ name ++ semicolon)]
  | .namespaceExport => [plain (lit "*" ++ lit "as" ++ part .moduleExportName)]
  | .exportClause =>
    [plain (between "\x7b" "\x7d"
      (maybe (separated (part .exportSpecifier) .exportTail) ++ maybe (lit ",")))]
  | .exportTail => tail .exportTail (lit ",") (part .exportSpecifier)
  | .exportSpecifier =>
    [plain (typeMark ++ part .moduleExportName ++ maybe (lit "as" ++ part .moduleExportName))]
  | .moduleExportName => [plain (.either name (part .string))]
  | .importWord => [plain (lit "import")]
  | .importStatement =>
    [plain (lit "import" ++ typeMark ++
      anyOf [part .importClause ++ part .fromClause, part .importRequireClause, part .string] ++
      maybe (part .importAttribute) ++ semicolon)]
  | .importClause =>
    [plain (anyOf [part .namespaceImport, part .namedImports, part .importName ++
      maybe (lit "," ++ .either (part .namespaceImport) (part .namedImports))])]
  | .importName => [plain (.either name (lit "type"))]
  | .fromClause => [plain (lit "from" ++ part .string)]
  | .namespaceImport => [plain (lit "*" ++ lit "as" ++ name)]
  | .namedImports =>
    [plain (between "\x7b" "\x7d"
      (maybe (separated (part .importSpecifier) .importTail) ++ maybe (lit ",")))]
  | .importTail => tail .importTail (lit ",") (part .importSpecifier)
  | .importSpecifier =>
    [plain (typeMark ++ .either (part .importName)
      (.either (part .moduleExportName) (lit "type") ++ lit "as" ++ part .importName))]
  | .importAttribute => [plain (words ["with", "assert"] ++ part .object)]
  | .importRequireClause =>
    [plain (name ++ lit "=" ++ lit "require" ++ between "(" ")" (part .string))]
  | .importAlias =>
    [plain (lit "import" ++ name ++ lit "=" ++ .either name (part .nestedIdentifier) ++ semicolon)]
  | _ => []
where
  exported : Rule := .field "declaration" (part .declaration)

end DecoratorVeil.Grammar.Statements
