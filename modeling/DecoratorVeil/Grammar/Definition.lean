import DecoratorVeil.Grammar.Statements

/-!
# The source grammar

Ties the parts to their branches and to the nodes they leave in a syntax tree.
-/

namespace DecoratorVeil.Grammar

inductive Shape where
  /-- A node of the given kind around the nodes of the part. -/
  | node (kind : String)
  /-- Nothing, though the part counts as a thing of its own. -/
  | covered
  /-- The nodes of the part as they are. -/
  | through
  /-- Nothing, and the part does not count either. -/
  | silent
  deriving DecidableEq, Repr

namespace Part

/-- The branches of a part.  Every family of rules speaks of its own parts only. -/
def branches (part : Part) : List Branch :=
  Types.branches part ++ Expressions.expressionBranches part ++
    Expressions.patternBranches part ++ Functions.branches part ++
    Statements.statementBranches part ++ Statements.declarationBranches part ++
    Statements.moduleBranches part

def shape : Part → Shape
  | .program => .node "program"
  | .exportStatement => .node "export_statement"
  | .importStatement => .node "import_statement"
  | .debuggerStatement => .node "debugger_statement"
  | .expressionStatement => .node "expression_statement"
  | .statementBlock => .node "statement_block"
  | .ifStatement => .node "if_statement"
  | .switchStatement => .node "switch_statement"
  | .forStatement => .node "for_statement"
  | .forInStatement => .node "for_in_statement"
  | .whileStatement => .node "while_statement"
  | .doStatement => .node "do_statement"
  | .tryStatement => .node "try_statement"
  | .withStatement => .node "with_statement"
  | .breakStatement => .node "break_statement"
  | .continueStatement => .node "continue_statement"
  | .returnStatement => .node "return_statement"
  | .throwStatement => .node "throw_statement"
  | .emptyStatement => .node "empty_statement"
  | .labeledStatement => .node "labeled_statement"
  | .functionDeclaration => .node "function_declaration"
  | .generatorDeclaration => .node "generator_function_declaration"
  | .functionSignature => .node "function_signature"
  | .classDeclaration => .node "class_declaration"
  | .abstractClassDeclaration => .node "abstract_class_declaration"
  | .lexicalDeclaration => .node "lexical_declaration"
  | .variableDeclaration => .node "variable_declaration"
  | .moduleDeclaration => .node "module"
  | .namespaceModule => .node "internal_module"
  | .typeAlias => .node "type_alias_declaration"
  | .enumDeclaration => .node "enum_declaration"
  | .interfaceDeclaration => .node "interface_declaration"
  | .importAlias => .node "import_alias"
  | .ambientDeclaration => .node "ambient_declaration"
  | .decorator => .node "decorator"
  | .classBody => .node "class_body"
  | .methodDefinition => .node "method_definition"
  | .methodSignature => .node "method_signature"
  | .abstractMethodSignature => .node "abstract_method_signature"
  | .fieldDefinition => .node "public_field_definition"
  | .staticBlock => .node "class_static_block"
  | .objectType => .node "interface_body"
  | .propertySignature => .node "property_signature"
  | .callSignatureMember => .node "call_signature"
  | .constructSignature => .node "construct_signature"
  | .indexSignature => .node "index_signature"
  | .statements | .statement | .declaration | .decorators | .expression | .primaryExpression
  | .classMembers | .typeMemberTail | .moduleBody => .through
  | .moduleExportName | .importName | .fromClause | .forHeader | .callSignature | .formalParameter
  | .parameterName | .superclass | .augmentedTarget | .initializer | .propertyName | .pattern
  | .destructuringPattern | .type | .primaryType | .tupleMember | .exportTail | .importTail
  | .switchCases | .variableTail | .superinterfaceTail | .enumTail | .expressionTail | .elementTail
  | .propertyTail | .propertyPatternTail | .elementPatternTail | .parameterTail | .superclassTail
  | .typeTail | .typeParameterTail | .tupleTail | .doubleQuotedText | .singleQuotedText
  | .templateText | .templateTypeText => .silent
  | _ => .covered

end Part

end DecoratorVeil.Grammar
