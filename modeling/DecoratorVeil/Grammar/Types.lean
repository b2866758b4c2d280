import DecoratorVeil.Grammar.Rule

/-!
# Types

The rules of types, type annotations and the members of object types.  Only the member list of an
interface is looked at later.
-/

namespace DecoratorVeil.Grammar.Types
open Rule Branch

/-- The end of a member of an object type. -/
def memberEnd : Rule := .either (lit ",") semicolon

def member : Rule :=
  anyOf [part .exportStatement, part .propertySignature, part .callSignatureMember,
    part .constructSignature, part .indexSignature, part .methodSignature]

def importedMember : Rule := anyOf [part .importMember, part .importCall]

/-- What a type query starts from. -/
def queried : Rule :=
  anyOf [name, lit "this", part .querySubscript, part .queryMember, part .queryCall]

def queriedFunction : Rule :=
  anyOf [part .importWord, name, part .queryMember, part .querySubscript]

def propertyAccess : Rule := .either (.token .privateName) name

def typeParameters : Rule := maybe (part .typeParameters)

def ascription : Rule := maybe (part .typeAscription)

def typeList : Rule := separated (part .type) .typeTail

def branches : Part → List Branch
  | .type =>
    [plain (anyOf [part .primaryType, part .functionType, part .readonlyType,
      part .constructorType, part .inferType]), atLevel (.rank (-1)) importedMember]
  | .primaryType =>
    [plain (anyOf [part .parenthesizedType, part .predefinedType, name,
      part .nestedTypeIdentifier, part .genericType, part .objectType, part .arrayType,
      part .tupleType, part .maybeType, part .typeQuery, part .indexTypeQuery, lit "this",
      part .existentialType, part .literalType, part .lookupType, part .conditionalType,
      part .templateLiteralType, part .intersectionType, part .unionType, lit "const"])]
  | .typeTail => tail .typeTail (lit ",") (part .type)
  | .typeArguments => [plain (between "<" ">" (typeList ++ maybe (lit ",")))]
  | .typeParameters =>
    [plain (between "<" ">"
      (separated (part .typeParameter) .typeParameterTail ++ maybe (lit ",")))]
  | .typeParameterTail => tail .typeParameterTail (lit ",") (part .typeParameter)
  | .typeParameter =>
    [plain (maybe (lit "const") ++ name ++ maybe (part .constraint) ++ maybe (part .defaultType))]
  | .constraint => [plain (words ["extends", ":"] ++ part .type)]
  | .defaultType => [plain (lit "=" ++ part .type)]
  | .typeAscription => [plain (lit ":" ++ .either (part .type) importedMember)]
  | .omittingAscription => [plain (lit "-?:" ++ part .type)]
  | .addingAscription => [plain (lit "+?:" ++ part .type)]
  | .optingAscription => [plain (lit "?:" ++ part .type)]
  | .assertsAscription => [plain (lit ":" ++ part .asserts)]
  | .predicateAscription => [plain (lit ":" ++ part .typePredicate)]
  | .asserts => [plain (lit "asserts" ++ anyOf [part .typePredicate, name, lit "this"])]
  | .typePredicate =>
    [plain (anyOf [name, lit "this", part .predefinedType] ++ lit "is" ++ part .type)]
  | .importMember =>
    [plain (anyOf [part .importWord, part .importMember, part .importCall] ++ lit "." ++
      propertyAccess)]
  | .importCall =>
    [plain (anyOf [part .importWord, part .importMember] ++ part .arguments)]
  | .functionType =>
    [left (typeParameters ++ part .formalParameters ++ lit "=>" ++
      anyOf [part .type, part .asserts, part .typePredicate])]
  | .constructorType =>
    [left (maybe (lit "abstract") ++ lit "new" ++ typeParameters ++ part .formalParameters ++
      lit "=>" ++ part .type)]
  | .readonlyType => [plain (lit "readonly" ++ part .type)]
  | .inferType => [right (lit "infer" ++ name ++ maybe (lit "extends" ++ part .type))]
  | .parenthesizedType => [plain (between "(" ")" (part .type))]
  | .predefinedType =>
    [plain (.either
      (words ["any", "number", "boolean", "string", "symbol", "void", "unknown", "never", "object"])
      (lit "unique" ++ lit "symbol"))]
  | .nestedTypeIdentifier =>
    [atLevel .member (.either name (part .nestedIdentifier) ++ lit "." ++ name)]
  | .genericType =>
    [atLevel .call (.either name (part .nestedTypeIdentifier) ++ part .typeArguments)]
  | .arrayType => [plain (part .primaryType ++ lit "[" ++ lit "]")]
  | .tupleType =>
    [plain (between "[" "]"
      (maybe (separated (part .tupleMember) .tupleTail) ++ maybe (lit ",")))]
  | .tupleTail => tail .tupleTail (lit ",") (part .tupleMember)
  | .tupleMember =>
    [plain (anyOf [part .tupleParameter, part .optionalTupleParameter, part .optionalType,
      part .restType, part .type])]
  | .tupleParameter => [plain (.either name (part .restPattern) ++ part .typeAscription)]
  | .optionalTupleParameter => [plain (name ++ lit "?" ++ part .typeAscription)]
  | .optionalType => [plain (part .type ++ lit "?")]
  | .restType => [plain (lit "..." ++ part .type)]
  | .maybeType => [right (lit "?" ++ part .primaryType)]
  | .typeQuery =>
    [right (lit "typeof" ++ anyOf [part .querySubscript, part .queryMember, part .queryCall,
      part .queryInstantiation, name, lit "this"])]
  | .queryMember => [plain (queried ++ words [".", "?."] ++ propertyAccess)]
  | .querySubscript =>
    [plain (queried ++ maybe (lit "?.") ++ lit "[" ++
      anyOf [part .predefinedType, part .string, .token .number] ++ lit "]")]
  | .queryCall => [plain (queriedFunction ++ part .arguments)]
  | .queryInstantiation => [plain (queriedFunction ++ part .typeArguments)]
  | .indexTypeQuery => [plain (lit "keyof" ++ part .primaryType)]
  | .existentialType => [plain (lit "*")]
  | .literalType =>
    [plain (anyOf [part .signedNumber, .token .number, part .string,
      words ["true", "false", "null", "undefined"]])]
  | .signedNumber => [leftAt (.rank 1) (words ["-", "+"] ++ .token .number)]
  | .lookupType => [plain (part .primaryType ++ between "[" "]" (part .type))]
  | .conditionalType =>
    [right (part .type ++ lit "extends" ++ part .type ++ lit "?" ++ part .type ++ lit ":" ++
      part .type)]
  | .templateLiteralType =>
    [plain (between "\x60" "\x60" (maybe (part .templateTypeText)))]
  | .templateTypeText =>
    repeated .templateTypeText (.either (.token .templateChars) (part .templateType))
  | .templateType => [plain (between "$\x7b" "\x7d" (anyOf [part .primaryType, part .inferType]))]
  | .intersectionType => [left (maybe (part .type) ++ lit "&" ++ part .type)]
  | .unionType => [left (maybe (part .type) ++ lit "|" ++ part .type)]
  | .mappedTypeClause =>
    [plain (name ++ lit "in" ++ part .type ++ maybe (lit "as" ++ part .type))]
  | .objectType =>
    [plain (words ["\x7b", "\x7b|"] ++
      maybe (maybe (words [",", ";"]) ++ member ++ maybe (part .typeMemberTail) ++
        maybe memberEnd) ++
      words ["\x7d", "|\x7d"])]
  | .typeMemberTail => tail .typeMemberTail memberEnd member
  | .callSignatureMember => [plain (part .callSignature)]
  | .propertySignature =>
    [plain (maybe (part .accessibilityModifier) ++ maybe (lit "static") ++
      maybe (part .overrideModifier) ++ maybe (lit "readonly") ++ part .propertyName ++
      maybe (lit "?") ++ ascription)]
  | .constructSignature =>
    [plain (maybe (lit "abstract") ++ lit "new" ++ typeParameters ++ part .formalParameters ++
      ascription)]
  | .indexSignature =>
    [plain (maybe (maybe (words ["-", "+"]) ++ lit "readonly") ++
      between "[" "]" (.either (nameOrReserved ++ lit ":" ++ part .type) (part .mappedTypeClause)) ++
      anyOf [part .typeAscription, part .omittingAscription, part .addingAscription,
        part .optingAscription])]
  | _ => []

end DecoratorVeil.Grammar.Types
