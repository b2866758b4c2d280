import DecoratorVeil.Grammar.Rule

/-!
# Precedence

Several short orderings say which of two rules goes first.  An ordering lists levels and parts from
the tightest to the loosest, and the first ordering that mentions both sides decides.
-/

namespace DecoratorVeil.Grammar

inductive Standing where
  | level (level : Level)
  | part (part : Part)
  deriving DecidableEq, Repr

/-- One side of a comparison: a level and the parts that rules of this level belong to. -/
structure Claimant where
  level : Level
  parts : List Part

namespace Precedence

def expressionOrderings : List (List Standing) :=
  [[.level .member, .level .templateCall, .level .call, .part .updateExpression, .level .unaryVoid,
      .level .power, .level .times, .level .plus, .level .shift, .level .relation,
      .level .equality, .level .bitAnd, .level .bitXor, .level .bitOr, .level .logicalAnd,
      .level .logicalOr, .level .ternary, .part .sequenceExpression, .part .arrowFunction],
    [.level .assign, .part .primaryExpression],
    [.level .member, .level .templateCall, .level .construct, .level .call, .part .expression],
    [.level .declare, .level .literal],
    [.part .primaryExpression, .part .statementBlock, .level .object],
    [.part .metaProperty, .part .importWord],
    [.part .importStatement, .part .importWord],
    [.part .exportStatement, .part .primaryExpression],
    [.part .lexicalDeclaration, .part .primaryExpression]]

def typeOrderings : List (List Standing) :=
  [[.level .call, .level .instantiation, .level .unary, .level .binary, .part .awaitExpression,
      .part .arrowFunction],
    [.level .extending, .level .instantiation],
    [.part .intersectionType, .part .unionType, .part .conditionalType, .part .functionType,
      .level .binary, .part .typePredicate, .part .readonlyType],
    [.part .mappedTypeClause, .part .primaryExpression],
    [.part .accessibilityModifier, .part .primaryExpression],
    [.level .unaryVoid, .part .expression],
    [.part .extendsClause, .part .primaryExpression],
    [.level .unary, .level .assign],
    [.level .declare, .part .expression],
    [.part .predefinedType, .part .unaryExpression],
    [.part .type, .part .maybeType],
    [.part .tupleType, .part .arrayType, .part .pattern, .part .type],
    [.part .readonlyType, .part .pattern],
    [.part .readonlyType, .part .primaryExpression],
    [.part .typeQuery, .part .subscriptExpression, .part .expression],
    [.part .typeQuery, .part .querySubscript],
    [.part .nestedTypeIdentifier, .part .genericType, .part .primaryType, .part .lookupType,
      .part .indexTypeQuery, .part .type],
    [.part .asExpression, .part .satisfiesExpression, .part .primaryType],
    [.part .queryMember, .part .memberExpression],
    [.part .memberExpression, .part .importMember],
    [.part .queryMember, .part .primaryExpression],
    [.part .querySubscript, .part .subscriptExpression],
    [.part .querySubscript, .part .primaryExpression],
    [.part .queryCall, .part .primaryExpression],
    [.part .queryInstantiation, .part .primaryExpression],
    [.part .typeQuery, .part .primaryExpression],
    [.part .overrideModifier, .part .primaryExpression],
    [.part .decoratorCall, .part .decorator],
    [.part .literalType, .part .pattern],
    [.part .predefinedType, .part .pattern],
    [.part .callExpression, .part .queryCall],
    [.part .callExpression, .part .importCall],
    [.part .newExpression, .part .primaryExpression],
    [.part .metaProperty, .part .primaryExpression],
    [.part .constructSignature, .part .propertyName]]

def orderings : List (List Standing) := expressionOrderings ++ typeOrderings

/-- Whether an entry of an ordering speaks of a side. -/
def mentions (claimant : Claimant) : Standing → Bool
  | .level level => claimant.level == level
  | .part part => claimant.parts.contains part

/-- The answer of one ordering, given which sides were met so far.  The side that is met first binds
more tightly; an entry that speaks of both counts for the left one. -/
def compareIn (left right : Claimant) (leftSeen rightSeen : Bool) :
    List Standing → Option Ordering
  | [] => none
  | entry :: rest =>
    if mentions left entry then
      if rightSeen then some .lt else compareIn left right true rightSeen rest
    else if mentions right entry then
      if leftSeen then some .gt else compareIn left right leftSeen true rest
    else compareIn left right leftSeen rightSeen rest

def rankOf : Level → Option Int
  | .rank rank => some rank
  | .none => some 0
  | _ => none

def compare (left right : Claimant) : Ordering :=
  match rankOf left.level, rankOf right.level with
  | some l, some r => if l == 0 && r == 0 then byOrderings else Ord.compare l r
  | _, _ => byOrderings
where
  byOrderings : Ordering :=
    (orderings.findSome? (compareIn left right false false)).getD .eq

end Precedence

end DecoratorVeil.Grammar
