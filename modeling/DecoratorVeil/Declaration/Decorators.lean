import DecoratorVeil.Declaration.Basic

/-!
# Collecting decorators

The decorator ranges of every enumeration, method and function that is reached through containers,
in document order.  A declaration of no known kind stops the collection.
-/

namespace DecoratorVeil.Declaration

/-- The name of a declaration kind that cannot be walked. -/
structure UnknownKind where
  name : String
  deriving DecidableEq, Repr

mutual

def decoratorRanges : Declaration → Except UnknownKind (List DecoratorRange)
  | ⟨kind, _, members, decorators⟩ =>
    match kind.role with
    | .container => membersRanges members
    | .decorated => .ok (decorators.getD [])
    | .unknown => .error ⟨kind.name⟩

def membersRanges : Option (List Declaration) → Except UnknownKind (List DecoratorRange)
  | none => .ok []
  | some members => allRanges members

def allRanges : List Declaration → Except UnknownKind (List DecoratorRange)
  | [] => .ok []
  | member :: rest => do
    let found ← decoratorRanges member
    let others ← allRanges rest
    return found ++ others

end

end DecoratorVeil.Declaration
