import DecoratorVeil.Syntax.Node

/-!
# Recovering from errors

Decorators in front of a bare function or enumeration have no rule of their own and arrive in an
error node beside the declaration.  Such a node is harmless where member lists are read; every other
error makes the tree unusable.
-/

namespace DecoratorVeil.Syntax

def memberListKinds : List String := ["program", "statement_block", "class_body"]

namespace Node

/-- Whether a node may stand beside decorators in a harmless error node, or is one of them. -/
def isStrayPart (node : Node) : Bool :=
  (node.kind == "decorator" && !node.hasError) || node.isComment

/-- The decorators of an error node that holds nothing else but comments. -/
def strayDecorators? (node : Node) : Option (List Node) :=
  if node.kind == errorKind && node.namedChildren.all isStrayPart then
    match node.namedChildren.filter (·.kind == "decorator") with
    | [] => none
    | found => some found
  else none

/-- Whether an error at or below a node rules the tree out, given the kind of the node's parent.
Only flagged children are looked at. -/
def unrecoverable (parent : Option String) (node : Node) : Bool :=
  if node.missing then true
  else if node.kind == errorKind then
    !(parent.any memberListKinds.contains) || node.strayDecorators?.isNone
  else node.children.attach.any fun ⟨child, _⟩ =>
    child.hasError && child.unrecoverable (some node.kind)
termination_by sizeOf node
decreasing_by exact sizeOf_lt_of_mem_children (by assumption)

def readable (root : Node) : Bool :=
  !(root.hasError && root.unrecoverable none)

end Node

end DecoratorVeil.Syntax
