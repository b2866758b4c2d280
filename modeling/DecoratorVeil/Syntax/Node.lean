/-!
# Syntax nodes

An error-tolerant syntax tree over the UTF-8 bytes of a source text.  A node records its kind, its
byte span, whether it is named, the field it fills in its parent, and whether it or anything below
it is an error.  Nothing here ties the spans to a text or the error flags to the children; the
predicates that do so are stated where they are needed.
-/

namespace DecoratorVeil.Syntax

structure Node where
  kind : String
  start : Nat
  stop : Nat
  named : Bool
  field : Option String
  missing : Bool
  hasText : Bool
  hasError : Bool
  children : List Node
  deriving Inhabited

/-- The kind of a node that wraps text the grammar has no rule for. -/
def errorKind : String := "ERROR"

namespace Node

/-- The error flag of a node that has none of its own: an error node, a missing node, or a node
with such a node below it. -/
def flagOf (kind : String) (missing : Bool) (children : List Node) : Bool :=
  kind == errorKind || missing || children.any (·.hasError)

def branch (kind : String) (start stop : Nat) (children : List Node) : Node where
  kind := kind
  start := start
  stop := stop
  named := true
  field := none
  missing := false
  hasText := true
  hasError := flagOf kind false children
  children := children

def withField (node : Node) (name : String) : Node :=
  { node with field := some name }

def namedChildren (node : Node) : List Node :=
  node.children.filter (·.named)

/-- The first child, named or not, that fills the field. -/
def child? (node : Node) (name : String) : Option Node :=
  node.children.find? (·.field == some name)

def decorators (node : Node) : List Node :=
  node.children.filter (·.kind == "decorator")

def isComment (node : Node) : Bool :=
  node.kind == "comment" || node.kind == "html_comment"

theorem sizeOf_lt_of_mem_children {node child : Node} (h : child ∈ node.children) :
    sizeOf child < sizeOf node := by
  have hs := List.sizeOf_lt_of_mem h
  cases node
  simp at hs ⊢
  omega

theorem mem_children_of_child? {node child : Node} {name : String}
    (h : node.child? name = some child) : child ∈ node.children :=
  List.mem_of_find?_eq_some h

theorem sizeOf_child?_lt {node child : Node} {name : String} (h : node.child? name = some child) :
    sizeOf child < sizeOf node :=
  sizeOf_lt_of_mem_children (mem_children_of_child? h)

theorem mem_children_of_mem_namedChildren {node child : Node} (h : child ∈ node.namedChildren) :
    child ∈ node.children :=
  (List.mem_filter.1 h).1

theorem sizeOf_children_lt (node : Node) : sizeOf node.children < sizeOf node := by
  cases node
  simp

end Node

end DecoratorVeil.Syntax
