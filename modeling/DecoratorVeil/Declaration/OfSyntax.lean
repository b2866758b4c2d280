import DecoratorVeil.Declaration.Basic
import DecoratorVeil.Syntax.Recovery
import DecoratorVeil.Text.Utf8

/-!
# Declarations of a syntax tree

A syntax tree over the bytes of a text becomes a declaration tree over its characters.  Decorators
that precede a member, as siblings or in an error node, wait until the next member takes or drops
them.
-/

namespace DecoratorVeil.Declaration
open DecoratorVeil.Syntax

structure SourceText where
  chars : List Char
  bytes : List UInt8

def SourceText.ofString (code : String) : SourceText :=
  ⟨code.toList, Text.Utf8.bytesOf code⟩

inductive ConversionError where
  /-- A node of a kind that has no rule, with its first byte. -/
  | unknownNode (kind : String) (start : Nat)
  /-- Bytes that are cut inside a character. -/
  | undecodable
  deriving DecidableEq, Repr

inductive NodeRole where
  /-- An export, which passes its decorators on to what it exports. -/
  | exported
  | ambient
  /-- An expression, which may turn out to be a namespace. -/
  | expression
  | container (kind : DeclarationKind)
  | decorated (kind : DeclarationKind)
  /-- A statement or member that carries no decorators of interest. -/
  | skipped
  | unknown
  deriving DecidableEq, Repr

def containerKind? (kind : String) : Option DeclarationKind :=
  match kind with
  | "class_declaration" => some .classType
  | "abstract_class_declaration" => some .classType
  | "interface_declaration" => some .interfaceType
  | "internal_module" => some .namespaceType
  | "module" => some .namespaceType
  | _ => none

def decoratedKind? (kind : String) : Option DeclarationKind :=
  match kind with
  | "enum_declaration" => some .enumType
  | "method_definition" => some .method
  | "method_signature" => some .method
  | "abstract_method_signature" => some .method
  | "function_declaration" => some .function
  | "generator_function_declaration" => some .function
  | "function_signature" => some .function
  | _ => none

/-- The statements and members that are passed over. -/
def skippedKinds : List String :=
  ["import_statement", "import_alias", "lexical_declaration", "variable_declaration",
    "type_alias_declaration", "statement_block", "if_statement", "switch_statement",
    "for_statement", "for_in_statement", "while_statement", "do_statement", "try_statement",
    "with_statement", "break_statement", "continue_statement", "return_statement",
    "throw_statement", "empty_statement", "labeled_statement", "debugger_statement",
    "hash_bang_line", "public_field_definition", "class_static_block", "index_signature",
    "property_signature", "call_signature", "construct_signature"]

def NodeRole.ofKind (kind : String) : NodeRole :=
  if kind == "export_statement" then .exported
  else if kind == "ambient_declaration" then .ambient
  else if kind == "expression_statement" then .expression
  else
    match containerKind? kind, decoratedKind? kind with
    | some k, _ => .container k
    | none, some k => .decorated k
    | none, none => if skippedKinds.contains kind then .skipped else .unknown

/-- Whether a node declares something by itself. -/
def isDeclaring (node : Node) : Bool :=
  (containerKind? node.kind).isSome || (decoratedKind? node.kind).isSome

/-- The number of characters before a byte offset.  In a text of single bytes the offset itself is
taken, even past the end. -/
def charOffset (source : SourceText) (offset : Nat) : Except ConversionError Nat :=
  if source.chars.length = source.bytes.length then .ok offset
  else
    match Text.Utf8.decode? (source.bytes.take offset) with
    | some chars => .ok chars.length
    | none => .error .undecodable

def rangeOf (source : SourceText) (node : Node) : Except ConversionError DecoratorRange := do
  let start ← charOffset source node.start
  let stop ← charOffset source node.stop
  return ⟨start, stop⟩

def bytesOf (source : SourceText) (node : Node) : List UInt8 :=
  (source.bytes.drop node.start).take (node.stop - node.start)

def nameOf (source : SourceText) (node : Node) : Except ConversionError (Option String) :=
  match node.child? "name" with
  | none => .ok none
  | some name =>
    if name.hasText then
      match Text.Utf8.decode? (bytesOf source name) with
      | some chars => .ok (some (String.ofList chars))
      | none => .error .undecodable
    else .ok none

theorem sizeOf_namedChildren_lt (node : Node) : sizeOf node.namedChildren < sizeOf node :=
  Nat.lt_of_le_of_lt (sizeOf_filter_le _ _) node.sizeOf_children_lt
where
  sizeOf_filter_le (keep : Node → Bool) (nodes : List Node) :
      sizeOf (nodes.filter keep) ≤ sizeOf nodes := by
    induction nodes with
    | nil => simp
    | cons node rest ih =>
      by_cases h : keep node = true <;> simp [h] <;> omega

mutual

/-- The declarations of a list of siblings, given the decorators that wait for the next member. -/
def membersFrom (source : SourceText) (pending : List Node) :
    List Node → Except ConversionError (List Declaration)
  | [] => .ok []
  | child :: rest =>
    if child.kind == "decorator" then membersFrom source (pending ++ [child]) rest
    else
      match child.strayDecorators? with
      | some stray => membersFrom source (pending ++ stray) rest
      | none =>
        if child.isComment then membersFrom source pending rest
        else do
          let converted ← ofNode source pending child
          let others ← membersFrom source [] rest
          return converted.toList ++ others
termination_by siblings => sizeOf siblings

def ofNode (source : SourceText) (decorators : List Node) (node : Node) :
    Except ConversionError (Option Declaration) :=
  match NodeRole.ofKind node.kind with
  | .exported =>
    match h : node.child? "declaration" with
    | none => .ok none
    | some declaration =>
      have := Node.sizeOf_child?_lt h
      ofNode source (decorators ++ node.decorators) declaration
  | .ambient =>
    match h : node.namedChildren.find? isDeclaring with
    | none => .ok none
    | some declaration =>
      have := Node.sizeOf_lt_of_mem_children
        (Node.mem_children_of_mem_namedChildren (List.mem_of_find?_eq_some h))
      ofNode source decorators declaration
  | .expression =>
    match h : node.namedChildren with
    | [inner] =>
      have := Node.sizeOf_lt_of_mem_children
        (Node.mem_children_of_mem_namedChildren (h ▸ List.mem_singleton_self inner))
      if inner.kind == "internal_module" then ofNode source decorators inner else .ok none
    | _ => .ok none
  | .container kind => do
    let name ← nameOf source node
    match h : node.child? "body" with
    | none => return some (.container kind name [])
    | some body =>
      have := Nat.lt_trans (sizeOf_namedChildren_lt body) (Node.sizeOf_child?_lt h)
      let members ← membersFrom source [] body.namedChildren
      return some (.container kind name members)
  | .decorated kind => do
    let ranges ← (decorators ++ node.decorators).mapM (rangeOf source)
    let name ← nameOf source node
    return some (.decorated kind name ranges)
  | .skipped => .ok none
  | .unknown => .error (.unknownNode node.kind node.start)
termination_by sizeOf node

end

def ofRoot (source : SourceText) (root : Node) : Except ConversionError Declaration := do
  let members ← membersFrom source [] root.namedChildren
  return .container .source none members

end DecoratorVeil.Declaration
