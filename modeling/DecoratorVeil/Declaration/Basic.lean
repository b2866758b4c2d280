/-!
# Declarations

A declaration tree: the source with its classes, interfaces, namespaces, enumerations, methods and
functions.  Containers have members; enumerations, methods and functions have decorators.  Trees may
be built freely, so a kind may also be a name that stands for nothing.
-/

namespace DecoratorVeil

inductive DeclarationKind where
  | source
  | classType
  | interfaceType
  | namespaceType
  | enumType
  | method
  | function
  /-- A name that is no kind of declaration. -/
  | other (name : String)
  deriving DecidableEq, Repr, Inhabited

namespace DeclarationKind

def name : DeclarationKind → String
  | .source => "source"
  | .classType => "class"
  | .interfaceType => "interface"
  | .namespaceType => "namespace"
  | .enumType => "enum"
  | .method => "method"
  | .function => "function"
  | .other name => name

def known : List DeclarationKind :=
  [.source, .classType, .interfaceType, .namespaceType, .enumType, .method, .function]

def ofName? (name : String) : Option DeclarationKind :=
  known.find? (·.name == name)

def ofName (name : String) : DeclarationKind :=
  (ofName? name).getD (.other name)

/-- What a declaration of the kind holds. -/
inductive Role where
  | container
  | decorated
  | unknown
  deriving DecidableEq, Repr

def role : DeclarationKind → Role
  | .source | .classType | .interfaceType | .namespaceType => .container
  | .enumType | .method | .function => .decorated
  | .other _ => .unknown

end DeclarationKind

structure DecoratorRange where
  start : Int
  stop : Int
  deriving DecidableEq, Repr

structure Declaration where
  kind : DeclarationKind
  name : Option String
  members : Option (List Declaration)
  decorators : Option (List DecoratorRange)
  deriving Inhabited

namespace Declaration

def container (kind : DeclarationKind) (name : Option String) (members : List Declaration) :
    Declaration :=
  ⟨kind, name, some members, none⟩

/-- A declaration with decorators; an empty list of them counts as none. -/
def decorated (kind : DeclarationKind) (name : Option String) (ranges : List DecoratorRange) :
    Declaration :=
  ⟨kind, name, none, if ranges.isEmpty then none else some ranges⟩

end Declaration

end DecoratorVeil
