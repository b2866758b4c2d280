import DecoratorVeil.Proofs.Syntax.Containment
import DecoratorVeil.SourceReader

/-!
# How siblings become members

A sibling either waits for the next member or is one.  A member may be wrapped: an export, an
ambient declaration or an expression stands for the node inside it, and exports pass their
decorators on.  What a member becomes depends on the core of these wrappings alone.  The equations
here take the place of the definitions of the conversion in all later arguments.
-/

namespace DecoratorVeil

theorem bind_eq_ok_iff {ε α β : Type} {x : Except ε α} {f : α → Except ε β} {b : β} :
    x >>= f = .ok b ↔ ∃ a, x = .ok a ∧ f a = .ok b := by
  cases x <;> simp [bind, Except.bind]

theorem bind_eq_error_iff {ε α β : Type} {x : Except ε α} {f : α → Except ε β} {e : ε} :
    x >>= f = .error e ↔ x = .error e ∨ ∃ a, x = .ok a ∧ f a = .error e := by
  cases x <;> simp [bind, Except.bind]

theorem map_eq_ok_iff {ε α β : Type} {x : Except ε α} {f : α → β} {b : β} :
    f <$> x = .ok b ↔ ∃ a, x = .ok a ∧ f a = b := by
  cases x <;> simp [Functor.map, Except.map]

theorem map_eq_error_iff {ε α β : Type} {x : Except ε α} {f : α → β} {e : ε} :
    f <$> x = .error e ↔ x = .error e := by
  cases x <;> simp [Functor.map, Except.map]

theorem exists_eq_ok {ε α : Type} {x : Except ε α} (h : x.toOption.isSome = true) :
    ∃ a, x = .ok a := by
  cases x with
  | ok a => exact ⟨a, rfl⟩
  | error e => cases h

namespace Syntax.Node
open Declaration

/-- Whether a sibling goes with the next member: a decorator, a comment, or an error node that holds
decorators. -/
def waits (node : Node) : Bool :=
  node.kind == "decorator" || node.strayDecorators?.isSome || node.isComment

/-- The decorators that a waiting sibling brings along. -/
def held (node : Node) : List Node :=
  if node.kind == "decorator" then [node] else node.strayDecorators?.getD []

def isWrapper (node : Node) : Bool :=
  match NodeRole.ofKind node.kind with
  | .exported | .ambient | .expression => true
  | _ => false

/-- The node that a wrapper stands for. -/
def inner? (node : Node) : Option Node :=
  match NodeRole.ofKind node.kind with
  | .exported => node.child? "declaration"
  | .ambient => node.namedChildren.find? isDeclaring
  | .expression =>
    match node.namedChildren with
    | [inner] => if inner.kind == "internal_module" then some inner else none
    | _ => none
  | _ => none

/-- The decorators that a wrapper passes on: only exports do. -/
def passedOn (node : Node) : List Node :=
  match NodeRole.ofKind node.kind with
  | .exported => node.decorators
  | _ => []

theorem mem_children_of_inner? {node inner : Node} (h : node.inner? = some inner) :
    inner ∈ node.children := by
  unfold inner? at h
  split at h
  · exact mem_children_of_child? h
  · exact mem_children_of_mem_namedChildren (List.mem_of_find?_eq_some h)
  · split at h
    · rename_i honly
      split_ifs at h
      cases h
      exact mem_children_of_mem_namedChildren (honly ▸ List.mem_singleton_self inner)
    · cases h
  · cases h

/-- The node inside all wrappings, with the decorators that exports pass on to it, from the
outermost export inward. -/
def unwrap (node : Node) : Option (List Node × Node) :=
  if node.isWrapper then
    match h : node.inner? with
    | none => none
    | some inner =>
      have := sizeOf_lt_of_mem_children (mem_children_of_inner? h)
      inner.unwrap.map fun (exports, core) => (node.passedOn ++ exports, core)
  else some ([], node)
termination_by sizeOf node

def body (node : Node) : List Node :=
  ((node.child? "body").map namedChildren).getD []

theorem unwrap_of_not_wrapper {node : Node} (h : node.isWrapper = false) :
    node.unwrap = some ([], node) := by
  rw [unwrap, if_neg (by simp [h])]

theorem unwrap_of_inner?_eq_none {node : Node} (h : node.isWrapper = true)
    (hinner : node.inner? = none) : node.unwrap = none := by
  rw [unwrap, if_pos h]
  split
  · rfl
  · simp_all

theorem unwrap_of_inner?_eq_some {node inner : Node} (h : node.isWrapper = true)
    (hinner : node.inner? = some inner) :
    node.unwrap = inner.unwrap.map fun (exports, core) => (node.passedOn ++ exports, core) := by
  rw [unwrap, if_pos h]
  split
  · simp_all
  · rename_i found hfound
    rw [hinner, Option.some.injEq] at hfound
    rw [hfound]

/-- Follows the wrappings of a node down to its core. -/
@[elab_as_elim]
theorem unwrap_induction {motive : Node → Prop}
    (single : ∀ node, node.isWrapper = false → motive node)
    (empty : ∀ node, node.isWrapper = true → node.inner? = none → motive node)
    (wrapper : ∀ node inner, node.isWrapper = true → node.inner? = some inner → motive inner →
      motive node) (node : Node) : motive node := by
  cases hw : node.isWrapper with
  | false => exact single node hw
  | true =>
    cases hinner : node.inner? with
    | none => exact empty node hw hinner
    | some inner =>
      have := sizeOf_lt_of_mem_children (mem_children_of_inner? hinner)
      exact wrapper node inner hw hinner (unwrap_induction single empty wrapper inner)
termination_by sizeOf node

/-- A core lies in the tree of its wrapping, and is none itself. -/
theorem unwrap_eq_some {node core : Node} {exports : List Node}
    (h : node.unwrap = some (exports, core)) : node.Contains core ∧ core.isWrapper = false := by
  induction node using unwrap_induction generalizing exports with
  | single node hw =>
    rw [unwrap_of_not_wrapper hw] at h
    cases h
    exact ⟨.refl core, hw⟩
  | empty node hw hinner =>
    rw [unwrap_of_inner?_eq_none hw hinner] at h
    cases h
  | wrapper node inner hw hinner ih =>
    rw [unwrap_of_inner?_eq_some hw hinner] at h
    obtain ⟨⟨exports, core⟩, hcore, heq⟩ := Option.map_eq_some_iff.1 h
    cases heq
    exact ⟨.of_child (mem_children_of_inner? hinner) (ih hcore).1, (ih hcore).2⟩

theorem sizeOf_body_lt (node : Node) : sizeOf node.body < sizeOf node := by
  unfold body
  cases hbody : node.child? "body" with
  | none =>
    cases node
    simp
    omega
  | some inner =>
    exact Nat.lt_trans (sizeOf_namedChildren_lt inner) (sizeOf_child?_lt hbody)

theorem sizeOf_body_lt_of_unwrap {node core : Node} {exports : List Node}
    (h : node.unwrap = some (exports, core)) : sizeOf core.body < sizeOf node :=
  Nat.lt_of_lt_of_le (sizeOf_body_lt core) (unwrap_eq_some h).1.sizeOf_le

/-- Goes through siblings and through the bodies of the containers among them. -/
@[elab_as_elim]
theorem siblings_induction {motive : List Node → Prop} (nil : motive [])
    (cons : ∀ node rest,
      (∀ exports core, node.unwrap = some (exports, core) → motive core.body) → motive rest →
        motive (node :: rest)) (siblings : List Node) : motive siblings := by
  match siblings with
  | [] => exact nil
  | node :: rest =>
    refine cons node rest (fun exports core h => ?_) (siblings_induction nil cons rest)
    have := sizeOf_body_lt_of_unwrap h
    exact siblings_induction nil cons core.body
termination_by sizeOf siblings

end Syntax.Node

namespace Declaration
open Syntax

variable {source : SourceText} {pending decorators : List Node} {node : Node}

@[simp] theorem membersFrom_nil : membersFrom source pending [] = .ok [] := by
  rw [membersFrom]

theorem membersFrom_cons_of_waits {rest : List Node} (h : node.waits = true) :
    membersFrom source pending (node :: rest) =
      membersFrom source (pending ++ node.held) rest := by
  rw [membersFrom]
  by_cases hdecorator : node.kind == "decorator"
  · simp [hdecorator, Node.held]
  · cases hstray : node.strayDecorators? with
    | some stray => simp [hdecorator, hstray, Node.held]
    | none =>
      have hcomment : node.isComment = true := by simpa [Node.waits, hdecorator, hstray] using h
      simp [hdecorator, hstray, hcomment, Node.held]

theorem membersFrom_cons_of_not_waits {rest : List Node} (h : node.waits = false) :
    membersFrom source pending (node :: rest) = do
      let converted ← ofNode source pending node
      let others ← membersFrom source [] rest
      return converted.toList ++ others := by
  obtain ⟨⟨hdecorator, hstray⟩, hcomment⟩ :
      ((node.kind == "decorator") = false ∧ node.strayDecorators? = none) ∧
        node.isComment = false := by
    simpa [Node.waits] using h
  rw [membersFrom]
  simp [hdecorator, hstray, hcomment]

theorem containerKind?_of_ofKind {kind : String} {declared : DeclarationKind}
    (h : NodeRole.ofKind kind = .container declared) : containerKind? kind = some declared := by
  unfold NodeRole.ofKind at h
  iterate 3
    split at h
    · cases h
  split at h
  · rename_i hkind
    cases h
    exact hkind
  · cases h
  · split at h <;> cases h

theorem decoratedKind?_of_ofKind {kind : String} {declared : DeclarationKind}
    (h : NodeRole.ofKind kind = .decorated declared) : decoratedKind? kind = some declared := by
  unfold NodeRole.ofKind at h
  iterate 3
    split at h
    · cases h
  split at h
  · cases h
  · rename_i hkind
    cases h
    exact hkind
  · split at h <;> cases h

theorem ofNode_of_inner?_eq_none (h : node.isWrapper = true) (hinner : node.inner? = none) :
    ofNode source decorators node = .ok none := by
  rw [ofNode]
  unfold Node.isWrapper at h
  unfold Node.inner? at hinner
  cases hrole : NodeRole.ofKind node.kind <;> simp only [hrole] at h hinner ⊢
  case exported => split <;> simp_all
  case ambient => split <;> simp_all
  case expression => split <;> simp_all
  all_goals cases h

theorem ofNode_of_inner?_eq_some {inner : Node} (h : node.isWrapper = true)
    (hinner : node.inner? = some inner) :
    ofNode source decorators node = ofNode source (decorators ++ node.passedOn) inner := by
  rw [ofNode]
  unfold Node.isWrapper at h
  unfold Node.inner? at hinner
  unfold Node.passedOn
  cases hrole : NodeRole.ofKind node.kind <;> simp only [hrole] at h hinner ⊢
  case exported => split <;> simp_all
  case ambient => split <;> simp_all
  case expression =>
    split
    · rename_i only honly
      simp only [honly] at hinner
      split_ifs at hinner with hkind
      cases hinner
      simp [hkind]
    · simp_all
  all_goals cases h

/-- A node is converted like its core, which takes the decorators that exports pass on. -/
theorem ofNode_of_unwrap {core : Node} {exports : List Node}
    (h : node.unwrap = some (exports, core)) :
    ofNode source decorators node = ofNode source (decorators ++ exports) core := by
  induction node using Node.unwrap_induction generalizing decorators exports with
  | single node hw =>
    rw [Node.unwrap_of_not_wrapper hw] at h
    cases h
    rw [List.append_nil]
  | empty node hw hinner =>
    rw [Node.unwrap_of_inner?_eq_none hw hinner] at h
    cases h
  | wrapper node inner hw hinner ih =>
    rw [Node.unwrap_of_inner?_eq_some hw hinner] at h
    obtain ⟨⟨exports, core⟩, hcore, heq⟩ := Option.map_eq_some_iff.1 h
    cases heq
    rw [ofNode_of_inner?_eq_some hw hinner, ih hcore, List.append_assoc]

theorem ofNode_of_unwrap_eq_none (h : node.unwrap = none) :
    ofNode source decorators node = .ok none := by
  induction node using Node.unwrap_induction generalizing decorators with
  | single node hw =>
    rw [Node.unwrap_of_not_wrapper hw] at h
    cases h
  | empty node hw hinner => exact ofNode_of_inner?_eq_none hw hinner
  | wrapper node inner hw hinner ih =>
    rw [Node.unwrap_of_inner?_eq_some hw hinner, Option.map_eq_none_iff] at h
    rw [ofNode_of_inner?_eq_some hw hinner, ih h]

theorem ofNode_container {kind : DeclarationKind}
    (h : NodeRole.ofKind node.kind = .container kind) :
    ofNode source decorators node = do
      let name ← nameOf source node
      let members ← membersFrom source [] node.body
      return some (.container kind name members) := by
  rw [ofNode]
  simp only [h]
  unfold Node.body
  congr 1
  funext name
  split
  · rename_i hbody
    simp only [hbody, Option.map_none, Option.getD_none, membersFrom_nil]
    rfl
  · rename_i body hbody
    simp only [hbody, Option.map_some, Option.getD_some]

theorem ofNode_decorated {kind : DeclarationKind}
    (h : NodeRole.ofKind node.kind = .decorated kind) :
    ofNode source decorators node = do
      let ranges ← (decorators ++ node.decorators).mapM (rangeOf source)
      let name ← nameOf source node
      return some (.decorated kind name ranges) := by
  rw [ofNode]
  simp only [h]

theorem ofNode_skipped (h : NodeRole.ofKind node.kind = .skipped) :
    ofNode source decorators node = .ok none := by
  rw [ofNode]
  simp only [h]

theorem ofNode_unknown (h : NodeRole.ofKind node.kind = .unknown) :
    ofNode source decorators node = .error (.unknownNode node.kind node.start) := by
  rw [ofNode]
  simp only [h]

/-- What a node may become: nothing, a container with the members of its body, or a declaration with
the decorators in front of it, of the exports around it and of its own. -/
inductive Converts (source : SourceText) (decorators : List Node) (node : Node) :
    Option Declaration → Prop
  | empty (hcore : node.unwrap = none) : Converts source decorators node none
  | skipped {exports : List Node} {core : Node} (hcore : node.unwrap = some (exports, core))
      (hrole : NodeRole.ofKind core.kind = .skipped) : Converts source decorators node none
  | container {exports : List Node} {core : Node} {kind : DeclarationKind} {name : Option String}
      {members : List Declaration} (hcore : node.unwrap = some (exports, core))
      (hrole : NodeRole.ofKind core.kind = .container kind) (hname : nameOf source core = .ok name)
      (hmembers : membersFrom source [] core.body = .ok members) :
      Converts source decorators node (some (.container kind name members))
  | decorated {exports : List Node} {core : Node} {kind : DeclarationKind} {name : Option String}
      {ranges : List DecoratorRange} (hcore : node.unwrap = some (exports, core))
      (hrole : NodeRole.ofKind core.kind = .decorated kind) (hname : nameOf source core = .ok name)
      (hranges : (decorators ++ exports ++ core.decorators).mapM (rangeOf source) = .ok ranges) :
      Converts source decorators node (some (.decorated kind name ranges))

theorem converts_of_ofNode {converted : Option Declaration}
    (h : ofNode source decorators node = .ok converted) :
    Converts source decorators node converted := by
  cases hcore : node.unwrap with
  | none =>
    rw [ofNode_of_unwrap_eq_none hcore] at h
    cases h
    exact .empty hcore
  | some unwrapped =>
    obtain ⟨exports, core⟩ := unwrapped
    have hsingle := (Node.unwrap_eq_some hcore).2
    rw [ofNode_of_unwrap hcore] at h
    cases hrole : NodeRole.ofKind core.kind with
    | container kind =>
      rw [ofNode_container hrole] at h
      obtain ⟨name, hname, h⟩ := bind_eq_ok_iff.1 h
      obtain ⟨members, hmembers, h⟩ := bind_eq_ok_iff.1 h
      cases h
      exact .container hcore hrole hname hmembers
    | decorated kind =>
      rw [ofNode_decorated hrole] at h
      obtain ⟨ranges, hranges, h⟩ := bind_eq_ok_iff.1 h
      obtain ⟨name, hname, h⟩ := bind_eq_ok_iff.1 h
      cases h
      exact .decorated hcore hrole hname hranges
    | skipped =>
      rw [ofNode_skipped hrole] at h
      cases h
      exact .skipped hcore hrole
    | unknown =>
      rw [ofNode_unknown hrole] at h
      cases h
    | exported | ambient | expression => simp [Node.isWrapper, hrole] at hsingle

end Declaration

def Declaration.ConversionError.failure : Declaration.ConversionError → Failure
  | .unknownNode kind _ => .shape kind
  | .undecodable => .undecodable

/-- How reading a text by its syntax tree ends. -/
theorem SourceReader.outcome_declarations (root : Syntax.Node) (code fileName : String) :
    (declarations root code fileName).outcome =
      if root.readable then
        (Declaration.ofRoot (.ofString code) root).mapError Declaration.ConversionError.failure
      else .error (.dialect (fileName ++ ": syntax errors in typescript source")) := by
  unfold declarations
  split
  · split <;> rename_i hroot <;> rw [hroot] <;> rfl
  · rfl

theorem SourceReader.declarations_eq_ok_iff {root : Syntax.Node} {code fileName : String}
    {tree : Declaration} :
    (declarations root code fileName).outcome = .ok tree ↔
      root.readable = true ∧ Declaration.ofRoot (.ofString code) root = .ok tree := by
  rw [outcome_declarations]
  split_ifs with hreadable
  · cases Declaration.ofRoot (.ofString code) root <;> simp [Except.mapError, hreadable]
  · simp [hreadable]

/-- Reading by a syntax tree fails for an unusable tree or for an error of the conversion. -/
theorem SourceReader.declarations_eq_error_iff {root : Syntax.Node} {code fileName : String}
    {failure : Failure} :
    (declarations root code fileName).outcome = .error failure ↔
      root.readable = false ∧
        failure = .dialect (fileName ++ ": syntax errors in typescript source") ∨
      root.readable = true ∧ ∃ error, Declaration.ofRoot (.ofString code) root = .error error ∧
        failure = error.failure := by
  rw [outcome_declarations]
  split_ifs with hreadable
  · cases Declaration.ofRoot (.ofString code) root <;>
      simp [Except.mapError, hreadable, eq_comm]
  · simp [hreadable, eq_comm]

end DecoratorVeil
