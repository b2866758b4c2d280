import DecoratorVeil.Proofs.Declaration.Conversion
import DecoratorVeil.Proofs.Syntax.Recovery

/-!
# The nodes that the conversion comes to

The conversion reads lists of members, converts what does not wait, follows wrappings and looks for
bodies, names and decorators among the children of a node.  In a tree without a fatal error it meets
no error node on any of these ways; those in a list of members wait and give up their decorators.
-/

namespace DecoratorVeil

namespace Declaration
open Syntax Syntax.Node

/-- What the conversion does with a node: it reads the named children as members, it converts the
node, or it looks at the node as a part of one that it converts. -/
inductive Visit where
  | list
  | member
  | part
  deriving DecidableEq, Repr

/-- The ways of the conversion through a tree. -/
inductive Reached (root : Node) : Visit → Node → Prop
  | root : Reached root .list root
  | member {parent child : Node} (hparent : Reached root .list parent)
      (hchild : child ∈ parent.namedChildren) (hwaits : child.waits = false) :
      Reached root .member child
  | inner {node inner : Node} (hnode : Reached root .member node)
      (hinner : node.inner? = some inner) : Reached root .member inner
  | body {node body : Node} {kind : DeclarationKind} (hnode : Reached root .member node)
      (hrole : NodeRole.ofKind node.kind = .container kind)
      (hbody : node.child? "body" = some body) : Reached root .list body
  | part {node child : Node} (hnode : Reached root .member node)
      (hrole : node.isWrapper = true ∨ isDeclaring node = true) (hchild : child ∈ node.children) :
      Reached root .part child

variable {root node : Node} {source : SourceText} {pending decorators : List Node}

theorem Reached.core {exports : List Node} {core : Node} (h : Reached root .member node)
    (hcore : node.unwrap = some (exports, core)) : Reached root .member core := by
  induction node using unwrap_induction generalizing exports with
  | single node hw =>
    rw [unwrap_of_not_wrapper hw] at hcore
    cases hcore
    exact h
  | empty node hw hinner =>
    rw [unwrap_of_inner?_eq_none hw hinner] at hcore
    cases hcore
  | wrapper node inner hw hinner ih =>
    rw [unwrap_of_inner?_eq_some hw hinner] at hcore
    obtain ⟨⟨exports, core⟩, hcore, heq⟩ := Option.map_eq_some_iff.1 hcore
    cases heq
    exact ih (.inner h hinner) hcore

section UnknownNodes

variable {kind : String} {start : Nat}

theorem charOffset_ne_unknownNode (offset : Nat) :
    charOffset source offset ≠ .error (.unknownNode kind start) := by
  unfold charOffset
  split_ifs
  · simp
  · split <;> simp

theorem rangeOf_ne_unknownNode (node : Node) :
    rangeOf source node ≠ .error (.unknownNode kind start) := by
  intro h
  obtain h | ⟨first, -, h⟩ := bind_eq_error_iff.1 h
  · exact charOffset_ne_unknownNode _ h
  · obtain h | ⟨last, -, h⟩ := bind_eq_error_iff.1 h
    · exact charOffset_ne_unknownNode _ h
    · cases h

theorem mapM_rangeOf_ne_unknownNode (nodes : List Node) :
    nodes.mapM (rangeOf source) ≠ .error (.unknownNode kind start) := by
  induction nodes with
  | nil =>
    rw [List.mapM_nil]
    intro h
    cases h
  | cons node nodes ih =>
    rw [List.mapM_cons]
    intro h
    obtain h | ⟨range, -, h⟩ := bind_eq_error_iff.1 h
    · exact rangeOf_ne_unknownNode node h
    · obtain h | ⟨ranges, -, h⟩ := bind_eq_error_iff.1 h
      · exact ih h
      · cases h

theorem nameOf_ne_unknownNode (node : Node) :
    nameOf source node ≠ .error (.unknownNode kind start) := by
  unfold nameOf
  split
  · simp
  · split_ifs
    · split <;> simp
    · simp

/-- A node fails for an unknown node that is its core or lies in the body of its core. -/
theorem ofNode_eq_unknownNode
    (h : ofNode source decorators node = .error (.unknownNode kind start)) :
    ∃ exports core, node.unwrap = some (exports, core) ∧
      (core.kind = kind ∧ core.start = start ∨
        (∃ declared, NodeRole.ofKind core.kind = .container declared) ∧
          membersFrom source [] core.body = .error (.unknownNode kind start)) := by
  cases hcore : node.unwrap with
  | none =>
    rw [ofNode_of_unwrap_eq_none hcore] at h
    cases h
  | some unwrapped =>
    obtain ⟨exports, core⟩ := unwrapped
    refine ⟨exports, core, rfl, ?_⟩
    have hsingle := (unwrap_eq_some hcore).2
    rw [ofNode_of_unwrap hcore] at h
    cases hrole : NodeRole.ofKind core.kind with
    | container declared =>
      rw [ofNode_container hrole] at h
      obtain h | ⟨name, -, h⟩ := bind_eq_error_iff.1 h
      · exact absurd h (nameOf_ne_unknownNode core)
      · obtain h | ⟨members, -, h⟩ := bind_eq_error_iff.1 h
        · exact .inr ⟨⟨declared, rfl⟩, h⟩
        · cases h
    | decorated declared =>
      rw [ofNode_decorated hrole] at h
      obtain h | ⟨ranges, -, h⟩ := bind_eq_error_iff.1 h
      · exact absurd h (mapM_rangeOf_ne_unknownNode _)
      · obtain h | ⟨name, -, h⟩ := bind_eq_error_iff.1 h
        · exact absurd h (nameOf_ne_unknownNode core)
        · cases h
    | skipped =>
      rw [ofNode_skipped hrole] at h
      cases h
    | unknown =>
      rw [ofNode_unknown hrole] at h
      cases h
      exact .inl ⟨rfl, rfl⟩
    | exported | ambient | expression => simp [isWrapper, hrole] at hsingle

/-- The unknown node that a list of members fails for is one that is converted. -/
theorem exists_reached_of_membersFrom {siblings : List Node}
    (hsiblings : ∀ child ∈ siblings, child.waits = false → Reached root .member child)
    (h : membersFrom source pending siblings = .error (.unknownNode kind start)) :
    ∃ node, Reached root .member node ∧ node.kind = kind ∧ node.start = start := by
  induction siblings using siblings_induction generalizing pending with
  | nil =>
    rw [membersFrom_nil] at h
    cases h
  | cons node rest ihbody ihrest =>
    have hrest : ∀ child ∈ rest, child.waits = false → Reached root .member child :=
      fun child hc => hsiblings child (List.mem_cons_of_mem _ hc)
    cases hw : node.waits with
    | true =>
      rw [membersFrom_cons_of_waits hw] at h
      exact ihrest hrest h
    | false =>
      rw [membersFrom_cons_of_not_waits hw] at h
      obtain h | ⟨converted, -, h⟩ := bind_eq_error_iff.1 h
      · obtain ⟨exports, core, hcore, hown | ⟨⟨declared, hrole⟩, hbody⟩⟩ := ofNode_eq_unknownNode h
        · exact ⟨core, (hsiblings node List.mem_cons_self hw).core hcore, hown⟩
        · refine ihbody exports core hcore ?_ hbody
          intro child hchild hwaits
          have hreached := (hsiblings node List.mem_cons_self hw).core hcore
          cases hinside : core.child? "body" with
          | none => simp [Node.body, hinside] at hchild
          | some inside =>
            rw [Node.body, hinside, Option.map_some, Option.getD_some] at hchild
            exact .member (.body hreached hrole hinside) hchild hwaits
      · obtain h | ⟨others, -, h⟩ := bind_eq_error_iff.1 h
        · exact ihrest hrest h
        · cases h

theorem exists_reached_of_ofRoot
    (h : ofRoot source root = .error (.unknownNode kind start)) :
    ∃ node, Reached root .member node ∧ node.kind = kind ∧ node.start = start := by
  obtain h | ⟨members, -, h⟩ := bind_eq_error_iff.1 h
  · exact exists_reached_of_membersFrom (fun _ hc hw => .member .root hc hw) h
  · cases h

end UnknownNodes

section ErrorNodes

/-- No list of members is a wrapper or declares anything. -/
theorem not_mem_memberListKinds (h : node.isWrapper = true ∨ isDeclaring node = true) :
    node.kind ∉ memberListKinds := by
  intro hmem
  have hkinds : node.kind = "program" ∨ node.kind = "statement_block" ∨
      node.kind = "class_body" := by
    simpa [memberListKinds] using hmem
  rw [isWrapper, isDeclaring] at h
  rcases hkinds with hkind | hkind | hkind <;> rw [hkind] at h <;> revert h <;> decide

theorem isWrapper_of_inner? {inner : Node} (h : node.inner? = some inner) :
    node.isWrapper = true := by
  unfold inner? at h
  unfold isWrapper
  split at h <;> simp_all

theorem isDeclaring_of_container {kind : DeclarationKind}
    (h : NodeRole.ofKind node.kind = .container kind) : isDeclaring node = true := by
  simp [isDeclaring, containerKind?_of_ofKind h]

variable {above : Option String} {parent child : Node} {visit : Visit}
  (hsafe : ∀ above node, Exposed root above node → ¬ Fatal above node)
include hsafe

/-- Outside of lists of members there are no error nodes. -/
theorem kind_ne_error_of_part (hparent : Exposed root above parent)
    (hkind : parent.kind ≠ errorKind)
    (hrole : parent.isWrapper = true ∨ isDeclaring parent = true)
    (hchild : child ∈ parent.children) : child.kind ≠ errorKind := by
  intro herror
  refine hsafe _ child (.child hparent hkind hchild) (.inr ⟨herror, .inr (.inl ?_)⟩)
  exact ⟨parent.kind, rfl, not_mem_memberListKinds hrole⟩

/-- In a list of members there are none but those that hold stray decorators. -/
theorem holdsStray_of_error (hparent : Exposed root above parent)
    (hkind : parent.kind ≠ errorKind) (hchild : child ∈ parent.children)
    (herror : child.kind = errorKind) : child.HoldsStray := by
  by_contra hstray
  exact hsafe _ child (.child hparent hkind hchild) (.inr ⟨herror, .inr (.inr hstray)⟩)

/-- The conversion stays outside of error nodes. -/
theorem Reached.exposed (h : Reached root visit node) :
    node.kind ≠ errorKind ∧ ∃ above, Exposed root above node := by
  induction h with
  | root =>
    refine ⟨fun herror => ?_, none, .root⟩
    exact hsafe none root .root (.inr ⟨herror, .inl rfl⟩)
  | @member parent child _ hchild hwaits ih =>
    obtain ⟨hkind, above, hparent⟩ := ih
    have hmem := mem_children_of_mem_namedChildren hchild
    refine ⟨fun herror => ?_, _, .child hparent hkind hmem⟩
    have hstray := (strayDecorators?_isSome_iff herror).2
      (holdsStray_of_error hsafe hparent hkind hmem herror)
    simp [waits, hstray] at hwaits
  | inner _ hinner ih =>
    obtain ⟨hkind, above, hnode⟩ := ih
    have hmem := mem_children_of_inner? hinner
    exact ⟨kind_ne_error_of_part hsafe hnode hkind (.inl (isWrapper_of_inner? hinner)) hmem, _,
      .child hnode hkind hmem⟩
  | body _ hrole hbody ih =>
    obtain ⟨hkind, above, hnode⟩ := ih
    have hmem := mem_children_of_child? hbody
    exact ⟨kind_ne_error_of_part hsafe hnode hkind (.inr (isDeclaring_of_container hrole)) hmem, _,
      .child hnode hkind hmem⟩
  | part _ hrole hchild ih =>
    obtain ⟨hkind, above, hnode⟩ := ih
    exact ⟨kind_ne_error_of_part hsafe hnode hkind hrole hchild, _, .child hnode hkind hchild⟩

end ErrorNodes

/-- An error node with stray decorators only adds them to those that wait. -/
theorem membersFrom_cons_of_holdsStray {rest : List Node} (herror : node.kind = errorKind)
    (h : node.HoldsStray) :
    membersFrom source pending (node :: rest) =
      membersFrom source (pending ++ node.namedChildren.filter (·.kind == "decorator")) rest := by
  have hsome := (strayDecorators?_isSome_iff herror).2 h
  have hkind : (node.kind == "decorator") = false := by
    rw [herror]
    decide
  obtain ⟨stray, hstray⟩ := Option.isSome_iff_exists.1 hsome
  obtain ⟨-, -, -, rfl⟩ := strayDecorators?_eq_some hstray
  rw [membersFrom_cons_of_waits (by simp [waits, hsome]), held, hkind, hstray]
  rfl

end Declaration

namespace SourceReader
open Syntax Syntax.Node Declaration

/-- A text is refused as one of another language exactly if its tree is unusable. -/
theorem exists_dialect_iff (root : Node) (code fileName : String) :
    (∃ message, (declarations root code fileName).outcome = .error (.dialect message)) ↔
      root.readable = false := by
  constructor
  · rintro ⟨message, h⟩
    obtain ⟨hreadable, -⟩ | ⟨-, error, -, herror⟩ := declarations_eq_error_iff.1 h
    · exact hreadable
    · cases error <;> cases herror
  · intro h
    exact ⟨_, declarations_eq_error_iff.2 (.inl ⟨h, rfl⟩)⟩

/-- The search for errors and the conversion agree: a text is refused exactly if its tree has a
fatal node, and otherwise the conversion comes to no error node but to take its decorators. -/
theorem refused_iff_fatal {root : Node} (hroot : root.FlagsConsistent) (code fileName : String) :
    ((∃ message, (declarations root code fileName).outcome = .error (.dialect message)) ↔
      ∃ above node, Exposed root above node ∧ Fatal above node) ∧
    ((∀ message, (declarations root code fileName).outcome ≠ .error (.dialect message)) →
      (∀ visit node, Reached root visit node → node.kind ≠ errorKind) ∧
      (∀ parent child, Reached root .list parent → child ∈ parent.namedChildren →
        child.kind = errorKind → child.HoldsStray ∧
          ∀ source pending rest, membersFrom source pending (child :: rest) =
            membersFrom source (pending ++ child.namedChildren.filter (·.kind == "decorator"))
              rest) ∧
      (declarations root code fileName).outcome ≠ .error (.shape errorKind)) := by
  have hiff := (exists_dialect_iff root code fileName).trans (readable_eq_false_iff hroot)
  refine ⟨hiff, fun hread => ?_⟩
  have hsafe : ∀ above node, Exposed root above node → ¬ Fatal above node := by
    intro above node hexposed hfatal
    obtain ⟨message, hmessage⟩ := hiff.2 ⟨above, node, hexposed, hfatal⟩
    exact hread message hmessage
  refine ⟨fun visit node hreached => (hreached.exposed hsafe).1, ?_, ?_⟩
  · intro parent child hparent hchild herror
    obtain ⟨hkind, above, hexposed⟩ := hparent.exposed hsafe
    have hstray := holdsStray_of_error hsafe hexposed hkind
      (mem_children_of_mem_namedChildren hchild) herror
    exact ⟨hstray, fun source pending rest => membersFrom_cons_of_holdsStray herror hstray⟩
  · intro hshape
    obtain ⟨-, hdialect⟩ | ⟨-, error, hofRoot, herror⟩ := declarations_eq_error_iff.1 hshape
    · cases hdialect
    · cases error with
      | undecodable => cases herror
      | unknownNode kind start =>
        cases herror
        obtain ⟨node, hreached, hkind, -⟩ := exists_reached_of_ofRoot hofRoot
        exact (hreached.exposed hsafe).1 hkind

/-- A declaration with a stray decorator at the start of its body. -/
def strayInBody (kind body member : String) : Node :=
  .branch "program" 0 28
    [.branch kind 0 28
      [(Node.branch body 12 28
        [.branch errorKind 14 16 [.branch "decorator" 14 16 []],
          .branch member 17 26 []]).withField "body"]]

def strayInNamespace : Node := strayInBody "internal_module" "statement_block" "enum_declaration"

def strayInInterface : Node :=
  strayInBody "interface_declaration" "interface_body" "method_signature"

/-- The body of a namespace may hold stray decorators, the body of an interface may not. -/
theorem refused_iff_fatal_stray_in_body :
    strayInNamespace.FlagsConsistent ∧ strayInInterface.FlagsConsistent ∧
    (∀ visit node, Reached strayInNamespace visit node → node.kind ≠ errorKind) ∧
    ∃ message, (declarations strayInInterface "interface I { @a m(): void }" "input.ts").outcome =
      .error (.dialect message) := by
  have hnamespace : strayInNamespace.FlagsConsistent := by decide +kernel
  have hinterface : strayInInterface.FlagsConsistent := by decide +kernel
  obtain ⟨tree, htree⟩ := exists_eq_ok (x := (declarations strayInNamespace
    "namespace N { @a enum E {} }" "input.ts").outcome) (by decide +kernel)
  have hread : ∀ message, (declarations strayInNamespace "namespace N { @a enum E {} }"
      "input.ts").outcome ≠ .error (.dialect message) := by
    simp [htree]
  have hreached := ((refused_iff_fatal hnamespace _ _).2 hread).1
  have hdeclaration := Exposed.child (@Exposed.root strayInInterface) (by decide)
    List.mem_cons_self
  have hbody := Exposed.child hdeclaration (by decide) List.mem_cons_self
  have herror := Exposed.child hbody (by decide) List.mem_cons_self
  have hrefused := (refused_iff_fatal hinterface "interface I { @a m(): void }" "input.ts").1.2
  exact ⟨hnamespace, hinterface, hreached,
    hrefused ⟨_, _, herror, .inr ⟨rfl, .inr (.inl ⟨_, rfl, by decide⟩)⟩⟩⟩

end SourceReader

end DecoratorVeil
