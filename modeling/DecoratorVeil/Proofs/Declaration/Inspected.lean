import DecoratorVeil.Proofs.Declaration.Reached

/-!
# Which nodes the conversion inspects

The conversion inspects the members of the root and of the bodies of containers, and from a wrapper
goes on to the node inside.  Each inspected node has a place, the numbers of the children on the way
to it.  The inspected nodes are listed here in the order of their places.
-/

namespace DecoratorVeil

namespace Syntax.Node
open Declaration

def firstChild? (node : Node) (test : Node → Bool) : Option (Nat × Node) :=
  (node.children.findIdx? test).bind fun index => node.children[index]?.map (index, ·)

/-- Where the conversion goes on from a node: from a wrapper to the node inside, from a container to
its body. -/
def onward? (node : Node) : Option (Visit × Nat × Node) :=
  if node.kind = "export_statement" then
    (node.firstChild? (·.field == some "declaration")).map (.member, ·)
  else if node.kind = "ambient_declaration" then
    (node.firstChild? fun child => child.named && isDeclaring child).map (.member, ·)
  else if node.kind = "expression_statement" then
    if node.namedChildren.length = 1 then
      (node.firstChild? fun child => child.named && child.kind == "internal_module").map
        (.member, ·)
    else none
  else if (containerKind? node.kind).isSome then
    (node.firstChild? (·.field == some "body")).map (.list, ·)
  else none

theorem firstChild?_eq_some_iff {node child : Node} {test : Node → Bool} {index : Nat} :
    node.firstChild? test = some (index, child) ↔
      node.children.findIdx? test = some index ∧ node.children[index]? = some child := by
  unfold firstChild?
  cases node.children.findIdx? test with
  | none => simp
  | some found =>
    simp only [Option.bind_some, Option.map_eq_some_iff, Prod.mk.injEq, Option.some.injEq]
    constructor
    · rintro ⟨_, hchild, rfl, rfl⟩
      exact ⟨rfl, hchild⟩
    · rintro ⟨rfl, hchild⟩
      exact ⟨child, hchild, rfl, rfl⟩

theorem map_snd_firstChild? (node : Node) (test : Node → Bool) :
    (node.firstChild? test).map Prod.snd = node.children.find? test := by
  rw [List.find?_eq_bind_findIdx?_getElem?, firstChild?]
  cases node.children.findIdx? test with
  | none => rfl
  | some index => cases h : node.children[index]? <;> simp [h]

theorem mem_children_of_firstChild? {node child : Node} {test : Node → Bool} {index : Nat}
    (h : node.firstChild? test = some (index, child)) : child ∈ node.children :=
  List.mem_of_getElem? (firstChild?_eq_some_iff.1 h).2

theorem find?_named (node : Node) (test : Node → Bool) :
    node.children.find? (fun child => child.named && test child) =
      node.namedChildren.find? test := by
  rw [namedChildren, List.find?_filter]
  simp only [Bool.decide_and, Bool.decide_eq_true]

/-- The three kinds of wrappers. -/
theorem wrapper_cases {node : Node} (h : node.isWrapper = true) :
    node.kind = "export_statement" ∨ node.kind = "ambient_declaration" ∨
      node.kind = "expression_statement" := by
  unfold isWrapper NodeRole.ofKind at h
  by_contra hnot
  push Not at hnot
  simp only [hnot, beq_iff_eq, if_false] at h
  cases hcontainer : containerKind? node.kind with
  | some kind => simp [hcontainer] at h
  | none =>
    cases hdecorated : decoratedKind? node.kind with
    | some kind => simp [hcontainer, hdecorated] at h
    | none => by_cases hskipped : node.kind ∈ skippedKinds <;> simp_all

theorem not_wrapper_kind {node : Node} (h : node.isWrapper = false) :
    node.kind ≠ "export_statement" ∧ node.kind ≠ "ambient_declaration" ∧
      node.kind ≠ "expression_statement" := by
  unfold isWrapper at h
  refine ⟨?_, ?_, ?_⟩ <;> intro hkind <;> rw [hkind] at h <;> revert h <;> decide

section Onward

variable {node : Node}

theorem map_firstChild? (node : Node) (visit : Visit) (test : Node → Bool) :
    ((node.firstChild? test).map (visit, ·)).map (fun next => (next.1, next.2.2)) =
      (node.children.find? test).map (visit, ·) := by
  rw [← map_snd_firstChild?, Option.map_map, Option.map_map]
  rfl

theorem onward?_of_wrapper (h : node.isWrapper = true) :
    (node.onward?).map (fun next => (next.1, next.2.2)) = node.inner?.map (Visit.member, ·) := by
  unfold onward? inner?
  rcases wrapper_cases h with hkind | hkind | hkind
  · have hrole : NodeRole.ofKind node.kind = .exported := by rw [hkind]; decide
    rw [if_pos hkind, map_firstChild?, hrole, child?]
  · have hrole : NodeRole.ofKind node.kind = .ambient := by rw [hkind]; decide
    rw [if_neg (by simp [hkind]), if_pos hkind, map_firstChild?, hrole, find?_named]
  · have hrole : NodeRole.ofKind node.kind = .expression := by rw [hkind]; decide
    rw [if_neg (by simp [hkind]), if_neg (by simp [hkind]), if_pos hkind, hrole]
    split_ifs with hlength
    · obtain ⟨inner, hinner⟩ := List.length_eq_one_iff.1 hlength
      rw [map_firstChild?, find?_named, hinner, List.find?_singleton]
    · cases hnamed : node.namedChildren with
      | nil => rfl
      | cons first rest =>
        cases rest with
        | nil => simp [hnamed] at hlength
        | cons second rest => rfl

theorem onward?_of_not_wrapper (h : node.isWrapper = false) :
    (node.onward?).map (fun next => (next.1, next.2.2)) =
      if (containerKind? node.kind).isSome then (node.child? "body").map (Visit.list, ·)
      else none := by
  obtain ⟨hexport, hambient, hexpression⟩ := not_wrapper_kind h
  unfold onward?
  rw [if_neg hexport, if_neg hambient, if_neg hexpression]
  split_ifs
  · rw [map_firstChild?, child?]
  · rfl

theorem exists_onward?_eq {visit : Visit} {next : Node}
    (h : (node.onward?).map (fun next => (next.1, next.2.2)) = some (visit, next)) :
    ∃ index, node.onward? = some (visit, index, next) := by
  obtain ⟨⟨found, index, child⟩, hfound, heq⟩ := Option.map_eq_some_iff.1 h
  cases heq
  exact ⟨index, hfound⟩

theorem mem_children_of_onward? {visit : Visit} {index : Nat} {next : Node}
    (h : node.onward? = some (visit, index, next)) : next ∈ node.children := by
  have hfirst {visit' : Visit} {test : Node → Bool}
      (hsome : (node.firstChild? test).map (visit', ·) = some (visit, index, next)) :
      next ∈ node.children := by
    obtain ⟨⟨found, child⟩, hchild, heq⟩ := Option.map_eq_some_iff.1 hsome
    cases heq
    exact mem_children_of_firstChild? hchild
  unfold onward? at h
  split_ifs at h
  all_goals exact hfirst h

theorem ofKind_of_containerKind? {kind : DeclarationKind} (h : node.isWrapper = false)
    (hkind : containerKind? node.kind = some kind) :
    NodeRole.ofKind node.kind = .container kind := by
  obtain ⟨hexport, hambient, hexpression⟩ := not_wrapper_kind h
  simp [NodeRole.ofKind, hexport, hambient, hexpression, hkind]

/-- From a node that is neither a wrapper nor a container the conversion does not go on. -/
theorem onward?_eq_none (h : node.isWrapper = false)
    (hrole : ∀ kind, NodeRole.ofKind node.kind ≠ .container kind) : node.onward? = none := by
  have hkind : containerKind? node.kind = none := by
    rw [Option.eq_none_iff_forall_ne_some]
    intro kind hsome
    exact hrole kind (ofKind_of_containerKind? h hsome)
  have hmap := onward?_of_not_wrapper h
  rw [hkind] at hmap
  exact Option.map_eq_none_iff.1 hmap

end Onward

end Syntax.Node

namespace Declaration
open Syntax Syntax.Node

/-- The numbers of the children on the way down to a node.  A node comes before what lies below it,
and what lies below a child before what lies below the next. -/
abbrev Place := List Nat

/-- The nodes that are inspected from a node on, which is itself a list of members or a member. -/
inductive Inspects : Visit → Node → Place → Node → Prop
  | self (node : Node) : Inspects .member node [] node
  | member {parent child target : Node} {index : Nat} {place : Place}
      (hchild : parent.children[index]? = some child) (hnamed : child.named = true)
      (hwaits : child.waits = false) (h : Inspects .member child place target) :
      Inspects .list parent (index :: place) target
  | onward {node next target : Node} {visit : Visit} {index : Nat} {place : Place}
      (hnext : node.onward? = some (visit, index, next)) (h : Inspects visit next place target) :
      Inspects .member node (index :: place) target

/-! ## The list of inspected nodes -/

def under (index : Nat) (found : Place × Node) : Place × Node := (index :: found.1, found.2)

mutual

/-- The nodes inspected among children that are numbered from the index on, in document order. -/
def inspectedAmong (index : Nat) : List Node → List (Place × Node)
  | [] => []
  | child :: rest =>
    (if child.named && !child.waits then (inspectedFrom child).map (under index) else []) ++
      inspectedAmong (index + 1) rest
termination_by children => sizeOf children

def inspectedFrom (node : Node) : List (Place × Node) :=
  ([], node) ::
    match h : node.onward? with
    | none => []
    | some (visit, index, next) =>
      have := sizeOf_lt_of_mem_children (mem_children_of_onward? h)
      have := next.sizeOf_children_lt
      match visit with
      | .list => (inspectedAmong 0 next.children).map (under index)
      | .member => (inspectedFrom next).map (under index)
      | .part => []
termination_by sizeOf node

end

def inspected : Visit → Node → List (Place × Node)
  | .list, node => inspectedAmong 0 node.children
  | .member, node => inspectedFrom node
  | .part, _ => []

theorem inspectedFrom_of_none {node : Node} (h : node.onward? = none) :
    inspectedFrom node = [([], node)] := by
  rw [inspectedFrom]
  split
  · rfl
  · simp_all

theorem inspectedFrom_of_some {node next : Node} {visit : Visit} {index : Nat}
    (h : node.onward? = some (visit, index, next)) :
    inspectedFrom node = ([], node) :: (inspected visit next).map (under index) := by
  rw [inspectedFrom]
  split
  · simp_all
  · rename_i found hfound
    rw [h] at hfound
    cases hfound
    cases visit <;> rfl

/-- Goes from a node to the node inside, or to all members of its body. -/
@[elab_as_elim]
theorem onward_induction {motive : Node → Prop}
    (step : ∀ node, (∀ index next, node.onward? = some (.member, index, next) → motive next) →
      (∀ index body, node.onward? = some (.list, index, body) →
        ∀ child ∈ body.children, motive child) → motive node) (node : Node) : motive node := by
  apply step
  · intro index next hnext
    have := sizeOf_lt_of_mem_children (mem_children_of_onward? hnext)
    exact onward_induction step next
  · intro index body hbody child hchild
    have := sizeOf_lt_of_mem_children (mem_children_of_onward? hbody)
    have := sizeOf_lt_of_mem_children hchild
    exact onward_induction step child
termination_by sizeOf node

theorem mem_inspectedAmong {index : Nat} {children : List Node} {place : Place} {target : Node} :
    (place, target) ∈ inspectedAmong index children ↔
      ∃ offset child rest, children[offset]? = some child ∧ child.named = true ∧
        child.waits = false ∧ place = (index + offset) :: rest ∧
        (rest, target) ∈ inspectedFrom child := by
  induction children generalizing index with
  | nil => simp [inspectedAmong]
  | cons first children ih =>
    rw [inspectedAmong, List.mem_append, ih]
    constructor
    · rintro (hfirst | ⟨offset, child, rest, hchild, hnamed, hwaits, rfl, hrest⟩)
      · split_ifs at hfirst with hmember
        · obtain ⟨⟨rest, found⟩, hrest, heq⟩ := List.mem_map.1 hfirst
          cases heq
          rw [Bool.and_eq_true, Bool.not_eq_true'] at hmember
          exact ⟨0, first, rest, rfl, hmember.1, hmember.2, rfl, hrest⟩
        · cases hfirst
      · refine ⟨offset + 1, child, rest, hchild, hnamed, hwaits, ?_, hrest⟩
        rw [Nat.add_assoc, Nat.add_comm 1 offset]
    · rintro ⟨offset, child, rest, hchild, hnamed, hwaits, rfl, hrest⟩
      cases offset with
      | zero =>
        cases hchild
        left
        rw [if_pos (by simp [hnamed, hwaits])]
        exact List.mem_map.2 ⟨(rest, target), hrest, rfl⟩
      | succ offset =>
        refine .inr ⟨offset, child, rest, hchild, hnamed, hwaits, ?_, hrest⟩
        rw [Nat.add_assoc, Nat.add_comm 1 offset]

/-- Whatever is listed for the members of a body is inspected. -/
theorem inspects_list_of_mem {parent : Node} {place : Place} {target : Node}
    (h : ∀ child ∈ parent.children, ∀ place target, (place, target) ∈ inspectedFrom child →
      Inspects .member child place target)
    (hmem : (place, target) ∈ inspected .list parent) : Inspects .list parent place target := by
  obtain ⟨offset, child, rest, hchild, hnamed, hwaits, rfl, hrest⟩ := mem_inspectedAmong.1 hmem
  rw [Nat.zero_add]
  exact .member hchild hnamed hwaits (h child (List.mem_of_getElem? hchild) rest target hrest)

theorem inspects_member_of_mem {node : Node} {place : Place} {target : Node}
    (h : (place, target) ∈ inspectedFrom node) : Inspects .member node place target := by
  induction node using onward_induction generalizing place target with
  | step node ihmember ihlist =>
    cases hnext : node.onward? with
    | none =>
      rw [inspectedFrom_of_none hnext, List.mem_singleton] at h
      cases h
      exact .self node
    | some found =>
      obtain ⟨visit, index, next⟩ := found
      rw [inspectedFrom_of_some hnext] at h
      rcases List.mem_cons.1 h with heq | h
      · cases heq
        exact .self node
      · obtain ⟨⟨rest, found⟩, hrest, heq⟩ := List.mem_map.1 h
        cases heq
        apply Inspects.onward hnext
        cases visit with
        | list =>
          exact inspects_list_of_mem (fun child hchild _ _ => ihlist index next hnext child hchild)
            hrest
        | member => exact ihmember index next hnext hrest
        | part => cases hrest

/-- The list holds exactly the inspected nodes. -/
theorem mem_inspected_iff {visit : Visit} {node target : Node} {place : Place} :
    (place, target) ∈ inspected visit node ↔ Inspects visit node place target := by
  constructor
  · intro h
    cases visit with
    | list => exact inspects_list_of_mem (fun _ _ _ _ => inspects_member_of_mem) h
    | member => exact inspects_member_of_mem h
    | part => cases h
  · intro h
    induction h with
    | self node =>
      cases hnext : node.onward? with
      | none => simp [inspected, inspectedFrom_of_none hnext]
      | some found => simp [inspected, inspectedFrom_of_some hnext]
    | @member parent child target index place hchild hnamed hwaits _ ih =>
      exact mem_inspectedAmong.2 ⟨index, child, place, hchild, hnamed, hwaits, by simp, ih⟩
    | @onward node next target visit index place hnext _ ih =>
      rw [inspected, inspectedFrom_of_some hnext]
      exact List.mem_cons_of_mem _ (List.mem_map.2 ⟨(place, target), ih, rfl⟩)

/-! ## Document order -/

def Ordered (found : List (Place × Node)) : Prop := found.Pairwise fun a b => a.1 < b.1

theorem Ordered.map_under {found : List (Place × Node)} (h : Ordered found) (index : Nat) :
    Ordered (found.map (under index)) :=
  h.map _ fun _ _ hlt => List.cons_lt_cons_iff.2 (.inr ⟨rfl, hlt⟩)

theorem ordered_inspectedAmong {children : List Node}
    (h : ∀ child ∈ children, Ordered (inspectedFrom child)) (index : Nat) :
    Ordered (inspectedAmong index children) := by
  induction children generalizing index with
  | nil =>
    rw [inspectedAmong]
    exact .nil
  | cons first children ih =>
    obtain ⟨hfirst, hrest⟩ := List.forall_mem_cons.1 h
    rw [inspectedAmong, Ordered, List.pairwise_append]
    refine ⟨?_, ih hrest (index + 1), ?_⟩
    · split_ifs
      · exact hfirst.map_under index
      · exact .nil
    · intro a ha b hb
      split_ifs at ha
      · obtain ⟨found, -, rfl⟩ := List.mem_map.1 ha
        obtain ⟨offset, _, rest, -, -, -, hplace, -⟩ := mem_inspectedAmong.1 hb
        rw [hplace]
        exact List.cons_lt_cons_iff.2 (.inl (by omega))
      · cases ha

theorem ordered_inspectedFrom (node : Node) : Ordered (inspectedFrom node) := by
  induction node using onward_induction with
  | step node ihmember ihlist =>
    cases hnext : node.onward? with
    | none =>
      rw [inspectedFrom_of_none hnext]
      exact List.pairwise_singleton _ _
    | some found =>
      obtain ⟨visit, index, next⟩ := found
      have hlater : Ordered (inspected visit next) := by
        cases visit with
        | list => exact ordered_inspectedAmong (ihlist index next hnext) 0
        | member => exact ihmember index next hnext
        | part => exact .nil
      rw [inspectedFrom_of_some hnext, Ordered, List.pairwise_cons]
      refine ⟨?_, hlater.map_under index⟩
      intro later hmem
      obtain ⟨found, -, rfl⟩ := List.mem_map.1 hmem
      exact List.nil_lt_cons _ _

end Declaration

end DecoratorVeil
