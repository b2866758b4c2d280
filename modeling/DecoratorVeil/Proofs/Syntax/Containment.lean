import DecoratorVeil.Syntax.Recovery
import Mathlib.Logic.Relation
import Mathlib.Tactic.Common

/-!
# The nodes of a syntax tree

A tree contains its root and whatever its children contain.  Conditions on all nodes of a tree are
stated through this relation.
-/

namespace DecoratorVeil.Syntax.Node

def HasChild (parent child : Node) : Prop := child ∈ parent.children

def Contains : Node → Node → Prop := Relation.ReflTransGen HasChild

namespace Contains

variable {root node child : Node}

theorem refl (root : Node) : root.Contains root := Relation.ReflTransGen.refl

theorem step (h : root.Contains node) (hc : child ∈ node.children) : root.Contains child :=
  Relation.ReflTransGen.tail h hc

theorem of_child (hc : child ∈ root.children) (h : child.Contains node) : root.Contains node :=
  Relation.ReflTransGen.head hc h

theorem trans {inner : Node} (h : root.Contains node) (h' : node.Contains inner) :
    root.Contains inner :=
  Relation.ReflTransGen.trans h h'

theorem sizeOf_le (h : root.Contains node) : sizeOf node ≤ sizeOf root := by
  induction h with
  | refl => exact Nat.le_refl _
  | tail _ hc ih => exact Nat.le_trans (Nat.le_of_lt (sizeOf_lt_of_mem_children hc)) ih

end Contains

/-- A condition on all nodes of a tree is one on the root and on the trees of its children. -/
theorem forall_contains_iff {root : Node} {p : Node → Prop} :
    (∀ node, root.Contains node → p node) ↔
      p root ∧ ∀ child ∈ root.children, ∀ node, child.Contains node → p node := by
  constructor
  · intro h
    exact ⟨h root (.refl root), fun child hc node hn => h node (.of_child hc hn)⟩
  · rintro ⟨hroot, hchildren⟩ node hnode
    rcases Relation.ReflTransGen.cases_head hnode with rfl | ⟨child, hc, hn⟩
    · exact hroot
    · exact hchildren child hc node hn

def everyNode (test : Node → Bool) (root : Node) : Bool :=
  test root && root.children.attach.all fun ⟨child, _⟩ => child.everyNode test
termination_by sizeOf root
decreasing_by exact sizeOf_lt_of_mem_children (by assumption)

theorem everyNode_eq_true_iff {test : Node → Bool} {root : Node} :
    root.everyNode test = true ↔ ∀ node, root.Contains node → test node = true := by
  rw [everyNode, Bool.and_eq_true, List.all_eq_true, forall_contains_iff]
  have hchild (child : Node) (hc : child ∈ root.children) :
      child.everyNode test = true ↔ ∀ node, child.Contains node → test node = true :=
    have := sizeOf_lt_of_mem_children hc
    everyNode_eq_true_iff
  constructor
  · rintro ⟨hroot, hchildren⟩
    exact ⟨hroot, fun child hc => (hchild child hc).1 (hchildren ⟨child, hc⟩ (List.mem_attach _ _))⟩
  · rintro ⟨hroot, hchildren⟩
    exact ⟨hroot, fun ⟨child, hc⟩ _ => (hchild child hc).2 (hchildren child hc)⟩
termination_by sizeOf root

instance decidableForallContains (p : Node → Prop) [DecidablePred p] (root : Node) :
    Decidable (∀ node, root.Contains node → p node) :=
  decidable_of_iff (root.everyNode (fun node => decide (p node)) = true)
    (by simp only [everyNode_eq_true_iff, decide_eq_true_eq])

theorem mem_children_of_mem_decorators {node child : Node} (h : child ∈ node.decorators) :
    child ∈ node.children ∧ child.kind = "decorator" := by
  simpa [decorators] using h

/-- The decorators of a harmless error node are named children of it. -/
theorem strayDecorators?_eq_some {node : Node} {stray : List Node}
    (h : node.strayDecorators? = some stray) :
    node.kind = errorKind ∧ node.namedChildren.all isStrayPart ∧ stray ≠ [] ∧
      stray = node.namedChildren.filter (·.kind == "decorator") := by
  rw [strayDecorators?] at h
  split_ifs at h with hcond
  rw [Bool.and_eq_true, beq_iff_eq] at hcond
  split at h
  · cases h
  · rename_i hne
    cases h
    exact ⟨hcond.1, hcond.2, hne, rfl⟩

end DecoratorVeil.Syntax.Node
