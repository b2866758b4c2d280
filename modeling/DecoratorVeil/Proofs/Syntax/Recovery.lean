import DecoratorVeil.Proofs.Syntax.Containment

/-!
# Which errors make a tree unusable

The search for errors looks only at flagged children and does not enter error nodes.  Where the
flags of a tree are right, it finds an error exactly if there is one outside of all other error
nodes.
-/

namespace DecoratorVeil.Syntax.Node

/-- Every node is flagged that is an error or missing, or has a flagged child; no other is. -/
def FlagsConsistent (root : Node) : Prop :=
  ∀ node, root.Contains node → node.hasError = flagOf node.kind node.missing node.children

instance (root : Node) : Decidable root.FlagsConsistent :=
  inferInstanceAs (Decidable (∀ node, root.Contains node →
    node.hasError = flagOf node.kind node.missing node.children))

/-- The nodes with no error node above them, each with the kind of its parent. -/
inductive Exposed (root : Node) : Option String → Node → Prop
  | root : Exposed root none root
  | child {above : Option String} {parent child : Node} (hparent : Exposed root above parent)
      (hkind : parent.kind ≠ errorKind) (hchild : child ∈ parent.children) :
      Exposed root (some parent.kind) child

/-- An error node that holds comments and decorators without errors, and at least one decorator. -/
def HoldsStray (node : Node) : Prop :=
  (∀ child ∈ node.namedChildren,
    child.isComment = true ∨ child.kind = "decorator" ∧ child.hasError = false) ∧
  ∃ child ∈ node.namedChildren, child.kind = "decorator"

/-- A node that makes the tree unusable, given the kind of its parent: a missing node, or an error
node that is the root, or does not stand in a list of members, or holds more than stray
decorators. -/
def Fatal (parent : Option String) (node : Node) : Prop :=
  node.missing = true ∨ node.kind = errorKind ∧
    (parent = none ∨ (∃ kind, parent = some kind ∧ kind ∉ memberListKinds) ∨ ¬ node.HoldsStray)

variable {root parent node child : Node} {above : Option String}

theorem Exposed.contains (h : Exposed root above node) : root.Contains node := by
  induction h with
  | root => exact .refl root
  | child _ _ hchild ih => exact ih.step hchild

theorem strayDecorators?_isSome_iff (hkind : node.kind = errorKind) :
    node.strayDecorators?.isSome = true ↔ node.HoldsStray := by
  have hall : node.namedChildren.all isStrayPart = true ↔ ∀ child ∈ node.namedChildren,
      child.isComment = true ∨ child.kind = "decorator" ∧ child.hasError = false := by
    simp [isStrayPart, or_comm]
  have hfilter : node.namedChildren.filter (·.kind == "decorator") = [] ↔
      ¬ ∃ child ∈ node.namedChildren, child.kind = "decorator" := by
    simp [List.filter_eq_nil_iff]
  rw [strayDecorators?, HoldsStray, ← hall]
  split_ifs with hcond
  · rw [hkind, beq_self_eq_true, Bool.true_and] at hcond
    split
    · rename_i hnil
      simp [hfilter.1 hnil]
    · rename_i hne
      simpa [hcond] using not_not.1 (mt hfilter.2 hne)
  · rw [hkind, beq_self_eq_true, Bool.true_and] at hcond
    simp [hcond]

theorem fatal_iff_of_error (hkind : node.kind = errorKind) (hmissing : node.missing = false) :
    Fatal above node ↔
      ¬ above.any memberListKinds.contains = true ∨ node.strayDecorators?.isSome = false := by
  rw [Fatal, ← strayDecorators?_isSome_iff hkind, Bool.not_eq_true]
  cases above <;> simp [hkind, hmissing]

theorem unrecoverable_of_missing (h : node.missing = true) : node.unrecoverable above = true := by
  rw [unrecoverable, if_pos h]

/-- At an error node the search decides without going on. -/
theorem unrecoverable_of_error (hkind : node.kind = errorKind) :
    node.unrecoverable above = true ↔ Fatal above node := by
  cases hmissing : node.missing with
  | true => exact iff_of_true (unrecoverable_of_missing hmissing) (.inl hmissing)
  | false =>
    rw [fatal_iff_of_error hkind hmissing, unrecoverable, if_neg (by simp [hmissing]),
      if_pos (by simp [hkind])]
    simp [Option.isNone_iff_eq_none]

/-- At any other node that is there the search goes on in the flagged children. -/
theorem unrecoverable_of_ne_error (hkind : node.kind ≠ errorKind)
    (hmissing : node.missing = false) :
    node.unrecoverable above = true ↔
      ∃ child ∈ node.children, child.hasError = true ∧
        child.unrecoverable (some node.kind) = true := by
  rw [unrecoverable, if_neg (by simp [hmissing]), if_neg (by simp [hkind])]
  simp

/-- What the search finds is a fatal node. -/
theorem exists_fatal_of_unrecoverable {root node : Node} {above : Option String}
    (hexposed : Exposed root above node) (h : node.unrecoverable above = true) :
    ∃ above node, Exposed root above node ∧ Fatal above node := by
  by_cases hkind : node.kind = errorKind
  · exact ⟨above, node, hexposed, (unrecoverable_of_error hkind).1 h⟩
  · cases hmissing : node.missing with
    | true => exact ⟨above, node, hexposed, .inl hmissing⟩
    | false =>
      obtain ⟨child, hchild, -, hsearch⟩ := (unrecoverable_of_ne_error hkind hmissing).1 h
      have := sizeOf_lt_of_mem_children hchild
      exact exists_fatal_of_unrecoverable (.child hexposed hkind hchild) hsearch
termination_by sizeOf node

theorem unrecoverable_of_fatal (h : Fatal above node) : node.unrecoverable above = true := by
  rcases h with hmissing | ⟨hkind, hplace⟩
  · exact unrecoverable_of_missing hmissing
  · exact (unrecoverable_of_error hkind).2 (.inr ⟨hkind, hplace⟩)

theorem hasError_of_fatal (hflag : node.hasError = flagOf node.kind node.missing node.children)
    (h : Fatal above node) : node.hasError = true := by
  rw [hflag, flagOf]
  rcases h with hmissing | ⟨hkind, -⟩
  · simp [hmissing]
  · simp [hkind]

/-- The search goes up from a flagged node to its parent. -/
theorem unrecoverable_parent
    (hflag : parent.hasError = flagOf parent.kind parent.missing parent.children)
    (hkind : parent.kind ≠ errorKind) (hchild : child ∈ parent.children)
    (herror : child.hasError = true) (h : child.unrecoverable (some parent.kind) = true) :
    parent.hasError = true ∧ parent.unrecoverable above = true := by
  constructor
  · rw [hflag, flagOf, List.any_eq_true.2 ⟨child, hchild, herror⟩, Bool.or_true]
  · cases hmissing : parent.missing with
    | true => exact unrecoverable_of_missing hmissing
    | false =>
      exact (unrecoverable_of_ne_error hkind hmissing).2 ⟨child, hchild, herror, h⟩

/-- A fatal node is found: nothing on the way to it is left out. -/
theorem unrecoverable_root (hroot : root.FlagsConsistent) (hexposed : Exposed root above node)
    (herror : node.hasError = true) (h : node.unrecoverable above = true) :
    root.hasError = true ∧ root.unrecoverable none = true := by
  induction hexposed with
  | root => exact ⟨herror, h⟩
  | child hparent hkind hchild ih =>
    obtain ⟨hup, hsearch⟩ :=
      unrecoverable_parent (hroot _ hparent.contains) hkind hchild herror h
    exact ih hup hsearch

/-- A tree is unusable exactly if it has a fatal node outside of all other error nodes. -/
theorem readable_eq_false_iff (hroot : root.FlagsConsistent) :
    root.readable = false ↔ ∃ above node, Exposed root above node ∧ Fatal above node := by
  rw [readable, Bool.not_eq_false', Bool.and_eq_true]
  constructor
  · rintro ⟨-, hsearch⟩
    exact exists_fatal_of_unrecoverable .root hsearch
  · rintro ⟨above, node, hexposed, hfatal⟩
    exact unrecoverable_root hroot hexposed (hasError_of_fatal (hroot _ hexposed.contains) hfatal)
      (unrecoverable_of_fatal hfatal)

end DecoratorVeil.Syntax.Node
