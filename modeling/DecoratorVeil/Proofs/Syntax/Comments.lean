import DecoratorVeil.Proofs.Declaration.Conversion
import DecoratorVeil.Proofs.Syntax.Recovery

/-!
# Trees without comments

A plain comment can stand among the children of any node.  A tree keeps what is looked up in it when
all plain comments are taken out, except in one place: a namespace that is read as an expression is
found only if it is the one named child of its statement.
-/

namespace DecoratorVeil.Syntax.Node
open Declaration

/-- A comment that is named and there, fills no field and holds no error. -/
def isPlainComment (node : Node) : Bool :=
  node.isComment && node.named && !node.missing && !node.hasError && node.field.isNone

/-- An expression statement whose named children are a namespace and plain comments. -/
def wrapsNamespace (node : Node) : Bool :=
  node.kind == "expression_statement" &&
    (node.namedChildren.filter (!·.isPlainComment)).map kind == ["internal_module"]

/-- The second tree has one plain comment more than the first, among the children of a node where
comments are allowed. -/
inductive InsertsComment (allowed : Node → Prop) : Node → Node → Prop
  | among {node comment : Node} {before after : List Node} (hallowed : allowed node)
      (hcomment : comment.isPlainComment = true) (hchildren : node.children = before ++ after) :
      InsertsComment allowed node { node with children := before ++ comment :: after }
  | inside {node child changed : Node} {before after : List Node}
      (hchild : InsertsComment allowed child changed)
      (hchildren : node.children = before ++ child :: after) :
      InsertsComment allowed node { node with children := before ++ changed :: after }

/-- Whether a child is left when the comments of its parent are taken out. -/
def keeps (parent child : Node) : Bool := parent.wrapsNamespace || !child.isPlainComment

/-- The tree without plain comments, but for those beside a namespace in an expression. -/
def withoutComments (node : Node) : Node :=
  { node with children := (node.children.filter node.keeps).attach.map fun ⟨child, _⟩ =>
      child.withoutComments }
termination_by sizeOf node
decreasing_by exact sizeOf_lt_of_mem_children (List.mem_filter.1 (by assumption)).1

theorem withoutComments_eq (node : Node) : node.withoutComments =
    { node with children := (node.children.filter node.keeps).map withoutComments } := by
  rw [withoutComments]
  simp

section Labels

variable (node : Node)

@[simp] theorem kind_withoutComments : node.withoutComments.kind = node.kind := by
  rw [withoutComments_eq]

@[simp] theorem start_withoutComments : node.withoutComments.start = node.start := by
  rw [withoutComments_eq]

@[simp] theorem stop_withoutComments : node.withoutComments.stop = node.stop := by
  rw [withoutComments_eq]

@[simp] theorem named_withoutComments : node.withoutComments.named = node.named := by
  rw [withoutComments_eq]

@[simp] theorem field_withoutComments : node.withoutComments.field = node.field := by
  rw [withoutComments_eq]

@[simp] theorem missing_withoutComments : node.withoutComments.missing = node.missing := by
  rw [withoutComments_eq]

@[simp] theorem hasText_withoutComments : node.withoutComments.hasText = node.hasText := by
  rw [withoutComments_eq]

@[simp] theorem hasError_withoutComments : node.withoutComments.hasError = node.hasError := by
  rw [withoutComments_eq]

@[simp] theorem isComment_withoutComments : node.withoutComments.isComment = node.isComment := by
  simp [isComment]

@[simp] theorem isPlainComment_withoutComments :
    node.withoutComments.isPlainComment = node.isPlainComment := by
  simp [isPlainComment]

theorem children_withoutComments : node.withoutComments.children =
    (node.children.filter node.keeps).map withoutComments := by
  rw [withoutComments_eq]

end Labels

variable {node : Node}

theorem isPlainComment_of_not_keeps {child : Node} (h : node.keeps child = false) :
    child.isPlainComment = true := by
  simp only [keeps, Bool.or_eq_false_iff, Bool.not_eq_false'] at h
  exact h.2

theorem isComment_of_isPlainComment (h : node.isPlainComment = true) : node.isComment = true := by
  simp only [isPlainComment, Bool.and_eq_true] at h
  exact h.1.1.1.1

/-- A test that plain comments fail is passed by the same nodes without the comments. -/
theorem filter_withoutComments {keep test : Node → Bool} (nodes : List Node)
    (hkeep : ∀ node, keep node = false → node.isPlainComment = true)
    (hsame : ∀ node, test node.withoutComments = test node)
    (hcomment : ∀ node, node.isPlainComment = true → test node = false) :
    ((nodes.filter keep).map withoutComments).filter test =
      (nodes.filter test).map withoutComments := by
  have hboth : ∀ node, (test node && keep node) = test node := by
    intro node
    cases hk : keep node with
    | true => rw [Bool.and_true]
    | false => rw [hcomment node (hkeep node hk), Bool.and_false]
  have hcomp : test ∘ withoutComments = test := funext hsame
  rw [List.filter_map, List.filter_filter, hcomp]
  simp only [hboth]

theorem find?_withoutComments {keep test : Node → Bool} (nodes : List Node)
    (hkeep : ∀ node, keep node = false → node.isPlainComment = true)
    (hsame : ∀ node, test node.withoutComments = test node)
    (hcomment : ∀ node, node.isPlainComment = true → test node = false) :
    ((nodes.filter keep).map withoutComments).find? test =
      (nodes.find? test).map withoutComments := by
  rw [← List.head?_filter, filter_withoutComments nodes hkeep hsame hcomment, List.head?_map,
    List.head?_filter]

theorem namedChildren_withoutComments (node : Node) : node.withoutComments.namedChildren =
    (node.namedChildren.filter node.keeps).map withoutComments := by
  have hnamed : (fun child : Node => child.named) ∘ withoutComments = fun child => child.named :=
    funext named_withoutComments
  rw [namedChildren, namedChildren, children_withoutComments, List.filter_map, hnamed,
    List.filter_filter, List.filter_filter]
  simp only [Bool.and_comm]

theorem kind_of_isPlainComment (h : node.isPlainComment = true) :
    node.kind = "comment" ∨ node.kind = "html_comment" := by
  simpa [isComment] using isComment_of_isPlainComment h

theorem not_decorator_of_isPlainComment (h : node.isPlainComment = true) :
    (node.kind == "decorator") = false := by
  rcases kind_of_isPlainComment h with hkind | hkind <;> rw [hkind] <;> decide

theorem not_isDeclaring_of_isPlainComment (h : node.isPlainComment = true) :
    isDeclaring node = false := by
  rcases kind_of_isPlainComment h with hkind | hkind <;> rw [isDeclaring, hkind] <;> decide

theorem decorators_withoutComments (node : Node) :
    node.withoutComments.decorators = node.decorators.map withoutComments := by
  rw [decorators, children_withoutComments, decorators]
  exact filter_withoutComments node.children (fun _ => isPlainComment_of_not_keeps) (by simp)
    fun _ => not_decorator_of_isPlainComment

theorem child?_withoutComments (node : Node) (name : String) :
    node.withoutComments.child? name = (node.child? name).map withoutComments := by
  rw [child?, children_withoutComments, child?]
  refine find?_withoutComments node.children (fun _ => isPlainComment_of_not_keeps) (by simp) ?_
  intro child hcomment
  simp only [isPlainComment, Bool.and_eq_true, Option.isNone_iff_eq_none] at hcomment
  simp [hcomment.2]

/-! ## Errors -/

theorem strayDecorators?_withoutComments (node : Node) :
    node.withoutComments.strayDecorators? =
      node.strayDecorators?.map (List.map withoutComments) := by
  have hall : node.withoutComments.namedChildren.all isStrayPart =
      node.namedChildren.all isStrayPart := by
    have hpart : isStrayPart ∘ withoutComments = isStrayPart := by
      funext child
      simp [isStrayPart]
    rw [namedChildren_withoutComments, List.all_map, hpart, List.all_filter]
    -- A plain comment passes the test, so it does not matter whether it is there.
    refine congrArg node.namedChildren.all (funext fun child => ?_)
    cases hkeeps : node.keeps child with
    | true => rfl
    | false =>
      have hcomment := isComment_of_isPlainComment (isPlainComment_of_not_keeps hkeeps)
      simp [isStrayPart, hcomment]
  have hfilter : node.withoutComments.namedChildren.filter (·.kind == "decorator") =
      (node.namedChildren.filter (·.kind == "decorator")).map withoutComments := by
    rw [namedChildren_withoutComments]
    exact filter_withoutComments _ (fun _ => isPlainComment_of_not_keeps) (by simp)
      fun _ => not_decorator_of_isPlainComment
  rw [strayDecorators?, strayDecorators?, hall, hfilter, kind_withoutComments]
  split_ifs
  · cases node.namedChildren.filter (·.kind == "decorator") <;> rfl
  · rfl

theorem unrecoverable_withoutComments (node : Node) (above : Option String) :
    node.withoutComments.unrecoverable above = node.unrecoverable above := by
  cases hmissing : node.missing with
  | true =>
    rw [unrecoverable_of_missing hmissing, unrecoverable_of_missing (by simp [hmissing])]
  | false =>
    by_cases hkind : node.kind = errorKind
    · rw [unrecoverable, unrecoverable]
      simp [hmissing, hkind, strayDecorators?_withoutComments]
    · have hchild (child : Node) (hc : child ∈ node.children) :
          child.withoutComments.unrecoverable (some node.kind) =
            child.unrecoverable (some node.kind) :=
        have := sizeOf_lt_of_mem_children hc
        unrecoverable_withoutComments child _
      rw [Bool.eq_iff_iff, unrecoverable_of_ne_error hkind hmissing,
        unrecoverable_of_ne_error (by simpa using hkind) (by simpa using hmissing),
        children_withoutComments, kind_withoutComments]
      constructor
      · rintro ⟨_, hmem, herror, hsearch⟩
        obtain ⟨child, hfilter, rfl⟩ := List.mem_map.1 hmem
        have hc := (List.mem_filter.1 hfilter).1
        exact ⟨child, hc, by simpa using herror, hchild child hc ▸ hsearch⟩
      · rintro ⟨child, hc, herror, hsearch⟩
        have hplain : child.isPlainComment = false := by simp [isPlainComment, herror]
        refine ⟨child.withoutComments, ?_, by simpa using herror, (hchild child hc).trans hsearch⟩
        exact List.mem_map_of_mem (List.mem_filter.2 ⟨hc, by simp [keeps, hplain]⟩)
termination_by sizeOf node

theorem readable_withoutComments (root : Node) : root.withoutComments.readable = root.readable := by
  rw [readable, readable, unrecoverable_withoutComments, hasError_withoutComments]

/-! ## Siblings and wrappers -/

theorem waits_withoutComments (node : Node) : node.withoutComments.waits = node.waits := by
  simp [waits, strayDecorators?_withoutComments]

theorem held_withoutComments (node : Node) :
    node.withoutComments.held = node.held.map withoutComments := by
  rw [held, held, kind_withoutComments, strayDecorators?_withoutComments]
  split_ifs
  · rfl
  · cases node.strayDecorators? <;> rfl

theorem isWrapper_withoutComments (node : Node) :
    node.withoutComments.isWrapper = node.isWrapper := by
  simp [isWrapper]

theorem passedOn_withoutComments (node : Node) :
    node.withoutComments.passedOn = node.passedOn.map withoutComments := by
  rw [passedOn, passedOn, kind_withoutComments, decorators_withoutComments]
  cases NodeRole.ofKind node.kind <;> rfl

/-- An expression stands for its only named child, if this is a namespace. -/
theorem inner?_of_expression (h : NodeRole.ofKind node.kind = .expression) :
    node.inner? =
      if node.namedChildren.map kind = ["internal_module"] then node.namedChildren.head?
      else none := by
  rw [inner?, h]
  match node.namedChildren with
  | [] => rfl
  | [inner] => by_cases hkind : inner.kind = "internal_module" <;> simp [hkind]
  | first :: second :: rest => simp

/-- A namespace that is alone stays. -/
theorem filter_keeps_of_namespace (h : node.namedChildren.map kind = ["internal_module"]) :
    node.namedChildren.filter node.keeps = node.namedChildren := by
  rw [List.filter_eq_self]
  intro child hchild
  have hkind : child.kind = "internal_module" := by
    simpa [h] using List.mem_map_of_mem (f := kind) hchild
  cases hkeeps : node.keeps child with
  | true => rfl
  | false =>
    rcases kind_of_isPlainComment (isPlainComment_of_not_keeps hkeeps) with h | h <;>
      simp [hkind] at h

/-- No comment is taken out from beside a namespace, so that none comes to stand alone. -/
theorem namespace_of_filter_keeps (hkind : node.kind = "expression_statement")
    (h : (node.namedChildren.filter node.keeps).map kind = ["internal_module"]) :
    node.namedChildren.map kind = ["internal_module"] := by
  cases hwraps : node.wrapsNamespace with
  | true =>
    rw [List.filter_eq_self.2 (by simp [keeps, hwraps])] at h
    exact h
  | false =>
    have hkeeps : node.keeps = fun child => !child.isPlainComment := by
      funext child
      simp [keeps, hwraps]
    rw [hkeeps] at h
    simp [wrapsNamespace, hkind, h] at hwraps

theorem kind_of_expression (h : NodeRole.ofKind node.kind = .expression) :
    node.kind = "expression_statement" := by
  unfold NodeRole.ofKind at h
  split at h
  · cases h
  · split at h
    · cases h
    · split at h
      · rename_i hkind
        simpa using hkind
      · split at h
        · cases h
        · cases h
        · split at h <;> cases h

theorem inner?_withoutComments (node : Node) :
    node.withoutComments.inner? = node.inner?.map withoutComments := by
  cases hrole : NodeRole.ofKind node.kind with
  | exported => simp [inner?, hrole, child?_withoutComments]
  | ambient =>
    simp only [inner?, kind_withoutComments, hrole, namedChildren_withoutComments]
    exact find?_withoutComments _ (fun _ => isPlainComment_of_not_keeps) (by simp [isDeclaring])
      fun _ => not_isDeclaring_of_isPlainComment
  | expression =>
    have hkinds : node.withoutComments.namedChildren.map kind =
        (node.namedChildren.filter node.keeps).map kind := by
      simp [namedChildren_withoutComments]
    rw [inner?_of_expression hrole, inner?_of_expression (by simpa using hrole), hkinds]
    by_cases hnamespace : node.namedChildren.map kind = ["internal_module"]
    · rw [namedChildren_withoutComments, filter_keeps_of_namespace hnamespace, if_pos hnamespace,
        if_pos hnamespace, List.head?_map]
    · rw [if_neg hnamespace,
        if_neg (mt (namespace_of_filter_keeps (kind_of_expression hrole)) hnamespace)]
      rfl
  | container kind | decorated kind | skipped | unknown => simp [inner?, hrole]

theorem unwrap_withoutComments (node : Node) :
    node.withoutComments.unwrap = node.unwrap.map fun (exports, core) =>
      (exports.map withoutComments, core.withoutComments) := by
  have hwrapper := isWrapper_withoutComments node
  induction node using unwrap_induction with
  | single node hw =>
    rw [unwrap_of_not_wrapper hw, unwrap_of_not_wrapper (hwrapper.trans hw)]
    rfl
  | empty node hw hinner =>
    rw [unwrap_of_inner?_eq_none hw hinner, unwrap_of_inner?_eq_none (hwrapper.trans hw)]
    · rfl
    · rw [inner?_withoutComments, hinner, Option.map_none]
  | wrapper node inner hw hinner ih =>
    have hinner' : node.withoutComments.inner? = some inner.withoutComments := by
      rw [inner?_withoutComments, hinner, Option.map_some]
    rw [unwrap_of_inner?_eq_some hw hinner, unwrap_of_inner?_eq_some (hwrapper.trans hw) hinner',
      ih (isWrapper_withoutComments inner), passedOn_withoutComments]
    cases inner.unwrap <;> simp

/-! ## Inserting a comment -/

/-- Other children that differ in comments only make no difference without comments. -/
theorem withoutComments_congr {children : List Node}
    (hkinds : ((children.filter named).filter (!·.isPlainComment)).map kind =
      (node.namedChildren.filter (!·.isPlainComment)).map kind)
    (hchildren : (children.filter node.keeps).map withoutComments =
      (node.children.filter node.keeps).map withoutComments) :
    node.withoutComments = { node with children := children }.withoutComments := by
  have hwraps : { node with children := children }.wrapsNamespace = node.wrapsNamespace := by
    rw [wrapsNamespace, wrapsNamespace, ← hkinds]
    rfl
  have hkeeps : { node with children := children }.keeps = node.keeps := by
    funext child
    rw [keeps, keeps, hwraps]
  rw [withoutComments_eq, withoutComments_eq { node with children := children }, hkeeps, hchildren]

theorem map_filter_replace {α β : Type} {test : α → Bool} {f : α → β} {x y : α}
    (before after : List α) (htest : test y = test x) (hf : f y = f x) :
    ((before ++ y :: after).filter test).map f = ((before ++ x :: after).filter test).map f := by
  cases h : test x <;> simp [h, htest, hf]

/-- Without its comments a tree is the same as before a comment was inserted. -/
theorem InsertsComment.withoutComments_eq {a b : Node}
    (h : InsertsComment (fun node => node.wrapsNamespace = false) a b) :
    a.withoutComments = b.withoutComments := by
  induction h with
  | @among node comment before after hallowed hcomment hchildren =>
    apply withoutComments_congr
    · simp [namedChildren, hchildren, hcomment]
    · have hkeeps : node.keeps comment = false := by simp [keeps, hallowed, hcomment]
      simp [hchildren, hkeeps]
  | @inside node child changed before after hchild hchildren ih =>
    have hkind : changed.kind = child.kind := by
      rw [← kind_withoutComments, ← ih, kind_withoutComments]
    have hnamed : changed.named = child.named := by
      rw [← named_withoutComments, ← ih, named_withoutComments]
    have hplain : changed.isPlainComment = child.isPlainComment := by
      rw [← isPlainComment_withoutComments, ← ih, isPlainComment_withoutComments]
    have hkeeps : node.keeps changed = node.keeps child := by rw [keeps, keeps, hplain]
    apply withoutComments_congr
    · rw [namedChildren, hchildren, List.filter_filter, List.filter_filter]
      exact map_filter_replace before after (by rw [hnamed, hplain]) hkind
    · rw [hchildren]
      exact map_filter_replace before after hkeeps ih.symm

section Branch

variable {allowed : Node → Prop} {kind : String} {start stop : Nat} (before after : List Node)

/-- A tree that is flagged after its children keeps its flags. -/
theorem insertsComment_branch {comment : Node}
    (hallowed : allowed (branch kind start stop (before ++ after)))
    (hcomment : comment.isPlainComment = true) :
    InsertsComment allowed (branch kind start stop (before ++ after))
      (branch kind start stop (before ++ comment :: after)) := by
  have herror : comment.hasError = false := by
    simp only [isPlainComment, Bool.and_eq_true, Bool.not_eq_true'] at hcomment
    exact hcomment.1.2
  have hbranch : branch kind start stop (before ++ comment :: after) =
      { branch kind start stop (before ++ after) with children := before ++ comment :: after } := by
    simp [branch, flagOf, herror]
  rw [hbranch]
  exact .among hallowed hcomment rfl

theorem insertsComment_branch_inside {child changed : Node}
    (h : InsertsComment allowed child changed) :
    InsertsComment allowed (branch kind start stop (before ++ child :: after))
      (branch kind start stop (before ++ changed :: after)) := by
  have herror : changed.hasError = child.hasError := by cases h <;> rfl
  have hbranch : branch kind start stop (before ++ changed :: after) =
      { branch kind start stop (before ++ child :: after) with
        children := before ++ changed :: after } := by
    simp [branch, flagOf, herror]
  rw [hbranch]
  exact .inside h rfl

end Branch

end DecoratorVeil.Syntax.Node
