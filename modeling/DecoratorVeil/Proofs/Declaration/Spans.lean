import DecoratorVeil.Proofs.Declaration.Attachment
import DecoratorVeil.Proofs.Text.Utf8
import Mathlib.Data.List.Pairwise

/-!
# The spans of attached decorators

In a tree whose spans are nested and ordered, no two attached decorators overlap.  They are found in
different places: before a member, in an error node, at an export, at the declaration.  So each of
these places is shown to lie apart from the others.
-/

namespace DecoratorVeil

namespace Syntax.Node
open Declaration

/-- The span of a node lies in the text, on character boundaries; its children lie in it, in order
and apart; a decorator is not empty. -/
structure Spanned (code : List Char) (node : Node) : Prop where
  start_boundary : Text.Utf8.Boundary code node.start
  stop_boundary : Text.Utf8.Boundary code node.stop
  children_inside : ∀ child ∈ node.children, node.start ≤ child.start ∧ child.stop ≤ node.stop
  children_ordered : node.children.Pairwise fun a b => a.stop ≤ b.start
  decorator_nonempty : node.kind = "decorator" → node.start < node.stop

def WellSpanned (code : List Char) (root : Node) : Prop :=
  ∀ node, root.Contains node → node.Spanned code

instance (code : List Char) (node : Node) : Decidable (node.Spanned code) :=
  decidable_of_iff
    (Text.Utf8.Boundary code node.start ∧ Text.Utf8.Boundary code node.stop ∧
      (∀ child ∈ node.children, node.start ≤ child.start ∧ child.stop ≤ node.stop) ∧
      (node.children.Pairwise fun a b => a.stop ≤ b.start) ∧
      (node.kind = "decorator" → node.start < node.stop))
    ⟨fun ⟨h₁, h₂, h₃, h₄, h₅⟩ => ⟨h₁, h₂, h₃, h₄, h₅⟩,
      fun ⟨h₁, h₂, h₃, h₄, h₅⟩ => ⟨h₁, h₂, h₃, h₄, h₅⟩⟩

instance (code : List Char) (root : Node) : Decidable (root.WellSpanned code) :=
  inferInstanceAs (Decidable (∀ node, root.Contains node → node.Spanned code))

/-- One of two spans ends before the other starts. -/
def Apart (a b : Node) : Prop := a.stop ≤ b.start ∨ b.stop ≤ a.start

instance : Std.Symm Apart := ⟨fun _ _ => Or.symm⟩

variable {code : List Char} {root node a b x y : Node}

theorem WellSpanned.of_contains (h : root.WellSpanned code) (hn : root.Contains node) :
    node.WellSpanned code :=
  fun inner hinner => h inner (hn.trans hinner)

theorem WellSpanned.inside (h : root.WellSpanned code) (hn : root.Contains node) :
    root.start ≤ node.start ∧ node.stop ≤ root.stop := by
  induction hn with
  | refl => exact ⟨Nat.le_refl _, Nat.le_refl _⟩
  | tail hparent hchild ih =>
    have hinside := (h _ hparent).children_inside _ hchild
    exact ⟨Nat.le_trans ih.1 hinside.1, Nat.le_trans hinside.2 ih.2⟩

/-- What lies in nodes that are apart is apart. -/
theorem Apart.of_contains (h : Apart a b) (ha : a.WellSpanned code) (hb : b.WellSpanned code)
    (hx : a.Contains x) (hy : b.Contains y) : Apart x y := by
  have hxa := ha.inside hx
  have hyb := hb.inside hy
  rcases h with h | h
  · exact .inl (by omega)
  · exact .inr (by omega)

theorem WellSpanned.children_apart (h : root.WellSpanned code) :
    root.children.Pairwise Apart :=
  (h root (.refl root)).children_ordered.imp .inl

theorem decorators_sublist (node : Node) : node.decorators.Sublist node.children :=
  List.filter_sublist

theorem contains_of_mem_decorators (h : x ∈ node.decorators) : node.Contains x :=
  .of_child (mem_children_of_mem_decorators h).1 (.refl x)

theorem contains_of_mem_body (h : x ∈ node.body) : node.Contains x := by
  unfold body at h
  cases hbody : node.child? "body" with
  | none => simp [hbody] at h
  | some inside =>
    rw [hbody, Option.map_some, Option.getD_some] at h
    exact .of_child (mem_children_of_child? hbody)
      (.of_child (mem_children_of_mem_namedChildren h) (.refl x))

theorem WellSpanned.body_ordered (h : root.WellSpanned code) :
    root.body.Pairwise fun a b => a.stop ≤ b.start := by
  unfold body
  cases hbody : root.child? "body" with
  | none => exact List.Pairwise.nil
  | some inside =>
    have hinside := h inside (.of_child (mem_children_of_child? hbody) (.refl inside))
    exact hinside.children_ordered.sublist List.filter_sublist

theorem mem_held (h : x ∈ node.held) : node.Contains x ∧ x.kind = "decorator" := by
  unfold held at h
  split at h
  · rename_i hkind
    rw [List.mem_singleton] at h
    subst h
    exact ⟨.refl x, by simpa using hkind⟩
  · cases hstray : node.strayDecorators? with
    | none => simp [hstray] at h
    | some stray =>
      obtain ⟨-, -, -, rfl⟩ := strayDecorators?_eq_some hstray
      rw [hstray, Option.getD_some, List.mem_filter] at h
      exact ⟨.of_child (mem_children_of_mem_namedChildren h.1) (.refl x), by simpa using h.2⟩

theorem WellSpanned.held_apart (h : node.WellSpanned code) : node.held.Pairwise Apart := by
  unfold held
  split
  · exact List.pairwise_singleton _ _
  · cases hstray : node.strayDecorators? with
    | none => exact List.Pairwise.nil
    | some stray =>
      obtain ⟨-, -, -, rfl⟩ := strayDecorators?_eq_some hstray
      exact h.children_apart.sublist (List.filter_sublist.trans List.filter_sublist)

theorem mem_waiting {before : List Node} (h : x ∈ waiting before) :
    ∃ sibling ∈ before, sibling.Contains x ∧ x.kind = "decorator" := by
  rw [waiting, List.mem_flatMap] at h
  obtain ⟨sibling, hsibling, hx⟩ := h
  exact ⟨sibling, (List.rtakeWhile_suffix waits before).subset hsibling, mem_held hx⟩

theorem waiting_apart {before : List Node} (hspanned : ∀ sibling ∈ before, sibling.WellSpanned code)
    (hordered : before.Pairwise fun a b => a.stop ≤ b.start) : (waiting before).Pairwise Apart := by
  have hsuffix := List.rtakeWhile_suffix waits before
  rw [waiting, List.pairwise_flatMap]
  constructor
  · intro sibling hsibling
    exact (hspanned sibling (hsuffix.subset hsibling)).held_apart
  · refine (hordered.sublist hsuffix.sublist).imp_of_mem ?_
    intro a b ha hb hab x hx y hy
    exact Apart.of_contains (.inl hab) (hspanned a (hsuffix.subset ha))
      (hspanned b (hsuffix.subset hb)) (mem_held hx).1 (mem_held hy).1

theorem passedOn_sublist (node : Node) : node.passedOn.Sublist node.decorators := by
  unfold passedOn
  split
  · exact List.Sublist.refl _
  · exact List.nil_sublist _

theorem mem_exports {exports : List Node} {core : Node} (h : node.unwrap = some (exports, core))
    (hx : x ∈ exports) : node.Contains x ∧ x.kind = "decorator" := by
  induction node using unwrap_induction generalizing exports with
  | single node hw =>
    rw [unwrap_of_not_wrapper hw] at h
    cases h
    cases hx
  | empty node hw hinner =>
    rw [unwrap_of_inner?_eq_none hw hinner] at h
    cases h
  | wrapper node inner hw hinner ih =>
    rw [unwrap_of_inner?_eq_some hw hinner] at h
    obtain ⟨⟨later, core⟩, hcore, heq⟩ := Option.map_eq_some_iff.1 h
    cases heq
    rcases List.mem_append.1 hx with hx | hx
    · have hdecorator := (passedOn_sublist node).subset hx
      exact ⟨contains_of_mem_decorators hdecorator, (mem_children_of_mem_decorators hdecorator).2⟩
    · have hlater := ih hcore hx
      exact ⟨.of_child (mem_children_of_inner? hinner) hlater.1, hlater.2⟩

/-- What is wrapped is no decorator, unless the core is one. -/
theorem kind_ne_decorator_of_unwrap {exports : List Node} {core : Node}
    (h : node.unwrap = some (exports, core)) (hcore : core.kind ≠ "decorator") :
    node.kind ≠ "decorator" := by
  intro hkind
  have hsingle : node.isWrapper = false := by
    rw [isWrapper, hkind]
    decide
  rw [unwrap_of_not_wrapper hsingle] at h
  cases h
  exact hcore hkind

/-- The decorators of the exports around a core and of the core itself are apart. -/
theorem WellSpanned.unwrap_apart (hspanned : node.WellSpanned code) {exports : List Node}
    {core : Node} (h : node.unwrap = some (exports, core)) (hkind : core.kind ≠ "decorator") :
    (exports ++ core.decorators).Pairwise Apart := by
  induction node using unwrap_induction generalizing exports with
  | single node hw =>
    rw [unwrap_of_not_wrapper hw] at h
    cases h
    exact hspanned.children_apart.sublist (decorators_sublist core)
  | empty node hw hinner =>
    rw [unwrap_of_inner?_eq_none hw hinner] at h
    cases h
  | wrapper node inner hw hinner ih =>
    rw [unwrap_of_inner?_eq_some hw hinner] at h
    obtain ⟨⟨later, core⟩, hcore, heq⟩ := Option.map_eq_some_iff.1 h
    cases heq
    have hchild := mem_children_of_inner? hinner
    have hin : inner.WellSpanned code := hspanned.of_contains (.of_child hchild (.refl inner))
    rw [List.append_assoc, List.pairwise_append]
    refine ⟨hspanned.children_apart.sublist ((passedOn_sublist node).trans
      (decorators_sublist node)), ih hin hcore, ?_⟩
    -- A decorator of the export is another child than the one that is wrapped.
    intro x hx y hy
    obtain ⟨hxchild, hxkind⟩ :=
      mem_children_of_mem_decorators ((passedOn_sublist node).subset hx)
    have hne : x ≠ inner := by
      rintro rfl
      exact kind_ne_decorator_of_unwrap hcore hkind hxkind
    have hyinner : inner.Contains y := by
      rcases List.mem_append.1 hy with hy | hy
      · exact (mem_exports hcore hy).1
      · exact (unwrap_eq_some hcore).1.trans (contains_of_mem_decorators hy)
    exact Apart.of_contains (hspanned.children_apart.forall hxchild hchild hne)
      (hspanned.of_contains (.of_child hxchild (.refl x))) hin (.refl x) hyinner

/-- An attached decorator was waiting or lies in one of the siblings. -/
theorem mem_attached {before rest : List Node} (h : x ∈ attached before rest) :
    x ∈ waiting before ∨ ∃ sibling ∈ rest, sibling.Contains x ∧ x.kind = "decorator" := by
  induction rest using siblings_induction generalizing before with
  | nil => simp at h
  | cons node rest ihbody ihrest =>
    have hlater (hx : x ∈ attached (before ++ [node]) rest) : x ∈ waiting before ∨
        ∃ sibling ∈ node :: rest, sibling.Contains x ∧ x.kind = "decorator" := by
      rcases ihrest hx with hwait | ⟨sibling, hsibling, hcontains⟩
      · rw [waiting_concat, pendingAfter] at hwait
        split_ifs at hwait
        · rcases List.mem_append.1 hwait with hold | hheld
          · exact .inl hold
          · exact .inr ⟨node, List.mem_cons_self, mem_held hheld⟩
        · cases hwait
      · exact .inr ⟨sibling, List.mem_cons_of_mem _ hsibling, hcontains⟩
    cases hdeclares : node.declares with
    | false =>
      rw [attached_cons_of_not_declares hdeclares] at h
      exact hlater h
    | true =>
      obtain ⟨hw, exports, core, hcore, hrole⟩ := declares_eq_true hdeclares
      rcases hrole with ⟨kind, hrole⟩ | ⟨kind, hrole⟩
      · rw [attached_cons_of_container hw hcore hrole, List.mem_append] at h
        rcases h with h | h
        · obtain hnone | ⟨sibling, hsibling, hcontains, hkind⟩ := ihbody exports core hcore h
          · cases hnone
          · exact .inr ⟨node, List.mem_cons_self, ((unwrap_eq_some hcore).1.trans
              (contains_of_mem_body hsibling)).trans hcontains, hkind⟩
        · exact hlater h
      · rw [attached_cons_of_decorated hw hcore hrole, List.mem_append, List.mem_append,
          List.mem_append] at h
        rcases h with ((h | h) | h) | h
        · exact .inl h
        · exact .inr ⟨node, List.mem_cons_self, mem_exports hcore h⟩
        · exact .inr ⟨node, List.mem_cons_self, (unwrap_eq_some hcore).1.trans
            (contains_of_mem_decorators h), (mem_children_of_mem_decorators h).2⟩
        · exact hlater h

theorem kind_ne_decorator_of_decorated {kind : DeclarationKind}
    (h : NodeRole.ofKind node.kind = .decorated kind) : node.kind ≠ "decorator" := by
  intro hkind
  have hunknown : NodeRole.ofKind "decorator" = .unknown := by decide
  rw [hkind, hunknown] at h
  cases h

theorem mem_own {exports : List Node} {core : Node} (hcore : node.unwrap = some (exports, core))
    (hx : x ∈ exports ++ core.decorators) : node.Contains x := by
  rcases List.mem_append.1 hx with hx | hx
  · exact (mem_exports hcore hx).1
  · exact (unwrap_eq_some hcore).1.trans (contains_of_mem_decorators hx)

section Siblings

variable {before rest : List Node}
  (hspanned : ∀ sibling ∈ before ++ node :: rest, sibling.WellSpanned code)
  (hordered : (before ++ node :: rest).Pairwise fun a b => a.stop ≤ b.start)
include hspanned hordered

theorem apart_of_waiting {sibling : Node} (hx : x ∈ waiting before)
    (hsibling : sibling ∈ node :: rest) (hy : sibling.Contains y) : Apart x y := by
  obtain ⟨earlier, hearlier, hxearlier, -⟩ := mem_waiting hx
  have hle := (List.pairwise_append.1 hordered).2.2 earlier hearlier sibling hsibling
  exact Apart.of_contains (.inl hle) (hspanned earlier (List.mem_append_left _ hearlier))
    (hspanned sibling (List.mem_append_right _ hsibling)) hxearlier hy

/-- What a member takes lies before everything that the later siblings get. -/
theorem apart_of_later (hw : node.waits = false) (hx : x ∈ waiting before ∨ node.Contains x)
    (hy : y ∈ attached (before ++ [node]) rest) : Apart x y := by
  obtain hwait | ⟨sibling, hsibling, hysibling, -⟩ := mem_attached hy
  · rw [waiting_concat_of_not_waits before hw] at hwait
    cases hwait
  · rcases hx with hx | hx
    · exact apart_of_waiting hspanned hordered hx (List.mem_cons_of_mem _ hsibling) hysibling
    · have hrest := (List.pairwise_append.1 hordered).2.1
      have hle := (List.pairwise_cons.1 hrest).1 sibling hsibling
      exact Apart.of_contains (.inl hle) (hspanned node (by simp)) (hspanned sibling
        (by simp [hsibling])) hx hysibling

/-- The decorators that one declaration takes are apart. -/
theorem taken_apart {exports : List Node} {core : Node}
    (hcore : node.unwrap = some (exports, core)) (hkind : core.kind ≠ "decorator") :
    (waiting before ++ (exports ++ core.decorators)).Pairwise Apart := by
  rw [List.pairwise_append]
  refine ⟨?_, (hspanned node (by simp)).unwrap_apart hcore hkind, ?_⟩
  · exact waiting_apart (fun sibling hs => hspanned sibling (List.mem_append_left _ hs))
      (List.pairwise_append.1 hordered).1
  · intro x hx y hy
    exact apart_of_waiting hspanned hordered hx List.mem_cons_self (mem_own hcore hy)

end Siblings

/-- No two attached decorators overlap. -/
theorem attached_apart {before rest : List Node}
    (hspanned : ∀ sibling ∈ before ++ rest, sibling.WellSpanned code)
    (hordered : (before ++ rest).Pairwise fun a b => a.stop ≤ b.start) :
    (attached before rest).Pairwise Apart := by
  induction rest using siblings_induction generalizing before with
  | nil => simp
  | cons node rest ihbody ihrest =>
    have hlater : (attached (before ++ [node]) rest).Pairwise Apart := by
      apply ihrest <;> rw [List.append_assoc]
      · exact hspanned
      · exact hordered
    cases hdeclares : node.declares with
    | false =>
      rw [attached_cons_of_not_declares hdeclares]
      exact hlater
    | true =>
      obtain ⟨hw, exports, core, hcore, hrole⟩ := declares_eq_true hdeclares
      rcases hrole with ⟨kind, hrole⟩ | ⟨kind, hrole⟩
      · have hcontains := (unwrap_eq_some hcore).1
        have hspancore := (hspanned node (by simp)).of_contains hcontains
        rw [attached_cons_of_container hw hcore hrole, List.pairwise_append]
        refine ⟨ihbody exports core hcore ?_ hspancore.body_ordered, hlater, ?_⟩
        · intro sibling hsibling
          exact hspancore.of_contains (contains_of_mem_body hsibling)
        · intro x hx y hy
          obtain hnone | ⟨sibling, hsibling, hxsibling, -⟩ := mem_attached hx
          · cases hnone
          · have hxnode := (hcontains.trans (contains_of_mem_body hsibling)).trans hxsibling
            exact apart_of_later hspanned hordered hw (.inr hxnode) hy
      · rw [attached_cons_of_decorated hw hcore hrole, List.append_assoc (waiting before),
          List.pairwise_append]
        refine ⟨?_, hlater, ?_⟩
        · exact taken_apart hspanned hordered hcore (kind_ne_decorator_of_decorated hrole)
        · intro x hx y hy
          exact apart_of_later hspanned hordered hw
            ((List.mem_append.1 hx).imp_right (mem_own hcore)) hy

end Syntax.Node

end DecoratorVeil
