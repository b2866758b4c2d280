import DecoratorVeil.Proofs.Declaration.Reached

/-!
# Which errors are forgiven

The search for errors judges an error node by its named children and enters none of them.  So all
errors of a tree that is read are stray decorators, but for what error nodes hide in anonymous
children and in comments.
-/

namespace DecoratorVeil

namespace Syntax.Node

/-- No node of the tree is missing, and every error node stands directly in a list of members and
has no children, named or not, but decorators and comments. -/
structure OnlyStray (root : Node) : Prop where
  present : ∀ node, root.Contains node → node.missing = false
  root_kind : root.kind ≠ errorKind
  placed : ∀ parent, root.Contains parent → ∀ child ∈ parent.children,
    child.kind = errorKind → parent.kind ∈ memberListKinds
  holds : ∀ node, root.Contains node → node.kind = errorKind → ∀ child ∈ node.children,
    child.kind = "decorator" ∨ child.isComment = true

/-- A child of an error node that its judgement does not depend on. -/
def isOverlooked (child : Node) : Bool := !child.named || child.isComment

/-- What is overlooked in error nodes is a decorator or a comment, and free of errors. -/
def OverlooksNothing (root : Node) : Prop :=
  ∀ node, root.Contains node → node.kind = errorKind → ∀ child ∈ node.children,
    child.isOverlooked = true →
      child.hasError = false ∧ (child.kind = "decorator" ∨ child.isComment = true)

instance (root : Node) : Decidable root.OverlooksNothing :=
  inferInstanceAs (Decidable (∀ node, root.Contains node → node.kind = errorKind →
    ∀ child ∈ node.children, child.isOverlooked = true →
      child.hasError = false ∧ (child.kind = "decorator" ∨ child.isComment = true)))

variable {root node child : Node} {above : Option String}

theorem FlagsConsistent.of_contains (hroot : root.FlagsConsistent) (h : root.Contains node) :
    node.FlagsConsistent :=
  fun inner hinner => hroot inner (h.trans hinner)

/-- A node that is rightly not flagged is no error, and has no flagged children. -/
theorem FlagsConsistent.of_hasError_eq_false (hnode : node.FlagsConsistent)
    (h : node.hasError = false) : node.missing = false ∧ node.kind ≠ errorKind ∧
      ∀ child ∈ node.children, child.hasError = false := by
  rw [hnode node (.refl node), flagOf, Bool.or_eq_false_iff, Bool.or_eq_false_iff,
    List.any_eq_false] at h
  obtain ⟨⟨hkind, hmissing⟩, hchildren⟩ := h
  exact ⟨hmissing, by simpa using hkind, fun child hchild => by simpa using hchildren child hchild⟩

/-- Nothing at or below a node that is rightly not flagged is an error. -/
theorem FlagsConsistent.clean_below (hroot : root.FlagsConsistent) (h : root.hasError = false)
    (hnode : root.Contains node) : node.hasError = false := by
  induction hnode with
  | refl => exact h
  | tail hparent hchild ih =>
    exact ((hroot.of_contains hparent).of_hasError_eq_false ih).2.2 _ hchild

/-- A child of an error node with stray decorators is overlooked or a decorator without errors. -/
theorem HoldsStray.child_cases (h : node.HoldsStray) (hchild : child ∈ node.children) :
    child.isOverlooked = true ∨ child.kind = "decorator" ∧ child.hasError = false := by
  cases hnamed : child.named with
  | false => simp [isOverlooked, hnamed]
  | true =>
    have hmem : child ∈ node.namedChildren := List.mem_filter.2 ⟨hchild, hnamed⟩
    rcases h.1 child hmem with hcomment | hdecorator
    · simp [isOverlooked, hcomment]
    · exact .inr hdecorator

section Readable

variable (hroot : root.FlagsConsistent)
  (hsafe : ∀ above node, Exposed root above node → ¬ Fatal above node)
include hsafe

theorem missing_of_exposed (h : Exposed root above node) : node.missing = false := by
  cases hmissing : node.missing with
  | false => rfl
  | true => exact absurd (.inl hmissing) (hsafe above node h)

theorem error_of_exposed (h : Exposed root above node) (hkind : node.kind = errorKind) :
    (∃ kind ∈ memberListKinds, above = some kind) ∧ node.HoldsStray := by
  have hfatal := hsafe above node h
  simp only [Fatal, hkind, true_and, not_or, not_not] at hfatal
  obtain ⟨-, hsome, hplace, hstray⟩ := hfatal
  obtain ⟨kind, rfl⟩ := Option.ne_none_iff_exists'.1 hsome
  refine ⟨⟨kind, ?_, rfl⟩, hstray⟩
  by_contra hkind
  exact hplace ⟨kind, rfl, hkind⟩

/-- If nothing is overlooked, an error node holds decorators and comments without errors. -/
theorem error_children (hall : root.OverlooksNothing) (h : Exposed root above node)
    (hkind : node.kind = errorKind) (hchild : child ∈ node.children) :
    child.hasError = false ∧ (child.kind = "decorator" ∨ child.isComment = true) := by
  rcases (error_of_exposed hsafe h hkind).2.child_cases hchild with hover | ⟨hdecorator, hclean⟩
  · exact hall node h.contains hkind child hchild hover
  · exact ⟨hclean, .inl hdecorator⟩

include hroot

/-- If nothing is overlooked, every error stands outside of all error nodes. -/
theorem exposed_or_clean (hall : root.OverlooksNothing) (h : root.Contains node) :
    (∃ above, Exposed root above node) ∨ node.hasError = false := by
  induction h with
  | refl => exact .inl ⟨none, .root⟩
  | @tail parent child hparent hchild ih =>
    rcases ih with ⟨above, hexposed⟩ | hclean
    · by_cases hkind : parent.kind = errorKind
      · exact .inr (error_children hsafe hall hexposed hkind hchild).1
      · exact .inl ⟨some parent.kind, .child hexposed hkind hchild⟩
    · exact .inr (((hroot.of_contains hparent).of_hasError_eq_false hclean).2.2 child hchild)

theorem onlyStray_of_overlooksNothing (hall : root.OverlooksNothing) : root.OnlyStray where
  present := by
    intro node hnode
    rcases exposed_or_clean hroot hsafe hall hnode with ⟨above, hexposed⟩ | hclean
    · exact missing_of_exposed hsafe hexposed
    · exact ((hroot.of_contains hnode).of_hasError_eq_false hclean).1
  root_kind := by
    intro hkind
    obtain ⟨⟨kind, -, habove⟩, -⟩ := error_of_exposed hsafe .root hkind
    cases habove
  placed := by
    intro parent hparent child hchild hkind
    have hflags := hroot.of_contains (hparent.step hchild)
    have hflagged : child.hasError ≠ false :=
      fun hclean => (hflags.of_hasError_eq_false hclean).2.1 hkind
    rcases exposed_or_clean hroot hsafe hall hparent with ⟨above, hexposed⟩ | hclean
    · have herror : parent.kind ≠ errorKind :=
        fun h => hflagged (error_children hsafe hall hexposed h hchild).1
      obtain ⟨⟨kind, hmem, hsome⟩, -⟩ :=
        error_of_exposed hsafe (.child hexposed herror hchild) hkind
      cases hsome
      exact hmem
    · exact absurd (((hroot.of_contains hparent).of_hasError_eq_false hclean).2.2 child hchild)
        hflagged
  holds := by
    intro node hnode hkind child hchild
    rcases exposed_or_clean hroot hsafe hall hnode with ⟨above, hexposed⟩ | hclean
    · exact (error_children hsafe hall hexposed hkind hchild).2
    · exact absurd hkind ((hroot.of_contains hnode).of_hasError_eq_false hclean).2.1

end Readable

end Syntax.Node

namespace SourceReader
open Syntax Syntax.Node Declaration

/-- A tree that is not refused has no fatal node. -/
theorem not_fatal_of_read {root : Node} (hroot : root.FlagsConsistent) {code fileName : String}
    (hread : ∀ message, (declarations root code fileName).outcome ≠ .error (.dialect message)) :
    ∀ above node, Exposed root above node → ¬ Fatal above node := by
  intro above node hexposed hfatal
  have hreadable := (readable_eq_false_iff hroot).2 ⟨above, node, hexposed, hfatal⟩
  obtain ⟨message, hmessage⟩ := (exists_dialect_iff root code fileName).2 hreadable
  exact hread message hmessage

/-- In a tree that is not refused, nothing outside of error nodes is missing, error nodes stand in
lists of members, and their named children are comments and decorators without any error.  If
nothing is overlooked in them, all errors of the tree are stray decorators. -/
theorem forgiven_errors_stray {root : Node} (hroot : root.FlagsConsistent) {code fileName : String}
    (hread : ∀ message, (declarations root code fileName).outcome ≠ .error (.dialect message)) :
    (∀ above node, Exposed root above node → node.missing = false ∧
      (node.kind = errorKind → (∃ kind ∈ memberListKinds, above = some kind) ∧
        ∀ child ∈ node.namedChildren, child.isComment = true ∨ child.kind = "decorator" ∧
          ∀ inner, child.Contains inner → inner.missing = false ∧ inner.kind ≠ errorKind)) ∧
    (root.OverlooksNothing → root.OnlyStray) := by
  have hsafe := not_fatal_of_read hroot hread
  refine ⟨fun above node hexposed => ⟨missing_of_exposed hsafe hexposed, fun hkind => ?_⟩,
    onlyStray_of_overlooksNothing hroot hsafe⟩
  obtain ⟨hplace, hstray⟩ := error_of_exposed hsafe hexposed hkind
  refine ⟨hplace, fun child hchild => (hstray.1 child hchild).imp_right ?_⟩
  rintro ⟨hdecorator, hclean⟩
  have hcontains := hexposed.contains.step (mem_children_of_mem_namedChildren hchild)
  have hflags := hroot.of_contains hcontains
  refine ⟨hdecorator, fun inner hinner => ?_⟩
  have hbelow := (hflags.of_contains hinner).of_hasError_eq_false
    (hflags.clean_below hclean hinner)
  exact ⟨hbelow.1, hbelow.2.1⟩

/-- The tree of a function after an error node with a decorator and one more child. -/
def strayBeside (other : Node) : Node :=
  .branch "program" 0 (other.stop + 16)
    [.branch errorKind 0 other.stop [.branch "decorator" 0 2 [], other],
      .branch "function_declaration" (other.stop + 1) (other.stop + 16) []]

def besideComment : Node := strayBeside (.branch "comment" 3 7 [])

/-- A comment beside the decorator of an error node. -/
theorem forgiven_errors_stray_comment :
    besideComment.FlagsConsistent ∧ besideComment.OnlyStray := by
  have hflags : besideComment.FlagsConsistent := by decide +kernel
  obtain ⟨tree, htree⟩ := exists_eq_ok (x := (declarations besideComment
    "@a /**/ function f() {}" "input.ts").outcome) (by decide +kernel)
  have hread : ∀ message, (declarations besideComment "@a /**/ function f() {}"
      "input.ts").outcome ≠ .error (.dialect message) := by
    simp [htree]
  exact ⟨hflags, (forgiven_errors_stray hflags hread).2 (by decide +kernel)⟩

def parenthesis : Node := { Node.branch ")" 3 4 [] with named := false }

/-- A parenthesis beside the decorator is forgiven, because it is anonymous. -/
theorem parenthesis_forgiven :
    (strayBeside parenthesis).FlagsConsistent ∧
      (∀ message, (declarations (strayBeside parenthesis) "@a ) function f() {}"
        "input.ts").outcome ≠ .error (.dialect message)) ∧
      ¬ (strayBeside parenthesis).OnlyStray := by
  obtain ⟨tree, htree⟩ := exists_eq_ok (x := (declarations (strayBeside parenthesis)
    "@a ) function f() {}" "input.ts").outcome) (by decide +kernel)
  refine ⟨by decide +kernel, by simp [htree], fun honly => ?_⟩
  have hholds := honly.holds _ (.of_child List.mem_cons_self (.refl _)) rfl parenthesis
    (List.mem_cons_of_mem _ List.mem_cons_self)
  revert hholds
  decide

end SourceReader

end DecoratorVeil
