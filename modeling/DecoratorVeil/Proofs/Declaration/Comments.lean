import DecoratorVeil.Locate
import DecoratorVeil.Proofs.Syntax.Comments
import Mathlib.Logic.Relation

/-!
# Comments make no difference

Reading a text by its syntax tree gives the same declarations, or the same failure, with and without
plain comments in the tree.  The one exception is a comment beside a namespace that is read as an
expression: it hides the namespace with all its members.
-/

namespace DecoratorVeil

namespace Declaration
open Syntax Syntax.Node

variable {source : SourceText}

theorem rangeOf_withoutComments (source : SourceText) (node : Node) :
    rangeOf source node.withoutComments = rangeOf source node := by
  simp [rangeOf]

theorem mapM_rangeOf_withoutComments (source : SourceText) (nodes : List Node) :
    (nodes.map withoutComments).mapM (rangeOf source) = nodes.mapM (rangeOf source) := by
  induction nodes with
  | nil => rfl
  | cons node nodes ih =>
    rw [List.map_cons, List.mapM_cons, List.mapM_cons, rangeOf_withoutComments, ih]

theorem nameOf_withoutComments (source : SourceText) (node : Node) :
    nameOf source node.withoutComments = nameOf source node := by
  rw [nameOf, nameOf, child?_withoutComments]
  cases node.child? "name" with
  | none => rfl
  | some name => simp [bytesOf]

/-- The siblings in a body are those that were there, less some comments. -/
theorem body_withoutComments (node : Node) :
    ∃ keep : Node → Bool, (∀ child, keep child = false → child.isPlainComment = true) ∧
      node.withoutComments.body = (node.body.filter keep).map withoutComments := by
  rw [Node.body, Node.body, child?_withoutComments]
  cases node.child? "body" with
  | none => exact ⟨fun _ => true, by simp, rfl⟩
  | some inside =>
    exact ⟨inside.keeps, fun _ => isPlainComment_of_not_keeps, namedChildren_withoutComments inside⟩

/-- A node becomes the same declaration without comments if its body becomes the same members. -/
theorem ofNode_withoutComments (decorators : List Node) (node : Node)
    (hbody : ∀ exports core, node.unwrap = some (exports, core) →
      membersFrom source [] core.withoutComments.body = membersFrom source [] core.body) :
    ofNode source (decorators.map withoutComments) node.withoutComments =
      ofNode source decorators node := by
  have hunwrap := unwrap_withoutComments node
  cases hcore : node.unwrap with
  | none =>
    rw [hcore, Option.map_none] at hunwrap
    rw [ofNode_of_unwrap_eq_none hcore, ofNode_of_unwrap_eq_none hunwrap]
  | some unwrapped =>
    obtain ⟨exports, core⟩ := unwrapped
    rw [hcore, Option.map_some] at hunwrap
    have hsingle := (unwrap_eq_some hcore).2
    rw [ofNode_of_unwrap hcore, ofNode_of_unwrap hunwrap, ← List.map_append]
    cases hrole : NodeRole.ofKind core.kind with
    | container kind =>
      rw [ofNode_container hrole, ofNode_container (by simpa using hrole), nameOf_withoutComments,
        hbody exports core hcore]
    | decorated kind =>
      rw [ofNode_decorated hrole, ofNode_decorated (by simpa using hrole), nameOf_withoutComments,
        decorators_withoutComments, ← List.map_append, mapM_rangeOf_withoutComments]
    | skipped => rw [ofNode_skipped hrole, ofNode_skipped (by simpa using hrole)]
    | unknown =>
      rw [ofNode_unknown hrole, ofNode_unknown (by simpa using hrole), kind_withoutComments,
        start_withoutComments]
    | exported | ambient | expression => simp [isWrapper, hrole] at hsingle

/-- A plain comment among siblings has no effect. -/
theorem membersFrom_cons_of_isPlainComment {pending rest : List Node} {comment : Node}
    (h : comment.isPlainComment = true) :
    membersFrom source pending (comment :: rest) = membersFrom source pending rest := by
  have hcomment := isComment_of_isPlainComment h
  have hheld : comment.held = [] := by
    have hstray : comment.strayDecorators? = none := by
      rcases kind_of_isPlainComment h with hkind | hkind <;>
        simp [strayDecorators?, hkind, errorKind]
    simp [held, not_decorator_of_isPlainComment h, hstray]
  rw [membersFrom_cons_of_waits (by simp [waits, hcomment]), hheld, List.append_nil]

/-- A list of siblings becomes the same members when some or all of its comments are left out, and
with them all comments below. -/
theorem membersFrom_withoutComments {keep : Node → Bool} (pending siblings : List Node)
    (hkeep : ∀ child, keep child = false → child.isPlainComment = true) :
    membersFrom source (pending.map withoutComments)
      ((siblings.filter keep).map withoutComments) = membersFrom source pending siblings := by
  induction siblings using siblings_induction generalizing keep pending with
  | nil => simp
  | cons node rest ihbody ihrest =>
    cases hnode : keep node with
    | false =>
      rw [List.filter_cons_of_neg (by simp [hnode]), ihrest pending hkeep,
        membersFrom_cons_of_isPlainComment (hkeep node hnode)]
    | true =>
      rw [List.filter_cons_of_pos hnode, List.map_cons]
      cases hw : node.waits with
      | true =>
        rw [membersFrom_cons_of_waits hw,
          membersFrom_cons_of_waits ((waits_withoutComments node).trans hw), held_withoutComments,
          ← List.map_append, ihrest _ hkeep]
      | false =>
        have hrest := ihrest [] hkeep
        have hbody : ∀ exports core, node.unwrap = some (exports, core) →
            membersFrom source [] core.withoutComments.body = membersFrom source [] core.body := by
          intro exports core hcore
          obtain ⟨kept, hkept, heq⟩ := body_withoutComments core
          rw [heq]
          exact ihbody exports core hcore [] hkept
        rw [membersFrom_cons_of_not_waits hw,
          membersFrom_cons_of_not_waits ((waits_withoutComments node).trans hw),
          ofNode_withoutComments pending node hbody]
        rw [List.map_nil] at hrest
        rw [hrest]

theorem ofRoot_withoutComments (source : SourceText) (root : Node) :
    ofRoot source root.withoutComments = ofRoot source root := by
  have hmembers : membersFrom source [] root.withoutComments.namedChildren =
      membersFrom source [] root.namedChildren := by
    rw [namedChildren_withoutComments]
    exact membersFrom_withoutComments [] _ fun _ => isPlainComment_of_not_keeps
  rw [ofRoot, ofRoot, hmembers]

end Declaration

namespace SourceReader
open Syntax Syntax.Node Declaration

theorem declarations_withoutComments (root : Node) (code fileName : String) :
    declarations root.withoutComments code fileName = declarations root code fileName := by
  rw [declarations, declarations, readable_withoutComments, ofRoot_withoutComments]

/-- Plain comments may be inserted and deleted anywhere in a tree but beside a namespace in an
expression: the same declarations or the same failure come out, and the same text is marked. -/
theorem comments_transparent {a b : Node}
    (h : Relation.EqvGen (InsertsComment fun node => node.wrapsNamespace = false) a b)
    (code fileName : String) :
    declarations a code fileName = declarations b code fileName ∧
      locate (ofSyntax fun _ => a) code = locate (ofSyntax fun _ => b) code ∧
      markCode (ofSyntax fun _ => a) code = markCode (ofSyntax fun _ => b) code := by
  have hsame : a.withoutComments = b.withoutComments := by
    induction h with
    | rel a b hab => exact hab.withoutComments_eq
    | refl a => rfl
    | symm a b _ ih => exact ih.symm
    | trans a b c _ _ hab hbc => exact hab.trans hbc
  have hread (code fileName : String) :
      declarations a code fileName = declarations b code fileName := by
    rw [← declarations_withoutComments, hsame, declarations_withoutComments]
  have hreader : (ofSyntax fun _ => a) = ofSyntax fun _ => b := by
    funext code fileName
    exact hread code fileName
  exact ⟨hread code fileName, by rw [hreader], by rw [hreader]⟩

def namespaceText : String := "namespace N /* b */ { @a function f() {} } /* c */;"

/-- The tree of the text, with the comments that are given: some before the body of the namespace
and some after the namespace. -/
def namespaceTree (inner outer : List Node) : Node :=
  .branch "program" 0 51 [.branch "expression_statement" 0 51
    (.branch "internal_module" 0 42 ((Node.branch "identifier" 10 11 []).withField "name" ::
      (inner ++ [(Node.branch "statement_block" 20 42
        [.branch errorKind 22 24 [.branch "decorator" 22 24 []],
          .branch "function_declaration" 25 40
            [(Node.branch "identifier" 34 35 []).withField "name"]]).withField "body"])) ::
      (outer ++ [{ Node.branch ";" 50 51 [] with named := false }]))]

/-- A comment between the name and the body makes no difference. -/
theorem comments_transparent_before_body :
    InsertsComment (fun node => node.wrapsNamespace = false) (namespaceTree [] [])
        (namespaceTree [.branch "comment" 12 19 []] []) ∧
      locate (ofSyntax fun _ => namespaceTree [] []) namespaceText =
        locate (ofSyntax fun _ => namespaceTree [.branch "comment" 12 19 []] []) namespaceText := by
  have hinserts : InsertsComment (fun node => node.wrapsNamespace = false) (namespaceTree [] [])
      (namespaceTree [.branch "comment" 12 19 []] []) := by
    refine insertsComment_branch_inside [] [] (insertsComment_branch_inside [] [_] ?_)
    exact insertsComment_branch [_] [_] (by decide) (by decide)
  exact ⟨hinserts, (comments_transparent (.rel _ _ hinserts) namespaceText "input.ts").2.1⟩

/-- A comment after the namespace hides it, and its decorators are no longer located. -/
theorem namespace_hidden_by_comment :
    InsertsComment (fun _ => True) (namespaceTree [] [])
        (namespaceTree [] [.branch "comment" 43 50 []]) ∧
      (locate (ofSyntax fun _ => namespaceTree [] []) namespaceText).outcome =
        .ok (some [⟨22, 24⟩]) ∧
      (locate (ofSyntax fun _ => namespaceTree [] [.branch "comment" 43 50 []])
        namespaceText).outcome = .ok (some []) := by
  refine ⟨?_, by decide +kernel, by decide +kernel⟩
  refine insertsComment_branch_inside [] [] ?_
  exact insertsComment_branch [_] [_] trivial (by decide)

end SourceReader

end DecoratorVeil
