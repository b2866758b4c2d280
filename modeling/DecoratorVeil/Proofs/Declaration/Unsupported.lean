import DecoratorVeil.Proofs.Declaration.Inspected
import DecoratorVeil.Proofs.Locate

/-!
# Kinds that have no rule

A node of a kind that has no rule stops the conversion, if it is inspected.  Where all spans lie
between characters nothing else stops it, so a text is refused exactly if an inspected node is
unsupported, and the first one in document order is named.
-/

namespace DecoratorVeil

namespace Syntax.Node
open Declaration

/-- A node whose kind is none of the wrappers, containers, decorated declarations and skipped
nodes. -/
def Unsupported (node : Node) : Prop :=
  node.kind ∉ ["export_statement", "ambient_declaration", "expression_statement"] ∧
    containerKind? node.kind = none ∧ decoratedKind? node.kind = none ∧ node.kind ∉ skippedKinds

instance : DecidablePred Unsupported :=
  fun _ => inferInstanceAs (Decidable (_ ∧ _ ∧ _ ∧ _))

theorem unsupported_iff (node : Node) :
    node.Unsupported ↔ NodeRole.ofKind node.kind = .unknown := by
  unfold Unsupported NodeRole.ofKind
  by_cases hexport : node.kind = "export_statement"
  · simp [hexport]
  by_cases hambient : node.kind = "ambient_declaration"
  · simp [hambient]
  by_cases hexpression : node.kind = "expression_statement"
  · simp [hexpression]
  cases hcontainer : containerKind? node.kind with
  | some kind => simp [hexport, hambient, hexpression]
  | none =>
    cases hdecorated : decoratedKind? node.kind with
    | some kind => simp [hexport, hambient, hexpression]
    | none => simp [hexport, hambient, hexpression]

/-- All spans of a tree start and end between characters of the text. -/
def OnBoundaries (code : List Char) (root : Node) : Prop :=
  ∀ node, root.Contains node →
    Text.Utf8.Boundary code node.start ∧ Text.Utf8.Boundary code node.stop

instance (code : List Char) (root : Node) : Decidable (root.OnBoundaries code) :=
  inferInstanceAs (Decidable (∀ node, root.Contains node →
    Text.Utf8.Boundary code node.start ∧ Text.Utf8.Boundary code node.stop))

def Measured (source : SourceText) (nodes : List Node) : Prop :=
  ∀ node ∈ nodes, ∃ range, rangeOf source node = .ok range

section Boundaries

variable {code : String} {root node : Node}

theorem OnBoundaries.of_contains (h : root.OnBoundaries code.toList) (hn : root.Contains node) :
    node.OnBoundaries code.toList :=
  fun inner hinner => h inner (hn.trans hinner)

theorem OnBoundaries.of_child (h : root.OnBoundaries code.toList) (hn : node ∈ root.children) :
    node.OnBoundaries code.toList :=
  h.of_contains (.of_child hn (.refl node))

theorem exists_rangeOf (h : node.OnBoundaries code.toList) :
    ∃ range, rangeOf (.ofString code) node = .ok range := by
  obtain ⟨⟨start, hstart, hfirst⟩, stop, hstop, hlast⟩ := h node (.refl node)
  exact ⟨_, rangeOf_of_byteOffset hstart hstop hfirst hlast⟩

/-- The bytes between two boundaries can be decoded, whichever comes first. -/
theorem exists_decode?_bytesOf (h : node.OnBoundaries code.toList) :
    ∃ chars, Text.Utf8.decode? (bytesOf (.ofString code) node) = some chars := by
  obtain ⟨⟨start, hstart, hfirst⟩, stop, hstop, hlast⟩ := h node (.refl node)
  by_cases hle : start ≤ stop
  · refine ⟨(code.toList.drop start).take (stop - start), ?_⟩
    rw [bytesOf, hfirst, hlast]
    change Text.Utf8.decode? (((Text.Utf8.encode code.toList).drop _).take _) = _
    rw [← Text.Utf8.encode_slice code.toList hle, Text.Utf8.decode?_encode]
  · have hback : node.stop - node.start = 0 := by
      have := (Text.Utf8.byteOffset_le_byteOffset_iff code.toList hstop hstart).2 (by omega)
      omega
    refine ⟨[], ?_⟩
    rw [bytesOf, hback, List.take_zero]
    exact Text.Utf8.decode?_encode []

theorem exists_nameOf (h : node.OnBoundaries code.toList) :
    ∃ name, nameOf (.ofString code) node = .ok name := by
  unfold nameOf
  cases hname : node.child? "name" with
  | none => exact ⟨none, rfl⟩
  | some name =>
    obtain ⟨chars, hchars⟩ := exists_decode?_bytesOf (h.of_child (mem_children_of_child? hname))
    simp only [hchars]
    split_ifs
    · exact ⟨_, rfl⟩
    · exact ⟨_, rfl⟩

theorem Measured.nil (source : SourceText) : Measured source [] := by
  simp [Measured]

theorem Measured.append {source : SourceText} {first second : List Node}
    (hfirst : Measured source first) (hsecond : Measured source second) :
    Measured source (first ++ second) := by
  intro node hnode
  rcases List.mem_append.1 hnode with h | h
  · exact hfirst node h
  · exact hsecond node h

theorem Measured.exists_mapM {source : SourceText} {nodes : List Node}
    (h : Measured source nodes) : ∃ ranges, nodes.mapM (rangeOf source) = .ok ranges := by
  induction nodes with
  | nil => exact ⟨[], by rw [List.mapM_nil]; rfl⟩
  | cons node nodes ih =>
    obtain ⟨hnode, hnodes⟩ := List.forall_mem_cons.1 h
    obtain ⟨range, hrange⟩ := hnode
    obtain ⟨ranges, hranges⟩ := ih hnodes
    exact ⟨range :: ranges, by rw [List.mapM_cons, hrange, hranges]; rfl⟩

theorem OnBoundaries.measured (h : root.OnBoundaries code.toList) {nodes : List Node}
    (hnodes : ∀ node ∈ nodes, root.Contains node) : Measured (.ofString code) nodes :=
  fun node hnode => exists_rangeOf (h.of_contains (hnodes node hnode))

end Boundaries

end Syntax.Node

namespace Declaration
open Syntax Syntax.Node

structure FirstUnsupported (root : Node) (place : Place) (node : Node) : Prop where
  inspected : Inspects .list root place node
  unsupported : node.Unsupported
  first : ∀ other later, Inspects .list root other later → later.Unsupported →
    other = place ∨ place < other

/-! ## The conversion -/

/-- What comes of nodes that are inspected one after the other. -/
def verdict (found : List (Place × Node)) : Except ConversionError Unit :=
  match found.find? (fun item => item.2.Unsupported) with
  | some (_, node) => .error (.unknownNode node.kind node.start)
  | none => .ok ()

theorem verdict_append (first second : List (Place × Node)) :
    verdict (first ++ second) = verdict first >>= fun _ => verdict second := by
  unfold verdict
  rw [List.find?_append]
  cases first.find? (fun item => item.2.Unsupported) with
  | some found => rfl
  | none => rfl

theorem verdict_map_under (index : Nat) (found : List (Place × Node)) :
    verdict (found.map (under index)) = verdict found := by
  have htest : (fun item : Place × Node => decide item.2.Unsupported) ∘ under index =
      fun item => decide item.2.Unsupported := rfl
  unfold verdict
  rw [List.find?_map, htest]
  cases found.find? (fun item => item.2.Unsupported) <;> rfl

theorem verdict_cons_of_supported {node : Node} (h : ¬ node.Unsupported) (place : Place)
    (found : List (Place × Node)) : verdict ((place, node) :: found) = verdict found := by
  unfold verdict
  rw [List.find?_cons_of_neg (by simpa using h)]

section Verdict

variable {code : String}

/-- The conversion of a node agrees with the verdict, whichever decorators it is given. -/
def Judged (code : String) (node : Node) : Prop :=
  ∀ decorators, Measured (.ofString code) decorators →
    discard (ofNode (.ofString code) decorators node) = verdict (inspectedFrom node)

/-- A list of members is converted as far as its nodes are supported. -/
theorem membersFrom_verdict {children pending : List Node}
    (hchildren : ∀ child ∈ children, child.OnBoundaries code.toList)
    (h : ∀ child ∈ children, Judged code child)
    (hpending : Measured (.ofString code) pending) (index : Nat) :
    discard (membersFrom (.ofString code) pending (children.filter (·.named))) =
      verdict (inspectedAmong index children) := by
  -- The decorators that wait grow on the way, so all that is kept of them is that they have ranges.
  induction children generalizing pending index with
  | nil =>
    rw [List.filter_nil, membersFrom_nil, inspectedAmong]
    rfl
  | cons child rest ih =>
    obtain ⟨hchild, hrest⟩ := List.forall_mem_cons.1 hchildren
    obtain ⟨hconvert, hlater⟩ := List.forall_mem_cons.1 h
    rw [inspectedAmong]
    cases hnamed : child.named with
    | false =>
      rw [List.filter_cons_of_neg (by simp [hnamed]), ih hrest hlater hpending (index + 1)]
      rfl
    | true =>
      rw [List.filter_cons_of_pos hnamed]
      cases hw : child.waits with
      | true =>
        have hheld : Measured (.ofString code) child.held :=
          hchild.measured fun node hnode => (mem_held hnode).1
        rw [membersFrom_cons_of_waits hw, ih hrest hlater (hpending.append hheld) (index + 1)]
        rfl
      | false =>
        rw [membersFrom_cons_of_not_waits hw, if_pos (by decide), verdict_append, verdict_map_under,
          ← hconvert pending hpending, ← ih hrest hlater (Measured.nil _) (index + 1)]
        cases ofNode (.ofString code) pending child with
        | error error => rfl
        | ok converted => cases membersFrom (.ofString code) [] (rest.filter (·.named)) <;> rfl

theorem supported_of_role {node : Node} (h : NodeRole.ofKind node.kind ≠ .unknown) :
    ¬ node.Unsupported :=
  mt (unsupported_iff node).1 h

theorem judged_wrapper {node : Node} (hw : node.isWrapper = true)
    (hnode : node.OnBoundaries code.toList)
    (h : ∀ index inner, node.onward? = some (.member, index, inner) → Judged code inner) :
    Judged code node := by
  intro decorators hdecorators
  have hrole : NodeRole.ofKind node.kind ≠ .unknown := by
    intro hunknown
    simp [isWrapper, hunknown] at hw
  have hmap := onward?_of_wrapper hw
  cases hinner : node.inner? with
  | none =>
    rw [hinner] at hmap
    rw [inspectedFrom_of_none (Option.map_eq_none_iff.1 hmap),
      verdict_cons_of_supported (supported_of_role hrole), ofNode_of_inner?_eq_none hw hinner]
    rfl
  | some inner =>
    rw [hinner] at hmap
    obtain ⟨index, hnext⟩ := exists_onward?_eq hmap
    have hpassed : Measured (.ofString code) node.passedOn :=
      hnode.measured fun x hx => contains_of_mem_decorators ((passedOn_sublist node).subset hx)
    rw [inspectedFrom_of_some hnext, verdict_cons_of_supported (supported_of_role hrole),
      verdict_map_under, ofNode_of_inner?_eq_some hw hinner]
    exact h index inner hnext _ (hdecorators.append hpassed)

theorem judged_container {node : Node} {kind : DeclarationKind}
    (hrole : NodeRole.ofKind node.kind = .container kind) (hnode : node.OnBoundaries code.toList)
    (h : ∀ index body, node.onward? = some (.list, index, body) →
      ∀ child ∈ body.children, Judged code child) : Judged code node := by
  intro decorators _
  have hw : node.isWrapper = false := by simp [isWrapper, hrole]
  have hsupported : ¬ node.Unsupported := supported_of_role (by simp [hrole])
  have hmap := onward?_of_not_wrapper hw
  obtain ⟨name, hname⟩ := exists_nameOf hnode
  rw [if_pos (by simp [containerKind?_of_ofKind hrole])] at hmap
  rw [ofNode_container hrole, hname]
  cases hbody : node.child? "body" with
  | none =>
    rw [hbody] at hmap
    rw [inspectedFrom_of_none (Option.map_eq_none_iff.1 hmap),
      verdict_cons_of_supported hsupported, Node.body, hbody]
    simp only [Option.map_none, Option.getD_none, membersFrom_nil]
    rfl
  | some body =>
    rw [hbody] at hmap
    obtain ⟨index, hnext⟩ := exists_onward?_eq hmap
    have hmembers := membersFrom_verdict
      (fun child => (hnode.of_child (mem_children_of_child? hbody)).of_child)
      (h index body hnext) (Measured.nil _) 0
    rw [inspectedFrom_of_some hnext, verdict_cons_of_supported hsupported, verdict_map_under,
      inspected, ← hmembers, Node.body, hbody]
    simp only [Option.map_some, Option.getD_some, namedChildren]
    cases membersFrom (.ofString code) [] (body.children.filter (·.named)) <;> rfl

theorem judged_leaf {node : Node} (hw : node.isWrapper = false)
    (hrole : ∀ kind, NodeRole.ofKind node.kind ≠ .container kind)
    (hnode : node.OnBoundaries code.toList) : Judged code node := by
  intro decorators hdecorators
  rw [inspectedFrom_of_none (onward?_eq_none hw hrole)]
  cases hcase : NodeRole.ofKind node.kind with
  | decorated kind =>
    have hown : Measured (.ofString code) node.decorators :=
      hnode.measured fun x hx => contains_of_mem_decorators hx
    obtain ⟨name, hname⟩ := exists_nameOf hnode
    obtain ⟨ranges, hranges⟩ := (hdecorators.append hown).exists_mapM
    rw [verdict_cons_of_supported (supported_of_role (by simp [hcase])), ofNode_decorated hcase,
      hranges, hname]
    rfl
  | skipped =>
    rw [verdict_cons_of_supported (supported_of_role (by simp [hcase])), ofNode_skipped hcase]
    rfl
  | unknown =>
    have hunsupported : node.Unsupported := (unsupported_iff node).2 hcase
    rw [ofNode_unknown hcase, verdict, List.find?_cons_of_pos (by simpa using hunsupported)]
    rfl
  | container kind => exact absurd hcase (hrole kind)
  | exported | ambient | expression => simp [isWrapper, hcase] at hw

/-- A member is converted as far as the nodes inspected from it are supported. -/
theorem judged_of_onBoundaries {node : Node} (hnode : node.OnBoundaries code.toList) :
    Judged code node := by
  induction node using onward_induction with
  | step node ihmember ihlist =>
    cases hw : node.isWrapper with
    | true =>
      refine judged_wrapper hw hnode fun index inner hnext => ?_
      exact ihmember index inner hnext (hnode.of_child (mem_children_of_onward? hnext))
    | false =>
      by_cases hrole : ∃ kind, NodeRole.ofKind node.kind = .container kind
      · obtain ⟨kind, hkind⟩ := hrole
        refine judged_container hkind hnode fun index body hnext child hchild => ?_
        have hbody := hnode.of_child (mem_children_of_onward? hnext)
        exact ihlist index body hnext child hchild (hbody.of_child hchild)
      · push Not at hrole
        exact judged_leaf hw hrole hnode

/-- A whole text is converted as far as its inspected nodes are supported. -/
theorem ofRoot_verdict {root : Node} (h : root.OnBoundaries code.toList) :
    discard (ofRoot (.ofString code) root) = verdict (inspected .list root) := by
  have hmembers := membersFrom_verdict (fun child hchild => h.of_child hchild)
    (fun child hchild => judged_of_onBoundaries (h.of_child hchild)) (Measured.nil _) 0
  rw [inspected, ← hmembers, ofRoot, namedChildren]
  cases membersFrom (.ofString code) [] (root.children.filter (·.named)) <;> rfl

end Verdict

/-! ## The first unsupported node -/

theorem verdict_eq_ok_iff (root : Node) :
    verdict (inspected .list root) = .ok () ↔
      ∀ place node, Inspects .list root place node → ¬ node.Unsupported := by
  unfold verdict
  cases hfind : (inspected .list root).find? (fun item => item.2.Unsupported) with
  | none =>
    rw [List.find?_eq_none] at hfind
    refine iff_of_true rfl fun place node hinspected => ?_
    simpa using hfind (place, node) (mem_inspected_iff.2 hinspected)
  | some found =>
    obtain ⟨place, node⟩ := found
    refine iff_of_false (by simp) fun hall => ?_
    have hmem := mem_inspected_iff.1 (List.mem_of_find?_eq_some hfind)
    exact hall place node hmem (by simpa using List.find?_some hfind)

/-- The first node that is found is the first one in document order. -/
theorem exists_firstUnsupported {root : Node} {error : ConversionError}
    (h : verdict (inspected .list root) = .error error) :
    ∃ place node, FirstUnsupported root place node ∧
      error = .unknownNode node.kind node.start := by
  unfold verdict at h
  split at h
  · rename_i place node hfind
    cases h
    refine ⟨place, node, ?_, rfl⟩
    obtain ⟨hunsupported, before, after, hsplit, hbefore⟩ :=
      List.find?_eq_some_iff_append.1 hfind
    have hordered : Ordered (before ++ (place, node) :: after) :=
      hsplit ▸ ordered_inspectedAmong (fun child _ => ordered_inspectedFrom child) 0
    refine ⟨mem_inspected_iff.1 (by simp [hsplit]), by simpa using hunsupported, ?_⟩
    intro other later hinspected hlater
    have hmem := mem_inspected_iff.2 hinspected
    rw [hsplit, List.mem_append, List.mem_cons] at hmem
    rcases hmem with hmem | heq | hmem
    · exact absurd hlater (by simpa using hbefore (other, later) hmem)
    · cases heq
      exact .inl rfl
    · exact .inr ((List.pairwise_cons.1 (List.pairwise_append.1 hordered).2.1).1 _ hmem)
  · cases h

end Declaration

namespace SourceReader
open Syntax Syntax.Node Declaration

/-- A text whose tree is usable and has its spans on boundaries is refused for the sake of a node
exactly if an inspected node is unsupported, and the first one in document order is named.
Otherwise the text is read. -/
theorem unsupported_exact {root : Node} {code : String} (hreadable : root.readable = true)
    (hspans : root.OnBoundaries code.toList) (fileName : String) :
    ((∃ kind, (declarations root code fileName).outcome = .error (.shape kind)) ↔
      ∃ place node, Inspects .list root place node ∧ node.Unsupported) ∧
    ((∃ place node, Inspects .list root place node ∧ node.Unsupported) →
      ∃ place node, FirstUnsupported root place node ∧
        declarations root code fileName =
          ⟨[.log ("No traversal rule for tree-sitter node " ++ node.kind ++ " at byte " ++
            toString node.start)], .error (.shape node.kind)⟩) ∧
    ((∀ place node, Inspects .list root place node → ¬ node.Unsupported) →
      ∃ tree, (declarations root code fileName).outcome = .ok tree) := by
  have hverdict := ofRoot_verdict hspans
  have hread (hall : ∀ place node, Inspects .list root place node → ¬ node.Unsupported) :
      ∃ tree, (declarations root code fileName).outcome = .ok tree := by
    rw [(verdict_eq_ok_iff root).2 hall] at hverdict
    cases hroot : ofRoot (.ofString code) root with
    | ok tree => exact ⟨tree, declarations_eq_ok_iff.2 ⟨hreadable, hroot⟩⟩
    | error error =>
      rw [hroot] at hverdict
      cases hverdict
  have hfirst (hsome : ∃ place node, Inspects .list root place node ∧ node.Unsupported) :
      ∃ place node, FirstUnsupported root place node ∧
        declarations root code fileName =
          ⟨[.log ("No traversal rule for tree-sitter node " ++ node.kind ++ " at byte " ++
            toString node.start)], .error (.shape node.kind)⟩ := by
    cases hroot : ofRoot (.ofString code) root with
    | ok tree =>
      rw [hroot] at hverdict
      obtain ⟨place, node, hinspected, hunsupported⟩ := hsome
      exact absurd hunsupported ((verdict_eq_ok_iff root).1 hverdict.symm place node hinspected)
    | error error =>
      rw [hroot] at hverdict
      obtain ⟨place, node, hnode, rfl⟩ := exists_firstUnsupported hverdict.symm
      refine ⟨place, node, hnode, ?_⟩
      rw [declarations, if_pos hreadable, hroot]
      rfl
  refine ⟨⟨?_, ?_⟩, hfirst, hread⟩
  · rintro ⟨kind, hkind⟩
    by_contra hnone
    push Not at hnone
    obtain ⟨tree, htree⟩ := hread hnone
    rw [htree] at hkind
    cases hkind
  · intro hsome
    obtain ⟨place, node, -, hresult⟩ := hfirst hsome
    exact ⟨node.kind, by rw [hresult]⟩

def oddMemberText : String := "\"é\"; export namespace N { odd } late"

/-- The tree of the text, with kinds that have no rule below a declaration of variables, in the
exported namespace and behind it. -/
def oddMember : Node :=
  .branch "program" 0 37
    [.branch "lexical_declaration" 0 5 [.branch "riddle" 0 4 []],
      .branch "export_statement" 6 32
        [(Node.branch "internal_module" 13 32
          [(Node.branch "identifier" 23 24 []).withField "name",
            (Node.branch "statement_block" 25 32 [.branch "odd" 27 30 []]).withField
              "body"]).withField "declaration"],
      .branch "late" 33 37 []]

/-- The first kind is not inspected, and the third comes after the second. -/
theorem unsupported_exact_odd_member :
    oddMember.readable = true ∧ oddMember.OnBoundaries oddMemberText.toList ∧
      (declarations oddMember oddMemberText "input.ts").outcome = .error (.shape "odd") := by
  have hreadable : oddMember.readable = true := by decide +kernel
  have hspans : oddMember.OnBoundaries oddMemberText.toList := by decide +kernel
  obtain ⟨⟨place, odd⟩, hmem, rfl, hodd⟩ : ∃ item ∈ inspected .list oddMember,
      item.1 = [1, 0, 1, 0] ∧ item.2.Unsupported := by decide +kernel
  have hothers : ∀ item ∈ inspected .list oddMember, item.2.Unsupported →
      item.2.kind = "odd" ∨ [1, 0, 1, 0] < item.1 := by decide +kernel
  have hinspected := mem_inspected_iff.1 hmem
  obtain ⟨first, node, hfirst, hresult⟩ :=
    (unsupported_exact hreadable hspans "input.ts").2.1 ⟨_, odd, hinspected, hodd⟩
  have hkind : node.kind = "odd" := by
    rcases hothers _ (mem_inspected_iff.2 hfirst.inspected) hfirst.unsupported with hkind | hlt
    · exact hkind
    · rcases hfirst.first _ odd hinspected hodd with rfl | hgt
      · exact absurd hlt (List.lt_irrefl _)
      · exact absurd hgt (List.lt_asymm hlt)
  refine ⟨hreadable, hspans, ?_⟩
  rw [hresult, hkind]

end SourceReader

end DecoratorVeil
