import DecoratorVeil.Proofs.Locate
import DecoratorVeil.Proofs.Syntax.Forgiven

/-!
# Which stray decorators are recovered

The search for errors forgives stray decorators in every list of members.  The conversion reads the
list at the root and the bodies of containers, and no others: there all stray decorators in front of
a declaration are collected, and those in the body of a function are lost.
-/

namespace DecoratorVeil

namespace Syntax.Node
open Declaration

variable {root parent node decorator : Node} {before rest run : List Node}

theorem attached_append (before run rest : List Node) :
    attached before (run ++ rest) = attached before run ++ attached (before ++ run) rest := by
  induction run generalizing before with
  | nil => rw [List.nil_append, attached_nil, List.nil_append, List.append_nil]
  | cons node run ih =>
    have hlater := ih (before ++ [node])
    rw [List.append_assoc, List.singleton_append] at hlater
    cases hdeclares : node.declares with
    | false =>
      rw [List.cons_append, attached_cons_of_not_declares hdeclares,
        attached_cons_of_not_declares hdeclares, hlater]
    | true =>
      obtain ⟨hw, exports, core, hcore, ⟨kind, hrole⟩ | ⟨kind, hrole⟩⟩ := declares_eq_true hdeclares
      · rw [List.cons_append, attached_cons_of_container hw hcore hrole,
          attached_cons_of_container hw hcore hrole, hlater, List.append_assoc]
      · rw [List.cons_append, attached_cons_of_decorated hw hcore hrole,
          attached_cons_of_decorated hw hcore hrole, hlater]
        simp only [List.append_assoc]

/-- A run at the end waits as a whole. -/
theorem waiting_append (before : List Node) (hrun : ∀ node ∈ run, node.waits = true) :
    waiting (before ++ run) = waiting before ++ run.flatMap held := by
  induction run generalizing before with
  | nil => simp
  | cons node run ih =>
    obtain ⟨hnode, hrun⟩ := List.forall_mem_cons.1 hrun
    have hlater := ih (before ++ [node]) hrun
    rw [waiting_concat, pendingAfter, if_pos hnode, List.append_assoc, List.append_assoc] at hlater
    rw [List.flatMap_cons]
    exact hlater

theorem takesDecorators_eq_true (h : node.takesDecorators = true) :
    ∃ exports core kind, node.unwrap = some (exports, core) ∧
      NodeRole.ofKind core.kind = .decorated kind := by
  unfold takesDecorators at h
  split at h
  · cases h
  · rename_i exports core hcore
    split at h
    · rename_i kind hrole
      exact ⟨exports, core, kind, hcore, hrole⟩
    · cases h

/-- What waits in front of a member that takes decorators is attached. -/
theorem mem_attached_of_waiting (hw : node.waits = false) (h : node.takesDecorators = true)
    (hwait : decorator ∈ waiting before) : decorator ∈ attached [] (before ++ node :: rest) := by
  obtain ⟨exports, core, kind, hcore, hrole⟩ := takesDecorators_eq_true h
  rw [attached_append, List.nil_append, attached_cons_of_decorated hw hcore hrole]
  simp [hwait]

/-- What is attached in a list that is read, or in the body of a node that is converted, is attached
in the whole text. -/
def KeepsAttached (root : Node) : Visit → Node → Prop
  | .list, node => attached [] node.namedChildren ⊆ attached [] root.namedChildren
  | .member, node => ∀ exports core kind, node.unwrap = some (exports, core) →
      NodeRole.ofKind core.kind = .container kind →
      attached [] core.body ⊆ attached [] root.namedChildren
  | .part, _ => True

theorem keepsAttached_of_reached {visit : Visit} (h : Reached root visit node) :
    KeepsAttached root visit node := by
  induction h with
  | root => exact List.Subset.refl _
  | member _ hchild hwaits ih =>
    intro exports core kind hcore hrole
    obtain ⟨before, after, hsplit⟩ := List.append_of_mem hchild
    rw [KeepsAttached, hsplit, attached_append,
      attached_cons_of_container hwaits hcore hrole] at ih
    exact fun x hx => ih (by simp [hx])
  | inner _ hinner ih =>
    intro exports core kind hcore hrole
    have hunwrap := unwrap_of_inner?_eq_some (isWrapper_of_inner? hinner) hinner
    rw [hcore] at hunwrap
    exact ih _ core kind hunwrap hrole
  | @body node body kind _ hrole hbody ih =>
    have hsingle : node.isWrapper = false := by simp [isWrapper, hrole]
    have hown := ih [] node kind (unwrap_of_not_wrapper hsingle) hrole
    rwa [Node.body, hbody, Option.map_some, Option.getD_some] at hown
  | part => trivial

/-- A decorator that the conversion comes by: among the siblings of a list that it reads, in an
error node among these, or as a part of a node that it converts. -/
inductive Offered (root : Node) : Node → Prop
  | sibling {parent decorator : Node} (hparent : Reached root .list parent)
      (hdecorator : decorator ∈ parent.namedChildren) : Offered root decorator
  | stray {parent error decorator : Node} (hparent : Reached root .list parent)
      (herror : error ∈ parent.namedChildren) (hkind : error.kind = errorKind)
      (hdecorator : decorator ∈ error.namedChildren) : Offered root decorator
  | part {decorator : Node} (h : Reached root .part decorator) : Offered root decorator

theorem offered_of_held (hparent : Reached root .list parent) (hnode : node ∈ parent.namedChildren)
    (h : decorator ∈ node.held) : Offered root decorator := by
  unfold held at h
  split at h
  · rw [List.mem_singleton] at h
    exact .sibling hparent (h ▸ hnode)
  · cases hstray : node.strayDecorators? with
    | none => simp [hstray] at h
    | some stray =>
      obtain ⟨hkind, -, -, rfl⟩ := strayDecorators?_eq_some hstray
      rw [hstray, Option.getD_some] at h
      exact .stray hparent hnode hkind (List.mem_filter.1 h).1

theorem reached_of_exports {exports : List Node} {core : Node} (hnode : Reached root .member node)
    (hcore : node.unwrap = some (exports, core)) (h : decorator ∈ exports) :
    Reached root .part decorator := by
  induction node using unwrap_induction generalizing exports with
  | single node hw =>
    rw [unwrap_of_not_wrapper hw] at hcore
    cases hcore
    cases h
  | empty node hw hinner =>
    rw [unwrap_of_inner?_eq_none hw hinner] at hcore
    cases hcore
  | wrapper node inner hw hinner ih =>
    rw [unwrap_of_inner?_eq_some hw hinner] at hcore
    obtain ⟨⟨later, core⟩, hlater, heq⟩ := Option.map_eq_some_iff.1 hcore
    cases heq
    rcases List.mem_append.1 h with h | h
    · have hchild := mem_children_of_mem_decorators ((passedOn_sublist node).subset h)
      exact .part hnode (.inl hw) hchild.1
    · exact ih (.inner hnode hinner) hlater h

/-- Nothing is attached that the conversion does not come by. -/
theorem offered_of_attached (hparent : Reached root .list parent)
    (hsiblings : parent.namedChildren = before ++ rest) (h : decorator ∈ attached before rest) :
    Offered root decorator := by
  induction rest using siblings_induction generalizing parent before with
  | nil => simp at h
  | cons node rest ihbody ihrest =>
    have hlater : decorator ∈ attached (before ++ [node]) rest → Offered root decorator :=
      ihrest hparent (by simp [hsiblings])
    cases hdeclares : node.declares with
    | false =>
      rw [attached_cons_of_not_declares hdeclares] at h
      exact hlater h
    | true =>
      obtain ⟨hw, exports, core, hcore, hrole⟩ := declares_eq_true hdeclares
      have hnode : Reached root .member node := .member hparent (by simp [hsiblings]) hw
      rcases hrole with ⟨kind, hrole⟩ | ⟨kind, hrole⟩
      · rw [attached_cons_of_container hw hcore hrole, List.mem_append] at h
        rcases h with h | h
        · cases hbody : core.child? "body" with
          | none => simp [Node.body, hbody] at h
          | some body =>
            refine ihbody exports core hcore (.body (hnode.core hcore) hrole hbody) ?_ h
            simp [Node.body, hbody]
        · exact hlater h
      · rw [attached_cons_of_decorated hw hcore hrole, List.mem_append, List.mem_append,
          List.mem_append] at h
        rcases h with ((h | h) | h) | h
        · rw [waiting, List.mem_flatMap] at h
          obtain ⟨sibling, hsibling, hheld⟩ := h
          have hmem := (List.rtakeWhile_suffix waits before).subset hsibling
          exact offered_of_held hparent (by simp [hsiblings, hmem]) hheld
        · exact .part (reached_of_exports hnode hcore h)
        · refine .part (.part (hnode.core hcore) (.inr ?_) (mem_children_of_mem_decorators h).1)
          simp [isDeclaring, decoratedKind?_of_ofKind hrole]
        · exact hlater h

/-- The next sibling that does not wait. -/
def NextMember (siblings : List Node) (node next : Node) : Prop :=
  ∃ before run after, siblings = before ++ node :: (run ++ next :: after) ∧
    (∀ other ∈ run, other.waits = true) ∧ next.waits = false

theorem mem_attached_of_nextMember {siblings : List Node} {next : Node} (hwaits : node.waits = true)
    (hnext : NextMember siblings node next) (htakes : next.takesDecorators = true)
    (h : decorator ∈ node.held) : decorator ∈ attached [] siblings := by
  obtain ⟨before, run, after, hsplit, hrun, hw⟩ := hnext
  have hall : ∀ other ∈ node :: run, other.waits = true :=
    List.forall_mem_cons.2 ⟨hwaits, hrun⟩
  have hwait : decorator ∈ waiting (before ++ node :: run) := by
    rw [waiting_append before hall]
    simp [h]
  rw [hsplit, ← List.cons_append, ← List.append_assoc]
  exact mem_attached_of_waiting hw htakes hwait

end Syntax.Node

namespace Declaration
open Syntax Syntax.Node

/-- An error node in a list that is read waits and holds all its decorators. -/
theorem held_of_error {root parent error decorator : Node}
    (hsafe : ∀ above node, Exposed root above node → ¬ Fatal above node)
    (hparent : Reached root .list parent) (herror : error ∈ parent.namedChildren)
    (hkind : error.kind = errorKind) (hdecorator : decorator ∈ error.namedChildren)
    (hname : decorator.kind = "decorator") : error.waits = true ∧ decorator ∈ error.held := by
  obtain ⟨hlist, above, hexposed⟩ := hparent.exposed hsafe
  have hholds := holdsStray_of_error hsafe hexposed hlist
    (mem_children_of_mem_namedChildren herror) hkind
  obtain ⟨stray, hstray⟩ :=
    Option.isSome_iff_exists.1 ((strayDecorators?_isSome_iff hkind).2 hholds)
  have hplain : (error.kind == "decorator") = false := by
    rw [hkind]
    decide
  obtain ⟨-, -, -, rfl⟩ := strayDecorators?_eq_some hstray
  refine ⟨by simp [waits, hstray], ?_⟩
  rw [held, hplain, hstray]
  exact List.mem_filter.2 ⟨hdecorator, by simp [hname]⟩

/-- In every list that is read, the stray decorators in front of a declaration are collected, and
nothing is collected that the conversion does not come by. -/
theorem stray_collected {root : Node} (hroot : root.FlagsConsistent) {code fileName : String}
    {tree : Declaration} (h : (SourceReader.declarations root code fileName).outcome = .ok tree) :
    ∃ ranges, tree.decoratorRanges = .ok ranges ∧
      (∀ parent error next, Reached root .list parent → error.kind = errorKind →
        NextMember parent.namedChildren error next → next.takesDecorators = true →
        ∀ decorator ∈ error.namedChildren, decorator.kind = "decorator" →
          ∃ range ∈ ranges, rangeOf (.ofString code) decorator = .ok range) ∧
      ∀ range ∈ ranges, ∃ decorator, decorator.kind = "decorator" ∧ Offered root decorator ∧
        rangeOf (.ofString code) decorator = .ok range := by
  obtain ⟨ranges, hranges, hcollect⟩ :=
    decoratorRanges_of_ofRoot (SourceReader.declarations_eq_ok_iff.1 h).2
  have hpairs := forall₂_rangeOf hranges
  refine ⟨ranges, hcollect, ?_, ?_⟩
  · intro parent error next hparent hkind hnext htakes decorator hdecorator hname
    have hread : ∀ message, (SourceReader.declarations root code fileName).outcome ≠
        .error (.dialect message) := by
      simp [h]
    have hsafe := SourceReader.not_fatal_of_read hroot hread
    have herror : error ∈ parent.namedChildren := by
      obtain ⟨before, run, after, hsplit, -⟩ := hnext
      simp [hsplit]
    obtain ⟨hwaits, hheld⟩ := held_of_error hsafe hparent herror hkind hdecorator hname
    have hattached := keepsAttached_of_reached hparent
      (mem_attached_of_nextMember hwaits hnext htakes hheld)
    exact exists_of_mem_forall₂ hpairs.flip hattached
  · intro range hrange
    obtain ⟨decorator, hdecorator, hrangeOf⟩ := exists_of_mem_forall₂ hpairs hrange
    obtain hnone | ⟨-, -, -, hname⟩ := mem_attached hdecorator
    · cases hnone
    · exact ⟨decorator, hname, offered_of_attached .root rfl hdecorator, hrangeOf⟩

def strayError (start : Nat) : Node :=
  .branch errorKind start (start + 2) [.branch "decorator" start (start + 2) []]

/-- The body `{ @a function g(){} }` of what stands in front of it. -/
def strayBlock (start : Nat) : Node :=
  (Node.branch "statement_block" start (start + 21) [strayError (start + 2),
    .branch "function_declaration" (start + 5) (start + 19) []]).withField "body"

theorem nextMember_strayBlock (start : Nat) : ∃ next, next.takesDecorators = true ∧
    NextMember (strayBlock start).namedChildren (strayError (start + 2)) next := by
  have hrole : NodeRole.ofKind "function_declaration" = .decorated .function := by decide
  refine ⟨.branch "function_declaration" (start + 5) (start + 19) [], ?_, [], [], [], rfl, ?_, rfl⟩
  · rw [takesDecorators, unwrap_of_not_wrapper (by simp [isWrapper, Node.branch, hrole])]
    simp [Node.branch, hrole]
  · simp

def strayInModule : Node := .branch "program" 0 33 [.branch "internal_module" 0 33 [strayBlock 12]]

/-- The stray decorator in the body of a namespace is collected. -/
theorem stray_collected_in_module :
    strayInModule.FlagsConsistent ∧
      ∃ tree ranges, (SourceReader.declarations strayInModule "namespace N { @a function g(){} }"
          "input.ts").outcome = .ok tree ∧
        tree.decoratorRanges = .ok ranges ∧ ⟨14, 16⟩ ∈ ranges := by
  have hflags : strayInModule.FlagsConsistent := by decide +kernel
  obtain ⟨tree, htree⟩ := exists_eq_ok (x := (SourceReader.declarations strayInModule
    "namespace N { @a function g(){} }" "input.ts").outcome) (by decide +kernel)
  obtain ⟨ranges, hranges, hcollected, -⟩ := stray_collected hflags htree
  have hmember : Reached strayInModule .member (.branch "internal_module" 0 33 [strayBlock 12]) :=
    .member .root List.mem_cons_self (by decide)
  have hbody : Reached strayInModule .list (strayBlock 12) := .body hmember rfl rfl
  obtain ⟨next, htakes, hnext⟩ := nextMember_strayBlock 12
  obtain ⟨range, hrange, hvalue⟩ :=
    hcollected _ _ next hbody rfl hnext htakes (.branch "decorator" 14 16 []) List.mem_cons_self rfl
  have hrangeOf : rangeOf (.ofString "namespace N { @a function g(){} }")
      (.branch "decorator" 14 16 []) = .ok ⟨14, 16⟩ := by
    decide +kernel
  rw [hrangeOf] at hvalue
  cases hvalue
  exact ⟨hflags, tree, ranges, htree, hranges, hrange⟩

def strayInFunction : Node :=
  .branch "program" 0 34 [.branch "function_declaration" 0 34 [strayBlock 13]]

/-- The body of a function is not read: a stray decorator in it is forgiven, but not collected. -/
theorem stray_in_function_lost :
    strayInFunction.FlagsConsistent ∧
      (∃ tree, (SourceReader.declarations strayInFunction "function f() { @a function g(){} }"
          "input.ts").outcome = .ok tree ∧ tree.decoratorRanges = .ok []) ∧
      strayInFunction.Contains (strayBlock 13) ∧
      (∃ next, next.takesDecorators = true ∧
        NextMember (strayBlock 13).namedChildren (strayError 15) next) ∧
      ∃ decorator ∈ (strayError 15).namedChildren, decorator.kind = "decorator" ∧
        rangeOf (.ofString "function f() { @a function g(){} }") decorator = .ok ⟨15, 17⟩ := by
  obtain ⟨tree, htree⟩ := exists_eq_ok (x := (SourceReader.declarations strayInFunction
    "function f() { @a function g(){} }" "input.ts").outcome) (by decide +kernel)
  obtain ⟨ranges, hranges, hcollect⟩ :=
    decoratorRanges_of_ofRoot (SourceReader.declarations_eq_ok_iff.1 htree).2
  have hvalue : (attached [] strayInFunction.namedChildren).mapM
      (rangeOf (.ofString "function f() { @a function g(){} }")) = .ok [] := by
    decide +kernel
  rw [hvalue] at hranges
  cases hranges
  refine ⟨by decide +kernel, ⟨tree, htree, hcollect⟩, ?_, nextMember_strayBlock 13, ?_⟩
  · exact .of_child List.mem_cons_self (.of_child List.mem_cons_self (.refl _))
  · exact ⟨.branch "decorator" 15 17 [], List.mem_cons_self, rfl, by decide +kernel⟩

end Declaration

end DecoratorVeil
