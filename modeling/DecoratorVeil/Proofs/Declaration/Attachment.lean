import DecoratorVeil.Declaration.Decorators
import DecoratorVeil.Proofs.Declaration.Conversion
import DecoratorVeil.SourceReader
import Mathlib.Data.List.DropRight
import Mathlib.Data.List.Forall2

/-!
# Which decorators a declaration gets

The decorators that wait are those of the last run of waiting siblings.  A declaration gets these,
then those of the exports around it, then its own; nothing else is attached anywhere.  The lists of
members at every depth of the result are tied to the lists of siblings they come from.
-/

namespace DecoratorVeil

namespace Syntax.Node
open Declaration

/-- What waits after one more sibling. -/
def pendingAfter (pending : List Node) (node : Node) : List Node :=
  if node.waits then pending ++ node.held else []

/-- The decorators of the longest run of waiting siblings at the end. -/
def waiting (before : List Node) : List Node :=
  (before.rtakeWhile waits).flatMap held

@[simp] theorem waiting_nil : waiting [] = [] := rfl

theorem waiting_concat (before : List Node) (node : Node) :
    waiting (before ++ [node]) = pendingAfter (waiting before) node := by
  unfold pendingAfter
  split_ifs with h
  · rw [waiting, List.rtakeWhile_concat_pos _ _ _ h, List.flatMap_append]
    simp [waiting]
  · rw [waiting, List.rtakeWhile_concat_neg _ _ _ h, List.flatMap_nil]

theorem waiting_concat_of_not_waits (before : List Node) {node : Node} (h : node.waits = false) :
    waiting (before ++ [node]) = [] := by
  rw [waiting_concat, pendingAfter, if_neg (by simp [h])]

/-- The buffer that the conversion carries along holds the last run. -/
theorem foldl_pendingAfter (before : List Node) :
    before.foldl pendingAfter [] = waiting before := by
  induction before using List.reverseRecOn with
  | nil => rfl
  | append_singleton before node ih => rw [List.foldl_concat, ih, waiting_concat]

/-- Whether a sibling becomes a member of the result. -/
def declares (node : Node) : Bool :=
  !node.waits && match node.unwrap with
  | none => false
  | some (_, core) =>
    match NodeRole.ofKind core.kind with
    | .container _ | .decorated _ => true
    | _ => false

theorem declares_eq_true {node : Node} (h : node.declares = true) :
    node.waits = false ∧ ∃ exports core, node.unwrap = some (exports, core) ∧
      ((∃ kind, NodeRole.ofKind core.kind = .container kind) ∨
        ∃ kind, NodeRole.ofKind core.kind = .decorated kind) := by
  unfold declares at h
  rw [Bool.and_eq_true, Bool.not_eq_true'] at h
  refine ⟨h.1, ?_⟩
  obtain ⟨-, h⟩ := h
  split at h
  · cases h
  · rename_i exports core hcore
    refine ⟨exports, core, hcore, ?_⟩
    split at h
    · rename_i kind hrole
      exact .inl ⟨kind, hrole⟩
    · rename_i kind hrole
      exact .inr ⟨kind, hrole⟩
    · cases h

/-- Whether a member takes the decorators that wait for it. -/
def takesDecorators (node : Node) : Bool :=
  match node.unwrap with
  | none => false
  | some (_, core) =>
    match NodeRole.ofKind core.kind with
    | .decorated _ => true
    | _ => false

/-- The decorators that are attached to anything, in the order of the declarations. -/
def attached (before : List Node) : List Node → List Node
  | [] => []
  | node :: rest =>
    (if node.waits then []
    else
      match h : node.unwrap with
      | none => []
      | some (exports, core) =>
        match NodeRole.ofKind core.kind with
        | .container _ =>
          have := sizeOf_body_lt_of_unwrap h
          attached [] core.body
        | .decorated _ => waiting before ++ exports ++ core.decorators
        | _ => []) ++ attached (before ++ [node]) rest
termination_by siblings => sizeOf siblings

section Attached

variable {before rest exports : List Node} {node core : Node}

@[simp] theorem attached_nil : attached before [] = [] := by rw [attached]

theorem attached_cons_of_not_declares (h : node.declares = false) :
    attached before (node :: rest) = attached (before ++ [node]) rest := by
  rw [attached]
  cases hw : node.waits with
  | true => simp
  | false =>
    simp only [declares, hw, Bool.not_false, Bool.true_and] at h
    simp only [Bool.false_eq_true, if_false]
    split
    · rw [List.nil_append]
    · rename_i exports core hcore
      simp only [hcore] at h
      cases hrole : NodeRole.ofKind core.kind <;> simp_all

theorem attached_cons_of_container {kind : DeclarationKind} (h : node.waits = false)
    (hcore : node.unwrap = some (exports, core))
    (hrole : NodeRole.ofKind core.kind = .container kind) :
    attached before (node :: rest) = attached [] core.body ++ attached (before ++ [node]) rest := by
  rw [attached, if_neg (by simp [h])]
  split
  · simp_all
  · simp_all

theorem attached_cons_of_decorated {kind : DeclarationKind} (h : node.waits = false)
    (hcore : node.unwrap = some (exports, core))
    (hrole : NodeRole.ofKind core.kind = .decorated kind) :
    attached before (node :: rest) =
      waiting before ++ exports ++ core.decorators ++ attached (before ++ [node]) rest := by
  rw [attached, if_neg (by simp [h])]
  split
  · simp_all
  · simp_all

end Attached

end Syntax.Node

namespace Declaration
open Syntax Syntax.Node

variable {source : SourceText} {pending : List Node}

/-- A run of the conversion over a list is a run over its front and one over the rest, with what
waits in between. -/
theorem membersFrom_append (before rest : List Node) :
    membersFrom source pending (before ++ rest) = do
      let earlier ← membersFrom source pending before
      let later ← membersFrom source (before.foldl pendingAfter pending) rest
      return earlier ++ later := by
  induction before generalizing pending with
  | nil =>
    rw [List.nil_append, membersFrom_nil]
    exact (bind_pure (membersFrom source pending rest)).symm
  | cons node before ih =>
    cases hw : node.waits with
    | true =>
      have hafter : pendingAfter pending node = pending ++ node.held := if_pos hw
      rw [List.cons_append, membersFrom_cons_of_waits hw, membersFrom_cons_of_waits hw, ih,
        List.foldl_cons, hafter]
    | false =>
      have hafter : pendingAfter pending node = [] := if_neg (by simp [hw])
      rw [List.cons_append, membersFrom_cons_of_not_waits hw, membersFrom_cons_of_not_waits hw, ih,
        List.foldl_cons, hafter]
      simp only [bind_assoc, pure_bind, List.append_assoc]

theorem membersFrom_append_eq_ok_iff {before rest : List Node} {members : List Declaration} :
    membersFrom source [] (before ++ rest) = .ok members ↔
      ∃ earlier later, membersFrom source [] before = .ok earlier ∧
        membersFrom source (waiting before) rest = .ok later ∧ earlier ++ later = members := by
  rw [membersFrom_append, foldl_pendingAfter]
  constructor
  · intro h
    obtain ⟨earlier, hearlier, h⟩ := bind_eq_ok_iff.1 h
    obtain ⟨later, hlater, h⟩ := bind_eq_ok_iff.1 h
    exact ⟨earlier, later, hearlier, hlater, Except.ok.inj h⟩
  · rintro ⟨earlier, later, hearlier, hlater, rfl⟩
    rw [hearlier, hlater]
    rfl

theorem membersFrom_cons_eq_ok {node : Node} {rest : List Node} {members : List Declaration}
    (hw : node.waits = false) (h : membersFrom source pending (node :: rest) = .ok members) :
    ∃ converted others, Converts source pending node converted ∧
      membersFrom source [] rest = .ok others ∧ converted.toList ++ others = members := by
  rw [membersFrom_cons_of_not_waits hw] at h
  obtain ⟨converted, hconverted, h⟩ := bind_eq_ok_iff.1 h
  obtain ⟨others, hothers, h⟩ := bind_eq_ok_iff.1 h
  exact ⟨converted, others, converts_of_ofNode hconverted, hothers, Except.ok.inj h⟩

theorem Converts.isSome_eq_declares {decorators : List Node} {node : Node}
    {converted : Option Declaration} (h : Converts source decorators node converted)
    (hw : node.waits = false) : converted.isSome = node.declares := by
  cases h with
  | empty hcore => simp [declares, hw, hcore]
  | skipped hcore hrole => simp [declares, hw, hcore, hrole]
  | container hcore hrole _ _ => simp [declares, hw, hcore, hrole]
  | decorated hcore hrole _ _ => simp [declares, hw, hcore, hrole]

theorem length_membersFrom {siblings : List Node} {members : List Declaration}
    (h : membersFrom source pending siblings = .ok members) :
    members.length = siblings.countP declares := by
  induction siblings generalizing pending members with
  | nil =>
    rw [membersFrom_nil] at h
    cases h
    rfl
  | cons node rest ih =>
    cases hw : node.waits with
    | true =>
      rw [membersFrom_cons_of_waits hw] at h
      rw [List.countP_cons_of_neg (by simp [declares, hw]), ih h]
    | false =>
      obtain ⟨converted, others, hconverts, hothers, rfl⟩ := membersFrom_cons_eq_ok hw h
      have hsome := hconverts.isSome_eq_declares hw
      rw [List.length_append, ih hothers, List.countP_cons, ← hsome, Nat.add_comm]
      cases converted <;> rfl

/-- A list of siblings of the syntax tree and the members of the result that it becomes: the
children of the root, and the bodies of containers that are members of such a list.  The declaration
of a sibling is found by the number of siblings before it that declare something. -/
inductive ConvertedList (root : Node) (tree : Declaration) :
    List Node → List Declaration → Prop
  | root {members : List Declaration} (hmembers : tree.members = some members) :
      ConvertedList root tree root.namedChildren members
  | body {before after exports : List Node} {node core inside : Node} {kind : DeclarationKind}
      {members inner : List Declaration} {declaration : Declaration}
      (hlist : ConvertedList root tree (before ++ node :: after) members)
      (hwaits : node.waits = false) (hcore : node.unwrap = some (exports, core))
      (hrole : NodeRole.ofKind core.kind = .container kind)
      (hbody : core.child? "body" = some inside)
      (hplace : members[before.countP declares]? = some declaration)
      (hinner : declaration.members = some inner) :
      ConvertedList root tree inside.namedChildren inner

section Members

variable {before after exports : List Node} {node core : Node} {members : List Declaration}

/-- The place of a member in the result. -/
theorem getElem?_membersFrom (hw : node.waits = false)
    (h : membersFrom source [] (before ++ node :: after) = .ok members) :
    ∃ converted, Converts source (waiting before) node converted ∧
      (node.declares = true → members[before.countP declares]? = converted) := by
  obtain ⟨earlier, later, hearlier, hlater, rfl⟩ := membersFrom_append_eq_ok_iff.1 h
  obtain ⟨converted, others, hconverts, -, rfl⟩ := membersFrom_cons_eq_ok hw hlater
  refine ⟨converted, hconverts, fun hdeclares => ?_⟩
  rw [← hconverts.isSome_eq_declares hw] at hdeclares
  obtain ⟨declaration, rfl⟩ := Option.isSome_iff_exists.1 hdeclares
  rw [← length_membersFrom hearlier, List.getElem?_append_right (Nat.le_refl _), Nat.sub_self]
  rfl

theorem container_place {kind : DeclarationKind} (hw : node.waits = false)
    (hcore : node.unwrap = some (exports, core))
    (hrole : NodeRole.ofKind core.kind = .container kind)
    (h : membersFrom source [] (before ++ node :: after) = .ok members) :
    ∃ name inner, membersFrom source [] core.body = .ok inner ∧
      members[before.countP declares]? = some (.container kind name inner) := by
  obtain ⟨converted, hconverts, hplace⟩ := getElem?_membersFrom hw h
  have hdeclares : node.declares = true := by simp [declares, hw, hcore, hrole]
  cases hconverts with
  | empty hcore' => simp_all
  | skipped hcore' hrole' => simp_all
  | decorated hcore' hrole' _ _ => simp_all
  | @container exports' core' kind' name inner hcore' hrole' _ hinner =>
    rw [hcore] at hcore'
    cases hcore'
    rw [hrole] at hrole'
    cases hrole'
    exact ⟨name, inner, hinner, hplace hdeclares⟩

theorem decorated_place {kind : DeclarationKind} (hw : node.waits = false)
    (hcore : node.unwrap = some (exports, core))
    (hrole : NodeRole.ofKind core.kind = .decorated kind)
    (h : membersFrom source [] (before ++ node :: after) = .ok members) :
    ∃ name ranges,
      (waiting before ++ exports ++ core.decorators).mapM (rangeOf source) = .ok ranges ∧
      members[before.countP declares]? = some (.decorated kind name ranges) := by
  obtain ⟨converted, hconverts, hplace⟩ := getElem?_membersFrom hw h
  have hdeclares : node.declares = true := by simp [declares, hw, hcore, hrole]
  cases hconverts with
  | empty hcore' => simp_all
  | skipped hcore' hrole' => simp_all
  | container hcore' hrole' _ _ => simp_all
  | @decorated exports' core' kind' name ranges hcore' hrole' _ hranges =>
    rw [hcore] at hcore'
    cases hcore'
    rw [hrole] at hrole'
    cases hrole'
    exact ⟨name, ranges, hranges, hplace hdeclares⟩

end Members

/-- Every converted list is the result of a run of the conversion with nothing waiting. -/
theorem ConvertedList.membersFrom_eq {root : Node} {tree : Declaration} {siblings : List Node}
    {members : List Declaration} (hroot : ofRoot source root = .ok tree)
    (h : ConvertedList root tree siblings members) :
    membersFrom source [] siblings = .ok members := by
  induction h with
  | root hmembers =>
    obtain ⟨found, hfound, htree⟩ := bind_eq_ok_iff.1 hroot
    cases htree
    cases hmembers
    exact hfound
  | body _ hwaits hcore hrole hbody hplace hinner ih =>
    obtain ⟨name, inner, hfound, hplace'⟩ := container_place hwaits hcore hrole ih
    rw [hplace'] at hplace
    cases hplace
    cases hinner
    simpa [Node.body, hbody] using hfound

theorem role_eq_container {kind : String} {declared : DeclarationKind}
    (h : NodeRole.ofKind kind = .container declared) : declared.role = .container := by
  have hkind := containerKind?_of_ofKind h
  unfold containerKind? at hkind
  split at hkind <;> cases hkind <;> rfl

theorem role_eq_decorated {kind : String} {declared : DeclarationKind}
    (h : NodeRole.ofKind kind = .decorated declared) : declared.role = .decorated := by
  have hkind := decoratedKind?_of_ofKind h
  unfold decoratedKind? at hkind
  split at hkind <;> cases hkind <;> rfl

theorem decoratorRanges_container {kind : DeclarationKind} (name : Option String)
    (members : List Declaration) (h : kind.role = .container) :
    (Declaration.container kind name members).decoratorRanges = allRanges members := by
  rw [Declaration.container, decoratorRanges, h, membersRanges]

theorem decoratorRanges_decorated {kind : DeclarationKind} (name : Option String)
    (ranges : List DecoratorRange) (h : kind.role = .decorated) :
    (Declaration.decorated kind name ranges).decoratorRanges = .ok ranges := by
  rw [Declaration.decorated, decoratorRanges, h]
  cases ranges <;> rfl

theorem mapM_append_eq_ok {a b : List Node} {first second : List DecoratorRange}
    (ha : a.mapM (rangeOf source) = .ok first) (hb : b.mapM (rangeOf source) = .ok second) :
    (a ++ b).mapM (rangeOf source) = .ok (first ++ second) := by
  rw [List.mapM_append, ha, hb]
  rfl

theorem allRanges_cons_eq_ok {declaration : Declaration} {rest : List Declaration}
    {first second : List DecoratorRange} (hfirst : declaration.decoratorRanges = .ok first)
    (hsecond : allRanges rest = .ok second) :
    allRanges (declaration :: rest) = .ok (first ++ second) := by
  rw [allRanges, hfirst, hsecond]
  rfl

/-- Collecting from the members of a list gives the ranges of the attached decorators, in order. -/
theorem allRanges_membersFrom {before rest : List Node} {members : List Declaration}
    (h : membersFrom source (waiting before) rest = .ok members) :
    ∃ ranges, (attached before rest).mapM (rangeOf source) = .ok ranges ∧
      allRanges members = .ok ranges := by
  induction rest using siblings_induction generalizing before members with
  | nil =>
    rw [membersFrom_nil] at h
    cases h
    exact ⟨[], by rw [attached_nil]; rfl, by rw [allRanges]⟩
  | cons node rest ihbody ihrest =>
    cases hw : node.waits with
    | true =>
      rw [membersFrom_cons_of_waits hw] at h
      rw [attached_cons_of_not_declares (by simp [declares, hw])]
      apply ihrest
      rw [waiting_concat, pendingAfter, if_pos hw]
      exact h
    | false =>
      obtain ⟨converted, others, hconverts, hothers, rfl⟩ := membersFrom_cons_eq_ok hw h
      obtain ⟨second, hsecond, hcollect⟩ :=
        ihrest (waiting_concat_of_not_waits before hw ▸ hothers)
      have hsome := hconverts.isSome_eq_declares hw
      cases hconverts with
      | empty hcore =>
        rw [attached_cons_of_not_declares hsome.symm]
        exact ⟨second, hsecond, hcollect⟩
      | skipped hcore hrole =>
        rw [attached_cons_of_not_declares hsome.symm]
        exact ⟨second, hsecond, hcollect⟩
      | @container exports core kind name inner hcore hrole _ hmembers =>
        have hbody : membersFrom source (waiting []) core.body = .ok inner := hmembers
        obtain ⟨first, hfirst, hinner⟩ := ihbody exports core hcore hbody
        rw [attached_cons_of_container hw hcore hrole]
        have hown := (decoratorRanges_container name inner (role_eq_container hrole)).trans hinner
        exact ⟨first ++ second, mapM_append_eq_ok hfirst hsecond,
          allRanges_cons_eq_ok hown hcollect⟩
      | @decorated exports core kind name first hcore hrole _ hranges =>
        rw [attached_cons_of_decorated hw hcore hrole]
        have hown := decoratorRanges_decorated name first (role_eq_decorated hrole)
        exact ⟨first ++ second, mapM_append_eq_ok hranges hsecond,
          allRanges_cons_eq_ok hown hcollect⟩

/-- Collecting from a whole text gives the ranges of the decorators that are attached in it. -/
theorem decoratorRanges_of_ofRoot {root : Node} {tree : Declaration}
    (h : ofRoot source root = .ok tree) :
    ∃ ranges, (attached [] root.namedChildren).mapM (rangeOf source) = .ok ranges ∧
      tree.decoratorRanges = .ok ranges := by
  obtain ⟨members, hmembers, htree⟩ := bind_eq_ok_iff.1 h
  cases htree
  have hfrom : membersFrom source (waiting []) root.namedChildren = .ok members := hmembers
  obtain ⟨ranges, hranges, hcollect⟩ := allRanges_membersFrom hfrom
  exact ⟨ranges, hranges, (decoratorRanges_container none members rfl).trans hcollect⟩

section Dropped

variable {before run rest : List Node}

/-- A member that takes no decorators becomes the same whatever waits for it. -/
theorem ofNode_of_not_takesDecorators {node : Node} (a b : List Node)
    (h : node.takesDecorators = false) : ofNode source a node = ofNode source b node := by
  cases hcore : node.unwrap with
  | none => rw [ofNode_of_unwrap_eq_none hcore, ofNode_of_unwrap_eq_none hcore]
  | some unwrapped =>
    obtain ⟨exports, core⟩ := unwrapped
    have hsingle := (unwrap_eq_some hcore).2
    rw [ofNode_of_unwrap hcore, ofNode_of_unwrap hcore]
    cases hrole : NodeRole.ofKind core.kind with
    | container kind => rw [ofNode_container hrole, ofNode_container hrole]
    | decorated kind => simp [takesDecorators, hcore, hrole] at h
    | skipped => rw [ofNode_skipped hrole, ofNode_skipped hrole]
    | unknown => rw [ofNode_unknown hrole, ofNode_unknown hrole]
    | exported | ambient | expression => simp [isWrapper, hrole] at hsingle

theorem membersFrom_of_not_takesDecorators (a b : List Node)
    (h : ∀ node ∈ rest.head?, node.waits = false ∧ node.takesDecorators = false) :
    membersFrom source a rest = membersFrom source b rest := by
  cases rest with
  | nil => rw [membersFrom_nil, membersFrom_nil]
  | cons node rest =>
    obtain ⟨hw, htakes⟩ := h node rfl
    rw [membersFrom_cons_of_not_waits hw, membersFrom_cons_of_not_waits hw,
      ofNode_of_not_takesDecorators a b htakes]

theorem membersFrom_of_waits (h : ∀ node ∈ run, node.waits = true) :
    membersFrom source pending run = .ok [] := by
  induction run generalizing pending with
  | nil => exact membersFrom_nil
  | cons node run ih =>
    rw [membersFrom_cons_of_waits (h node List.mem_cons_self)]
    exact ih (fun other hother => h other (List.mem_cons_of_mem _ hother))

/-- A run in front of a member that takes no decorators, or at the end, can be left out. -/
theorem membersFrom_drop_run (hrun : ∀ node ∈ run, node.waits = true)
    (hrest : ∀ node ∈ rest.head?, node.waits = false ∧ node.takesDecorators = false) :
    membersFrom source [] (before ++ (run ++ rest)) = membersFrom source [] (before ++ rest) := by
  have hfront : membersFrom source (waiting before) (run ++ rest) =
      membersFrom source (waiting before) rest := by
    rw [membersFrom_append, membersFrom_of_waits hrun]
    exact (bind_pure _).trans (membersFrom_of_not_takesDecorators _ _ hrest)
  rw [membersFrom_append before, membersFrom_append before, foldl_pendingAfter, hfront]

end Dropped

/-- What a list of siblings and the members it becomes have to do with each other. -/
structure Attached (source : SourceText) (siblings : List Node) (members : List Declaration) :
    Prop where
  /-- A declaration gets the decorators of the run before it, of its exports and its own, in this
  order. -/
  decorated : ∀ before node after exports core kind, siblings = before ++ node :: after →
    node.waits = false → node.unwrap = some (exports, core) →
    NodeRole.ofKind core.kind = .decorated kind →
    ∃ declaration ranges, members[before.countP declares]? = some declaration ∧
      declaration.kind = kind ∧ declaration.members = none ∧
      (waiting before ++ exports ++ core.decorators).mapM (rangeOf source) = .ok ranges ∧
      declaration.decorators =
        if waiting before = [] ∧ exports = [] ∧ core.decorators = [] then none else some ranges
  /-- A container gets no decorators. -/
  container : ∀ before node after exports core kind, siblings = before ++ node :: after →
    node.waits = false → node.unwrap = some (exports, core) →
    NodeRole.ofKind core.kind = .container kind →
    ∃ declaration inner, members[before.countP declares]? = some declaration ∧
      declaration.kind = kind ∧ declaration.members = some inner ∧ declaration.decorators = none
  /-- Without a run that waits for something that takes no decorators, or for nothing, the same
  members come out. -/
  dropped : ∀ before run rest, siblings = before ++ (run ++ rest) →
    (∀ node ∈ run, node.waits = true) →
    (∀ node ∈ rest.head?, node.waits = false ∧ node.takesDecorators = false) →
    membersFrom source [] (before ++ rest) = .ok members

theorem forall₂_rangeOf {nodes : List Node} {ranges : List DecoratorRange}
    (h : nodes.mapM (rangeOf source) = .ok ranges) :
    List.Forall₂ (fun range node => rangeOf source node = .ok range) ranges nodes := by
  induction nodes generalizing ranges with
  | nil =>
    rw [List.mapM_nil] at h
    cases h
    exact .nil
  | cons node nodes ih =>
    rw [List.mapM_cons] at h
    obtain ⟨range, hrange, h⟩ := bind_eq_ok_iff.1 h
    obtain ⟨others, hothers, h⟩ := bind_eq_ok_iff.1 h
    cases h
    exact .cons hrange (ih hothers)

theorem attached_of_membersFrom {siblings : List Node} {members : List Declaration}
    (h : membersFrom source [] siblings = .ok members) : Attached source siblings members where
  decorated := by
    rintro before node after exports core kind rfl hw hcore hrole
    obtain ⟨name, ranges, hranges, hplace⟩ := decorated_place hw hcore hrole h
    refine ⟨_, ranges, hplace, rfl, rfl, hranges, ?_⟩
    have hlength := (forall₂_rangeOf hranges).length_eq
    have hempty : ranges.isEmpty = true ↔
        waiting before = [] ∧ exports = [] ∧ core.decorators = [] := by
      rw [List.isEmpty_iff_length_eq_zero, hlength, List.length_eq_zero_iff,
        List.append_eq_nil_iff, List.append_eq_nil_iff, and_assoc]
    simp only [Declaration.decorated, hempty]
  container := by
    rintro before node after exports core kind rfl hw hcore hrole
    obtain ⟨name, inner, -, hplace⟩ := container_place hw hcore hrole h
    exact ⟨_, inner, hplace, rfl, rfl, rfl⟩
  dropped := by
    rintro before run rest rfl hrun hrest
    rw [← membersFrom_drop_run hrun hrest]
    exact h

/-- Attachment is exact in every list of members of the result, and the decorators that are
collected from the result are the attached ones and no others. -/
theorem attachment_exact {root : Node} {code fileName : String} {tree : Declaration}
    (h : (SourceReader.declarations root code fileName).outcome = .ok tree) :
    (∀ siblings members, ConvertedList root tree siblings members →
      Attached (.ofString code) siblings members) ∧
    ∃ ranges, (attached [] root.namedChildren).mapM (rangeOf (.ofString code)) = .ok ranges ∧
      tree.decoratorRanges = .ok ranges := by
  obtain ⟨-, hroot⟩ := SourceReader.declarations_eq_ok_iff.1 h
  constructor
  · intro siblings members hlist
    exact attached_of_membersFrom (hlist.membersFrom_eq hroot)
  · exact decoratorRanges_of_ofRoot hroot

def strayBeforeExportText : String :=
  "@a /**/ export @b function f() {} @c class C { @d m() {} @e }"

/-- The tree of the text, with the first decorator in an error node. -/
def strayBeforeExport : Node :=
  .branch "program" 0 61
    [.branch errorKind 0 2 [.branch "decorator" 0 2 []],
      .branch "comment" 3 7 [],
      .branch "export_statement" 8 33
        [.branch "decorator" 15 17 [],
          (Node.branch "function_declaration" 18 33 []).withField "declaration"],
      .branch "decorator" 34 36 [],
      .branch "class_declaration" 37 61
        [(Node.branch "class_body" 45 61
          [.branch "decorator" 47 49 [], .branch "method_definition" 50 56 [],
            .branch "decorator" 57 59 []]).withField "body"]]

/-- The stray decorator and the one of the export go to the function, the fourth to the method; the
others are attached to nothing. -/
theorem attachment_exact_stray_before_export :
    ∃ tree members,
      (SourceReader.declarations strayBeforeExport strayBeforeExportText "input.ts").outcome =
        .ok tree ∧
      ConvertedList strayBeforeExport tree strayBeforeExport.namedChildren members ∧
      Attached (.ofString strayBeforeExportText) strayBeforeExport.namedChildren members ∧
      tree.decoratorRanges = .ok [⟨0, 2⟩, ⟨15, 17⟩, ⟨47, 49⟩] := by
  obtain ⟨tree, htree⟩ := exists_eq_ok (x := (SourceReader.declarations strayBeforeExport
    strayBeforeExportText "input.ts").outcome) (by decide +kernel)
  obtain ⟨hlists, ranges, hranges, hcollect⟩ := attachment_exact htree
  obtain ⟨members, -, hmembers⟩ := bind_eq_ok_iff.1 (SourceReader.declarations_eq_ok_iff.1 htree).2
  have hlist : ConvertedList strayBeforeExport tree strayBeforeExport.namedChildren members :=
    .root (by cases hmembers; rfl)
  have hvalue : (attached [] strayBeforeExport.namedChildren).mapM
      (rangeOf (.ofString strayBeforeExportText)) = .ok [⟨0, 2⟩, ⟨15, 17⟩, ⟨47, 49⟩] := by
    decide +kernel
  rw [hvalue] at hranges
  cases hranges
  exact ⟨tree, members, htree, hlist, hlists _ _ hlist, hcollect⟩

end Declaration

end DecoratorVeil
