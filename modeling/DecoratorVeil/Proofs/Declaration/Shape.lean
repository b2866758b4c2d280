import DecoratorVeil.Proofs.Declaration.Attachment
import DecoratorVeil.Proofs.Declaration.Collected

/-!
# The shape of converted trees

Declarations can be put together freely, but those that a syntax tree is converted to have members
where members are walked and decorators where decorators are collected.  So nothing that is recorded
in them can be missed.
-/

namespace DecoratorVeil.Declaration
open Syntax Syntax.Node

/-- A container has members, if only an empty list of them, and no decorators.  An enumeration,
method or function has no members, and its decorators are not an empty list. -/
structure Shaped (declaration : Declaration) : Prop where
  known : declaration.kind ∈ containerKinds ∨ declaration.kind ∈ decoratedKinds
  container : declaration.kind ∈ containerKinds →
    (∃ members, declaration.members = some members) ∧ declaration.decorators = none
  decorated : declaration.kind ∈ decoratedKinds →
    declaration.members = none ∧ declaration.decorators ≠ some []

/-- All declarations of a tree are shaped, and the one with none above it is the only source. -/
structure WellShaped (tree : Declaration) : Prop where
  shaped : ∀ place ∈ placed [] tree, place.2.Shaped
  source_iff : ∀ place ∈ placed [] tree, place.2.kind = .source ↔ place.1 = []

/-- The decorators of all declarations of a tree, whatever their kinds, in document order. -/
def recordedFrom (above : List Declaration) (tree : Declaration) : List DecoratorRange :=
  (placed above tree).flatMap fun place => place.2.decorators.getD []

def recorded (tree : Declaration) : List DecoratorRange := recordedFrom [] tree

section Placed

variable {kind : DeclarationKind} {name : Option String} {members : Option (List Declaration)}
  {decorators : Option (List DecoratorRange)} {above : List Declaration}

/-- A condition on all declarations of a tree is one on its root and on the trees of its members. -/
theorem forall_placed_iff {p : List Declaration × Declaration → Prop} :
    (∀ place ∈ placed above ⟨kind, name, members, decorators⟩, p place) ↔
      p (above, ⟨kind, name, members, decorators⟩) ∧ ∀ member ∈ members.getD [],
        ∀ place ∈ placed (above ++ [⟨kind, name, members, decorators⟩]) member, p place := by
  rw [placed_eq, List.forall_mem_cons, List.forall_mem_flatMap]

theorem recordedFrom_eq :
    recordedFrom above ⟨kind, name, members, decorators⟩ = decorators.getD [] ++
      (members.getD []).flatMap
        (recordedFrom (above ++ [⟨kind, name, members, decorators⟩])) := by
  unfold recordedFrom
  rw [placed_eq, List.flatMap_cons, List.flatMap_assoc]

end Placed

/-! ## What is collected from shaped trees -/

theorem allRanges_eq_flatMap {members : List Declaration}
    {below : Declaration → List DecoratorRange}
    (h : ∀ member ∈ members, member.decoratorRanges = .ok (below member)) :
    allRanges members = .ok (members.flatMap below) := by
  induction members with
  | nil => rw [allRanges, List.flatMap_nil]
  | cons member rest ih =>
    obtain ⟨hmember, hrest⟩ := List.forall_mem_cons.1 h
    rw [List.flatMap_cons]
    exact allRanges_cons_eq_ok hmember (ih hrest)

/-- Everything that is recorded in a shaped tree is collected, in the order it is recorded in. -/
theorem decoratorRanges_of_shaped {above : List Declaration} {tree : Declaration}
    (h : ∀ place ∈ placed above tree, place.2.Shaped) :
    tree.decoratorRanges = .ok (recordedFrom above tree) := by
  induction tree using members_induction generalizing above with
  | step kind name members decorators ih =>
    obtain ⟨hown, hmembers⟩ := forall_placed_iff.1 h
    rw [recordedFrom_eq, decoratorRanges]
    -- The walk passes over the decorators of a container and the members of anything else, but the
    -- shape leaves none there.
    rcases hown.known with hkind | hkind
    · obtain rfl : decorators = none := (hown.container hkind).2
      have hbelow := allRanges_eq_flatMap fun member hmember =>
        ih member hmember (hmembers member hmember)
      simp only [(mem_containerKinds_iff kind).1 hkind, membersRanges_eq, hbelow]
      rfl
    · obtain rfl : members = none := (hown.decorated hkind).1
      simp only [(mem_decoratedKinds_iff kind).1 hkind, Option.getD_none, List.flatMap_nil,
        List.append_nil]

/-! ## What conversion makes -/

theorem not_mem_decoratedKinds {kind : DeclarationKind} (h : kind ∈ containerKinds) :
    kind ∉ decoratedKinds := by
  rw [mem_decoratedKinds_iff, (mem_containerKinds_iff kind).1 h]
  simp

theorem shaped_container {kind : DeclarationKind} (h : kind ∈ containerKinds)
    (name : Option String) (members : List Declaration) :
    (Declaration.container kind name members).Shaped where
  known := .inl h
  container _ := ⟨⟨members, rfl⟩, rfl⟩
  decorated hkind := absurd hkind (not_mem_decoratedKinds h)

theorem shaped_decorated {kind : DeclarationKind} (h : kind ∈ decoratedKinds)
    (name : Option String) (ranges : List DecoratorRange) :
    (Declaration.decorated kind name ranges).Shaped where
  known := .inr h
  container hkind := absurd h (not_mem_decoratedKinds hkind)
  decorated _ := by
    refine ⟨rfl, ?_⟩
    cases ranges <;> simp [Declaration.decorated]

theorem ne_source_of_container {kind : String} {declared : DeclarationKind}
    (h : NodeRole.ofKind kind = .container declared) : declared ≠ .source := by
  have hkind := containerKind?_of_ofKind h
  rintro rfl
  unfold containerKind? at hkind
  split at hkind <;> cases hkind

/-- A declaration below others that is shaped and no source. -/
structure Nested (place : List Declaration × Declaration) : Prop where
  shaped : place.2.Shaped
  not_source : place.2.kind ≠ .source
  below : place.1 ≠ []

/-- All that is placed in a member is nested. -/
def WellNested (member : Declaration) : Prop :=
  ∀ above ≠ [], ∀ place ∈ placed above member, Nested place

theorem wellNested_container {kind : DeclarationKind} (h : kind ∈ containerKinds)
    (hsource : kind ≠ .source) (name : Option String) {members : List Declaration}
    (hmembers : ∀ member ∈ members, WellNested member) :
    WellNested (.container kind name members) := by
  intro above habove
  refine forall_placed_iff.2 ⟨⟨shaped_container h name members, hsource, habove⟩, ?_⟩
  exact fun member hmember => hmembers member hmember _ (by simp)

theorem wellNested_decorated {kind : DeclarationKind} (h : kind ∈ decoratedKinds)
    (name : Option String) (ranges : List DecoratorRange) :
    WellNested (.decorated kind name ranges) := by
  intro above habove
  refine forall_placed_iff.2 ⟨⟨shaped_decorated h name ranges, ?_, habove⟩, by simp⟩
  rintro rfl
  revert h
  decide

section Conversion

variable {source : SourceText} {pending : List Node}

/-- What a node becomes is well nested if what the bodies of containers become is. -/
theorem Converts.wellNested {node : Node} {converted : Option Declaration}
    (h : Converts source pending node converted)
    (hbody : ∀ exports core, node.unwrap = some (exports, core) → ∀ members,
      membersFrom source [] core.body = .ok members → ∀ member ∈ members, WellNested member) :
    ∀ member ∈ converted.toList, WellNested member := by
  cases h with
  | empty => simp
  | skipped => simp
  | @container exports core kind name members hcore hrole _ hmembers =>
    have hkind : kind ∈ containerKinds :=
      (mem_containerKinds_iff kind).2 (role_eq_container hrole)
    simpa using wellNested_container hkind (ne_source_of_container hrole) name
      (hbody exports core hcore members hmembers)
  | @decorated exports core kind name ranges hcore hrole =>
    have hkind : kind ∈ decoratedKinds :=
      (mem_decoratedKinds_iff kind).2 (role_eq_decorated hrole)
    simpa using wellNested_decorated hkind name ranges

theorem wellNested_of_membersFrom {siblings : List Node} {members : List Declaration}
    (h : membersFrom source pending siblings = .ok members) :
    ∀ member ∈ members, WellNested member := by
  induction siblings using siblings_induction generalizing pending members with
  | nil =>
    rw [membersFrom_nil] at h
    cases h
    simp
  | cons node rest ihbody ihrest =>
    cases hw : node.waits with
    | true =>
      rw [membersFrom_cons_of_waits hw] at h
      exact ihrest h
    | false =>
      obtain ⟨converted, others, hconverts, hothers, rfl⟩ := membersFrom_cons_eq_ok hw h
      rw [List.forall_mem_append]
      refine ⟨hconverts.wellNested ?_, ihrest hothers⟩
      intro exports core hcore members hmembers
      exact ihbody exports core hcore hmembers

theorem wellShaped_of_ofRoot {root : Node} {tree : Declaration}
    (h : ofRoot source root = .ok tree) : tree.WellShaped := by
  obtain ⟨members, hmembers, htree⟩ := bind_eq_ok_iff.1 h
  cases htree
  have hnested := wellNested_of_membersFrom hmembers
  have hbelow (member : Declaration) (hmember : member ∈ members) :=
    hnested member hmember ([] ++ [Declaration.container .source none members]) (by simp)
  constructor
  · refine forall_placed_iff.2 ⟨shaped_container (by decide) none members, ?_⟩
    exact fun member hmember place hplace => (hbelow member hmember place hplace).shaped
  · refine forall_placed_iff.2 ⟨⟨fun _ => rfl, fun _ => rfl⟩, ?_⟩
    intro member hmember place hplace
    have hplaced := hbelow member hmember place hplace
    exact ⟨fun hsource => absurd hsource hplaced.not_source,
      fun hroot => absurd hroot hplaced.below⟩

end Conversion

theorem WellShaped.collects_recorded {tree : Declaration} (h : tree.WellShaped) :
    (collectRanges tree).outcome = .ok tree.recorded := by
  rw [outcome_collectRanges, decoratorRanges_of_shaped h.shaped]
  rfl

/-- A tree that a text is read as is well shaped, and what is collected from it are the decorators
recorded in it, each as often as it is recorded. -/
theorem converted_wellShaped {root : Node} {code fileName : String} {tree : Declaration}
    (h : (SourceReader.declarations root code fileName).outcome = .ok tree) :
    tree.WellShaped ∧ (collectRanges tree).outcome = .ok tree.recorded := by
  have hshape := wellShaped_of_ofRoot (SourceReader.declarations_eq_ok_iff.1 h).2
  exact ⟨hshape, hshape.collects_recorded⟩

def nestedKindsText : String := "namespace N { interface I {} @a enum E {} function f() {} }"

/-- The tree of the text, where an empty interface, an enumeration and a function without decorators
stand in a namespace. -/
def nestedKinds : Node :=
  .branch "program" 0 59
    [.branch "expression_statement" 0 59
      [.branch "internal_module" 0 59
        [(Node.branch "statement_block" 12 59
          [.branch "interface_declaration" 14 28 [],
            .branch errorKind 29 31 [.branch "decorator" 29 31 []],
            .branch "enum_declaration" 32 41 [],
            .branch "function_declaration" 42 57 []]).withField "body"]]]

/-- Only the enumeration has a decorator. -/
theorem converted_wellShaped_nested_kinds :
    ∃ tree, (SourceReader.declarations nestedKinds nestedKindsText "input.ts").outcome = .ok tree ∧
      tree.WellShaped ∧ (collectRanges tree).outcome = .ok tree.recorded ∧
      tree.recorded = [⟨29, 31⟩] := by
  obtain ⟨tree, htree⟩ := exists_eq_ok (x := (SourceReader.declarations nestedKinds nestedKindsText
    "input.ts").outcome) (by decide +kernel)
  obtain ⟨hshape, hcollect⟩ := converted_wellShaped htree
  obtain ⟨ranges, hranges, hown⟩ :=
    decoratorRanges_of_ofRoot (SourceReader.declarations_eq_ok_iff.1 htree).2
  have hvalue : (attached [] nestedKinds.namedChildren).mapM
      (rangeOf (.ofString nestedKindsText)) = .ok [⟨29, 31⟩] := by
    decide +kernel
  rw [hvalue] at hranges
  cases hranges
  rw [decoratorRanges_of_shaped hshape.shaped] at hown
  exact ⟨tree, htree, hshape, hcollect, Except.ok.inj hown⟩

end DecoratorVeil.Declaration
