import DecoratorVeil.Locate
import Mathlib.Tactic.Common

/-!
# What is collected from a declaration tree

Trees may be built freely, with any name as a kind and with members and decorators anywhere.  All
declarations of a tree are listed here in document order, each with the declarations above it.
Those with nothing but containers above them are visited: the first visited one of no known kind
stops the collection, and otherwise the visited enumerations, methods and functions give their
decorators.
-/

namespace DecoratorVeil

namespace DeclarationKind

/-- Every name is the name of the kind that it stands for, also if it stands for nothing. -/
theorem name_ofName (name : String) : (ofName name).name = name := by
  unfold ofName
  cases h : ofName? name with
  | none => rfl
  | some kind => simpa using List.find?_some h

theorem ofName_mem_known_iff (name : String) : ofName name ∈ known ↔
    name ∈ ["source", "class", "interface", "namespace", "enum", "method", "function"] := by
  have hnames : ["source", "class", "interface", "namespace", "enum", "method", "function"] =
    known.map DeclarationKind.name := rfl
  rw [hnames]
  constructor
  · intro h
    have hname := List.mem_map_of_mem (f := DeclarationKind.name) h
    rwa [name_ofName] at hname
  · intro h
    obtain ⟨kind, hkind, rfl⟩ := List.mem_map.1 h
    revert kind
    decide

theorem mem_known_iff (kind : DeclarationKind) : kind ∈ known ↔ kind.role ≠ .unknown := by
  cases kind <;> simp [known, role]

end DeclarationKind

namespace Declaration
open DeclarationKind

/-! ## Document order -/

mutual

def placed (above : List Declaration) : Declaration → List (List Declaration × Declaration)
  | ⟨kind, name, members, decorators⟩ =>
    (above, ⟨kind, name, members, decorators⟩) ::
      placedMembers (above ++ [⟨kind, name, members, decorators⟩]) members

def placedMembers (above : List Declaration) :
    Option (List Declaration) → List (List Declaration × Declaration)
  | none => []
  | some members => placedAll above members

def placedAll (above : List Declaration) :
    List Declaration → List (List Declaration × Declaration)
  | [] => []
  | member :: rest => placed above member ++ placedAll above rest

end

/-- The kinds of declarations whose members are walked. -/
def containerKinds : List DeclarationKind := [.source, .classType, .interfaceType, .namespaceType]

/-- The kinds of declarations that give their decorators. -/
def decoratedKinds : List DeclarationKind := [.enumType, .method, .function]

/-- The declarations of a tree, in document order, that have only containers above them. -/
def visitedFrom (above : List Declaration) (tree : Declaration) : List Declaration :=
  ((placed above tree).filter fun place => place.1.all (·.kind ∈ containerKinds)).map Prod.snd

def visited (tree : Declaration) : List Declaration := visitedFrom [] tree

def Known (tree : Declaration) : Prop := ∀ place ∈ placed [] tree, place.2.kind ∈ known

/-- The decorators of an enumeration, method or function; those of other declarations do not
count. -/
def contribution (declaration : Declaration) : List DecoratorRange :=
  if declaration.kind ∈ decoratedKinds then declaration.decorators.getD [] else []

section Placed

variable {kind : DeclarationKind} {name : Option String} {members : Option (List Declaration)}
  {decorators : Option (List DecoratorRange)}

theorem sizeOf_member_lt {member : Declaration} (h : member ∈ members.getD []) :
    sizeOf member < sizeOf (Declaration.mk kind name members decorators) := by
  cases members with
  | none => cases h
  | some members =>
    rw [Option.getD_some] at h
    have := List.sizeOf_lt_of_mem h
    simp only [mk.sizeOf_spec, Option.some.sizeOf_spec]
    omega

/-- What holds of a declaration if it holds of its members holds of all. -/
@[elab_as_elim]
theorem members_induction {motive : Declaration → Prop}
    (step : ∀ kind name members decorators, (∀ member ∈ members.getD [], motive member) →
      motive ⟨kind, name, members, decorators⟩) : ∀ tree, motive tree
  | ⟨kind, name, members, decorators⟩ =>
    step kind name members decorators fun member _ => members_induction step member
termination_by tree => sizeOf tree
decreasing_by exact sizeOf_member_lt (by assumption)

theorem placedAll_eq (above members : List Declaration) :
    placedAll above members = members.flatMap (placed above) := by
  induction members with
  | nil => rfl
  | cons member rest ih => rw [placedAll, ih, List.flatMap_cons]

theorem placed_eq (above : List Declaration) :
    placed above ⟨kind, name, members, decorators⟩ =
      (above, ⟨kind, name, members, decorators⟩) ::
        (members.getD []).flatMap (placed (above ++ [⟨kind, name, members, decorators⟩])) := by
  rw [placed]
  cases members with
  | none => rfl
  | some members => rw [placedMembers, placedAll_eq, Option.getD_some]

theorem visitedFrom_eq (above : List Declaration) :
    visitedFrom above ⟨kind, name, members, decorators⟩ =
      (if above.all (·.kind ∈ containerKinds) then [⟨kind, name, members, decorators⟩] else []) ++
        (members.getD []).flatMap (visitedFrom (above ++ [⟨kind, name, members, decorators⟩])) := by
  unfold visitedFrom
  rw [placed_eq, List.filter_cons, List.filter_flatMap]
  split_ifs <;> simp [List.map_flatMap]

/-- Below anything but containers nothing is visited. -/
theorem visitedFrom_of_hidden {above : List Declaration}
    (h : above.all (·.kind ∈ containerKinds) = false) (tree : Declaration) :
    visitedFrom above tree = [] := by
  induction tree using members_induction generalizing above with
  | step kind name members decorators ih =>
    rw [visitedFrom_eq, if_neg (by simp [h]), List.nil_append, List.flatMap_eq_nil_iff]
    intro member hmember
    apply ih member hmember
    rw [List.all_append, h, Bool.false_and]

end Placed

/-! ## Reports on lists of declarations -/

/-- What comes of declarations that are looked at one after the other, without their members. -/
def report (declarations : List Declaration) : Except UnknownKind (List DecoratorRange) :=
  match declarations.find? (·.kind ∉ known) with
  | some unknown => .error ⟨unknown.kind.name⟩
  | none => .ok (declarations.flatMap contribution)

theorem report_append (first second : List Declaration) :
    report (first ++ second) = do
      let found ← report first
      let others ← report second
      return found ++ others := by
  unfold report
  rw [List.find?_append]
  cases first.find? (·.kind ∉ known) with
  | some unknown => rfl
  | none =>
    rw [Option.none_or]
    cases second.find? (·.kind ∉ known) with
    | some unknown => rfl
    | none =>
      rw [List.flatMap_append]
      rfl

/-- The members of a list give one report if each gives its own. -/
theorem allRanges_eq_report {members : List Declaration} {below : Declaration → List Declaration}
    (h : ∀ member ∈ members, member.decoratorRanges = report (below member)) :
    allRanges members = report (members.flatMap below) := by
  induction members with
  | nil => rw [allRanges]; rfl
  | cons member rest ih =>
    obtain ⟨hmember, hrest⟩ := List.forall_mem_cons.1 h
    rw [allRanges, hmember, ih hrest, List.flatMap_cons, report_append]

theorem mem_containerKinds_iff (kind : DeclarationKind) :
    kind ∈ containerKinds ↔ kind.role = .container := by
  cases kind <;> simp [containerKinds, role]

theorem mem_decoratedKinds_iff (kind : DeclarationKind) :
    kind ∈ decoratedKinds ↔ kind.role = .decorated := by
  cases kind <;> simp [decoratedKinds, role]

theorem membersRanges_eq (members : Option (List Declaration)) :
    membersRanges members = allRanges (members.getD []) := by
  cases members with
  | none => rw [membersRanges, Option.getD_none, allRanges]
  | some members => rw [membersRanges, Option.getD_some]

/-- The walk through the tree reports on the visited declarations, wherever it starts. -/
theorem decoratorRanges_eq_report (above : List Declaration)
    (h : above.all (·.kind ∈ containerKinds) = true) (tree : Declaration) :
    tree.decoratorRanges = report (visitedFrom above tree) := by
  induction tree using members_induction generalizing above with
  | step kind name members decorators ih =>
    rw [visitedFrom_eq, if_pos h, decoratorRanges]
    -- The members of anything but a container are hidden.
    have hhidden (hkind : kind ∉ containerKinds) : (members.getD []).flatMap
        (visitedFrom (above ++ [⟨kind, name, members, decorators⟩])) = [] := by
      rw [List.flatMap_eq_nil_iff]
      intro member _
      apply visitedFrom_of_hidden
      simp [hkind]
    cases hrole : kind.role with
    | container =>
      have hkind : kind ∈ containerKinds := (mem_containerKinds_iff kind).2 hrole
      have hbelow := allRanges_eq_report fun member hmember =>
        ih member hmember (above ++ [⟨kind, name, members, decorators⟩])
          (by simpa [hkind] using h)
      have hown : report [⟨kind, name, members, decorators⟩] = .ok [] := by
        simp [report, contribution, mem_known_iff, mem_decoratedKinds_iff, hrole]
      rw [report_append, hown, ← hbelow]
      simp only [membersRanges_eq]
      exact (bind_pure _).symm
    | decorated =>
      rw [hhidden (by simp [mem_containerKinds_iff, hrole])]
      simp [report, contribution, mem_known_iff, mem_decoratedKinds_iff, hrole]
    | unknown =>
      rw [hhidden (by simp [mem_containerKinds_iff, hrole])]
      simp [report, mem_known_iff, hrole]

theorem exists_decoratorRanges {tree : Declaration} (h : tree.Known) :
    ∃ ranges, tree.decoratorRanges = .ok ranges := by
  have hnone : tree.visited.find? (·.kind ∉ known) = none := by
    rw [List.find?_eq_none]
    intro declaration hvisited
    obtain ⟨place, hplace, rfl⟩ := List.mem_map.1 hvisited
    simpa using h place (List.mem_filter.1 hplace).1
  refine ⟨tree.visited.flatMap contribution, ?_⟩
  rw [decoratorRanges_eq_report [] rfl, ← visited, report, hnone]

/-! ## What is left out -/

mutual

/-- A tree without the decorators of containers and without the members of enumerations, methods
and functions. -/
def bare : Declaration → Declaration
  | ⟨kind, name, members, decorators⟩ =>
    match kind.role with
    | .container => ⟨kind, name, bareMembers members, none⟩
    | .decorated => ⟨kind, name, none, decorators⟩
    | .unknown => ⟨kind, name, members, decorators⟩

def bareMembers : Option (List Declaration) → Option (List Declaration)
  | none => none
  | some members => some (bareAll members)

def bareAll : List Declaration → List Declaration
  | [] => []
  | member :: rest => bare member :: bareAll rest

end

theorem allRanges_bareAll {members : List Declaration}
    (h : ∀ member ∈ members, member.bare.decoratorRanges = member.decoratorRanges) :
    allRanges (bareAll members) = allRanges members := by
  induction members with
  | nil => rw [bareAll]
  | cons member rest ih =>
    obtain ⟨hmember, hrest⟩ := List.forall_mem_cons.1 h
    rw [bareAll, allRanges, allRanges, hmember, ih hrest]

theorem decoratorRanges_bare (tree : Declaration) :
    tree.bare.decoratorRanges = tree.decoratorRanges := by
  induction tree using members_induction with
  | step kind name members decorators ih =>
    rw [bare, decoratorRanges]
    cases hrole : kind.role with
    | container =>
      simp only [decoratorRanges, hrole]
      cases members with
      | none => rw [bareMembers]
      | some members =>
        rw [bareMembers, membersRanges, membersRanges]
        exact allRanges_bareAll ih
    | decorated => simp only [decoratorRanges, hrole]
    | unknown => simp only [decoratorRanges, hrole]

/-! ## The collection -/

theorem outcome_collectRanges (tree : Declaration) :
    (collectRanges tree).outcome =
      tree.decoratorRanges.mapError fun unknown => .shape unknown.name := by
  unfold collectRanges
  cases tree.decoratorRanges <;> rfl

/-- Collecting fails exactly if a visited declaration is of no known kind, and then names the kind
of the first one.  Otherwise it gives the decorators of the visited enumerations, methods and
functions in document order; what stands at containers or below the others makes no difference. -/
theorem collected_exact (tree : Declaration) :
    ((∃ name, (collectRanges tree).outcome = .error (.shape name)) ↔
      ∃ unknown ∈ tree.visited, unknown.kind ∉ known) ∧
    (∀ before unknown after, tree.visited = before ++ unknown :: after →
      (∀ declaration ∈ before, declaration.kind ∈ known) → unknown.kind ∉ known →
      (collectRanges tree).outcome = .error (.shape unknown.kind.name)) ∧
    ((∀ declaration ∈ tree.visited, declaration.kind ∈ known) →
      (collectRanges tree).outcome = .ok (tree.visited.flatMap contribution)) ∧
    (collectRanges tree.bare).outcome = (collectRanges tree).outcome ∧
    ∀ name, (ofName name).name = name ∧ (ofName name ∈ known ↔
      name ∈ ["source", "class", "interface", "namespace", "enum", "method", "function"]) := by
  have hreport : (collectRanges tree).outcome =
      (report tree.visited).mapError fun unknown => .shape unknown.name := by
    rw [outcome_collectRanges, decoratorRanges_eq_report [] rfl, visited]
  have hok (h : ∀ declaration ∈ tree.visited, declaration.kind ∈ known) :
      (collectRanges tree).outcome = .ok (tree.visited.flatMap contribution) := by
    have hnone : tree.visited.find? (·.kind ∉ known) = none := by simpa using h
    rw [hreport, report, hnone]
    rfl
  have hfirst (before : List Declaration) (unknown : Declaration) (after : List Declaration)
      (hsplit : tree.visited = before ++ unknown :: after)
      (hbefore : ∀ declaration ∈ before, declaration.kind ∈ known) (hkind : unknown.kind ∉ known) :
      (collectRanges tree).outcome = .error (.shape unknown.kind.name) := by
    have hfind : tree.visited.find? (·.kind ∉ known) = some unknown := by
      rw [List.find?_eq_some_iff_append]
      exact ⟨by simpa using hkind, before, after, hsplit, by simpa using hbefore⟩
    rw [hreport, report, hfind]
    rfl
  refine ⟨⟨?_, ?_⟩, hfirst, hok, ?_, fun name => ⟨name_ofName name, ofName_mem_known_iff name⟩⟩
  · rintro ⟨name, hname⟩
    by_contra hall
    push Not at hall
    rw [hok hall] at hname
    cases hname
  · rintro ⟨unknown, hmem, hkind⟩
    obtain ⟨first, hfind⟩ := Option.isSome_iff_exists.1
      (List.find?_isSome.2 ⟨unknown, hmem, by simpa using hkind⟩ :
        (tree.visited.find? (·.kind ∉ known)).isSome = true)
    obtain ⟨hfirstkind, before, after, hsplit, hbefore⟩ := List.find?_eq_some_iff_append.1 hfind
    exact ⟨_, hfirst before first after hsplit (by simpa using hbefore) (by simpa using hfirstkind)⟩
  · rw [outcome_collectRanges, outcome_collectRanges, decoratorRanges_bare]

/-- A class with a decorator, over a method with a decorator and a member of no known kind. -/
def mixedClass : Declaration :=
  ⟨.classType, none, some [⟨.method, none, some [⟨.other "lost", none, none, none⟩],
    some [⟨3, 5⟩]⟩, ⟨.enumType, none, none, some [⟨1, 2⟩]⟩], some [⟨0, 9⟩]⟩

def brokenSource : Declaration :=
  ⟨.source, none, some [mixedClass, ⟨.other "one", none, none, none⟩,
    ⟨.other "two", none, none, none⟩], none⟩

/-- Only what is visited counts, in document order. -/
theorem collected_exact_mixed :
    (collectRanges mixedClass).outcome = .ok [⟨3, 5⟩, ⟨1, 2⟩] ∧
    (collectRanges brokenSource).outcome = .error (.shape "one") := by
  constructor
  · exact (collected_exact mixedClass).2.2.1 (by decide)
  · exact (collected_exact brokenSource).2.1 (brokenSource.visited.take 4)
      ⟨.other "one", none, none, none⟩ (brokenSource.visited.drop 5) rfl (by decide) (by decide)

end Declaration

end DecoratorVeil
