import DecoratorVeil.Locate
import DecoratorVeil.Proofs.Declaration.Offsets
import DecoratorVeil.Proofs.Declaration.Spans
import DecoratorVeil.Proofs.Sentinel.Layout
import DecoratorVeil.Proofs.Traced
import Mathlib.Data.List.Perm.Basic

/-!
# Located ranges

The ranges that are located through a syntax tree with nested spans are ordered, apart and not
empty, and each is the range of a decorator of its own.  So they can always be marked.
-/

namespace DecoratorVeil

open Syntax Declaration Text.Utf8

/-- A range in characters and a node whose span in bytes it is. -/
def Covers (code : List Char) (range : DecoratorRange) (node : Node) : Prop :=
  ∃ start stop : Nat, start ≤ code.length ∧ stop ≤ code.length ∧ range = ⟨start, stop⟩ ∧
    node.start = byteOffset code start ∧ node.stop = byteOffset code stop

theorem covers_of_rangeOf {code : String} {node : Node} {range : DecoratorRange}
    (hnode : node.Spanned code.toList) (h : rangeOf (.ofString code) node = .ok range) :
    Covers code.toList range node := by
  obtain ⟨start, hstart, hfirst⟩ := hnode.start_boundary
  obtain ⟨stop, hstop, hlast⟩ := hnode.stop_boundary
  rw [rangeOf_of_byteOffset hstart hstop hfirst hlast] at h
  cases h
  exact ⟨start, stop, hstart, hstop, rfl, hfirst, hlast⟩

namespace Covers

variable {code : List Char} {range other : DecoratorRange} {node second : Node}

theorem bounds (h : Covers code range node) (hne : node.start < node.stop) :
    0 ≤ range.start ∧ range.start < range.stop ∧ range.stop ≤ code.length := by
  obtain ⟨start, stop, hstart, hstop, rfl, hfirst, hlast⟩ := h
  have hlt : start < stop := by
    by_contra hle
    have := (byteOffset_le_byteOffset_iff code hstop hstart).2 (by omega)
    omega
  simp only
  omega

theorem le_of_le (h : Covers code range node) (h' : Covers code other second)
    (hle : node.stop ≤ second.start) : range.stop ≤ other.start := by
  obtain ⟨_, stop, _, hstop, rfl, _, hlast⟩ := h
  obtain ⟨start, _, hstart, _, rfl, hfirst, _⟩ := h'
  rw [hlast, hfirst, byteOffset_le_byteOffset_iff code hstop hstart] at hle
  exact Int.ofNat_le.2 hle

end Covers

/-- The characters of a range are encoded by the bytes of its node. -/
theorem encode_slice_of_covers {code : String} {range : DecoratorRange} {node : Node}
    (h : Covers code.toList range node) (hne : node.start < node.stop) :
    encode (range.slice code.toList) = Declaration.bytesOf (.ofString code) node := by
  have hlt := (h.bounds hne).2.1
  obtain ⟨start, stop, -, -, rfl, hfirst, hlast⟩ := h
  have hle : start ≤ stop := Int.ofNat_le.1 (Int.le_of_lt hlt)
  rw [DecoratorRange.slice, Declaration.bytesOf, hfirst, hlast]
  exact encode_slice code.toList hle

def DecoratorRange.Apart (a b : DecoratorRange) : Prop := a.stop ≤ b.start ∨ b.stop ≤ a.start

theorem sortRanges_perm (ranges : List DecoratorRange) : (sortRanges ranges).Perm ranges :=
  List.mergeSort_perm ranges _

/-- Sorting by the start puts ranges that are apart in order. -/
theorem sortRanges_ordered {ranges : List DecoratorRange}
    (hne : ∀ range ∈ ranges, range.start < range.stop)
    (hapart : ranges.Pairwise DecoratorRange.Apart) :
    (sortRanges ranges).Pairwise fun a b => a.stop ≤ b.start := by
  have hperm := sortRanges_perm ranges
  have hsorted : (sortRanges ranges).Pairwise fun a b => decide (a.start ≤ b.start) = true :=
    List.pairwise_mergeSort (by simp only [decide_eq_true_eq]; omega)
      (by simp only [Bool.or_eq_true, decide_eq_true_eq]; omega) ranges
  have hapart' : (sortRanges ranges).Pairwise DecoratorRange.Apart :=
    (hperm.pairwise_iff Or.symm).2 hapart
  refine (hsorted.and hapart').imp_of_mem ?_
  rintro a b ha hb ⟨hstart, hor⟩
  have hb' := hne b (hperm.subset hb)
  rw [decide_eq_true_eq] at hstart
  rcases hor with h | h
  · exact h
  · omega

theorem exists_of_mem_forall₂ {α β : Type} {r : α → β → Prop} {a : List α} {b : List β} {x : α}
    (h : List.Forall₂ r a b) (hx : x ∈ a) : ∃ y ∈ b, r x y := by
  induction h with
  | nil => cases hx
  | cons hfirst _ ih =>
    rcases List.mem_cons.1 hx with rfl | hx
    · exact ⟨_, List.mem_cons_self, hfirst⟩
    · obtain ⟨y, hy, hxy⟩ := ih hx
      exact ⟨y, List.mem_cons_of_mem _ hy, hxy⟩

/-- Ranges of nodes that are apart are apart. -/
theorem ranges_apart {code : List Char} {ranges : List DecoratorRange} {nodes : List Node}
    (hcovers : List.Forall₂ (Covers code) ranges nodes) (hapart : nodes.Pairwise Node.Apart) :
    ranges.Pairwise DecoratorRange.Apart := by
  induction hcovers with
  | nil => exact .nil
  | @cons range node ranges nodes hfirst hrest ih =>
    obtain ⟨hnode, hnodes⟩ := List.pairwise_cons.1 hapart
    refine List.pairwise_cons.2 ⟨?_, ih hnodes⟩
    intro other hother
    obtain ⟨second, hsecond, hcover⟩ := exists_of_mem_forall₂ hrest hother
    exact (hnode second hsecond).imp (hfirst.le_of_le hcover) (hcover.le_of_le hfirst)

section Outcomes

variable {reader : SourceReader} {code : String}

/-- Only a text of another language is passed over; every other failure stays one. -/
theorem outcome_tryRead (reader : SourceReader) (code : String) :
    (tryRead reader code).outcome =
      match (reader code placeholderFileName).outcome with
      | .ok source => .ok (some source)
      | .error (.tool (.dialect _)) => .ok none
      | .error failure => .error failure := by
  have hmap := Traced.outcome_map (reader code placeholderFileName) (some : Declaration → _)
  unfold tryRead
  split
  · rename_i source hread
    rw [hread] at hmap
    rw [Traced.recover_of_ok _ hmap, hmap]
    rfl
  · rename_i message hread
    rw [hread] at hmap
    rw [Traced.recover_of_handled hmap rfl, Traced.outcome_after]
    rfl
  · rename_i failure hdialect hread
    rw [hread] at hmap
    rw [Traced.recover_of_unhandled hmap, hmap]
    · rfl
    · split
      · rename_i message
        exact absurd rfl (hdialect message)
      · rfl

theorem locate_of_ok {source : Declaration} {ranges : List DecoratorRange}
    (h : (reader code placeholderFileName).outcome = .ok source)
    (hranges : source.decoratorRanges = .ok ranges) :
    (locate reader code).outcome = .ok (some (sortRanges ranges)) := by
  rw [locate, Traced.outcome_bind, outcome_tryRead, h]
  change (collectRanges source >>= fun found => pure (some (sortRanges found))).outcome = _
  rw [Traced.outcome_bind, collectRanges, hranges]
  rfl

theorem locate_of_dialect {message : String}
    (h : (reader code placeholderFileName).outcome = .error (.dialect message)) :
    (locate reader code).outcome = .ok none := by
  rw [locate, Traced.outcome_bind, outcome_tryRead, h]
  rfl

theorem locate_of_error {failure : Failure}
    (h : (reader code placeholderFileName).outcome = .error failure)
    (hdialect : ∀ message, failure ≠ .dialect message) :
    (locate reader code).outcome = .error failure := by
  have hread : (tryRead reader code).outcome = .error failure := by
    rw [outcome_tryRead, h]
    split
    · contradiction
    · rename_i message heq
      cases heq
      exact absurd rfl (hdialect message)
    · rename_i heq
      cases heq
      rfl
  rw [locate, Traced.outcome_bind, hread]
  rfl

theorem markCode_of_locate {found : Option (List DecoratorRange)}
    (h : (locate reader code).outcome = .ok found) :
    (markCode reader code).outcome = markRanges code found := by
  rw [markCode, Traced.outcome_bind, h]
  exact Traced.outcome_ofExcept _

theorem markCode_of_locate_error {failure : Failure}
    (h : (locate reader code).outcome = .error failure) :
    (markCode reader code).outcome = .error failure := by
  rw [markCode, Traced.outcome_bind, h]
  rfl

end Outcomes

/-- Ranges of a text in order, each the exact place of a decorator of the tree that no other range
has. -/
structure Located (code : String) (root : Node) (ranges : List DecoratorRange)
    (nodes : List Node) : Prop where
  bounds : ∀ range ∈ ranges, 0 ≤ range.start ∧ range.start < range.stop ∧
    range.stop ≤ code.toList.length
  ordered : ranges.Pairwise fun a b => a.stop ≤ b.start
  distinct : nodes.Nodup
  decorators : ∀ node ∈ nodes, root.Contains node ∧ node.kind = "decorator"
  exact_bytes : List.Forall₂ (fun range node => rangeOf (.ofString code) node = .ok range ∧
    encode (range.slice code.toList) = Declaration.bytesOf (.ofString code) node) ranges nodes

/-- Ranges of decorators that are apart are located once they are sorted. -/
theorem located_sortRanges {code : String} {root : Node} {ranges : List DecoratorRange}
    {nodes : List Node} (hroot : root.WellSpanned code.toList)
    (hnodes : ∀ node ∈ nodes, root.Contains node ∧ node.kind = "decorator")
    (hapart : nodes.Pairwise Node.Apart)
    (hranges : nodes.mapM (rangeOf (.ofString code)) = .ok ranges) :
    ∃ sorted, Located code root (sortRanges ranges) sorted := by
  have hspanned : ∀ node ∈ nodes, node.Spanned code.toList ∧ node.start < node.stop := by
    intro node hnode
    have hspan := hroot node (hnodes node hnode).1
    exact ⟨hspan, hspan.decorator_nonempty (hnodes node hnode).2⟩
  have hall := forall₂_rangeOf hranges
  have hcovers : List.Forall₂ (fun range node => Covers code.toList range node ∧
      rangeOf (.ofString code) node = .ok range ∧ node.start < node.stop) ranges nodes := by
    refine ((List.forall₂_and_left nodes ranges).2 ⟨hspanned, hall.flip⟩).flip.imp ?_
    rintro range node ⟨⟨hspan, hne⟩, hrange⟩
    exact ⟨covers_of_rangeOf hspan hrange, hrange, hne⟩
  have hperm := sortRanges_perm ranges
  obtain ⟨sorted, hsorted, hsortedperm⟩ := List.perm_comp_forall₂ hperm hcovers
  have hbounds : ∀ range ∈ ranges, 0 ≤ range.start ∧ range.start < range.stop ∧
      range.stop ≤ code.toList.length := by
    intro range hrange
    obtain ⟨node, -, hcover, -, hne⟩ := exists_of_mem_forall₂ hcovers hrange
    exact hcover.bounds hne
  refine ⟨sorted, fun range hrange => hbounds range (hperm.subset hrange), ?_, ?_, ?_, ?_⟩
  · exact sortRanges_ordered (fun range hrange => (hbounds range hrange).2.1)
      (ranges_apart (hcovers.imp fun _ _ h => h.1) hapart)
  · -- A node that is not empty is not apart from itself.
    refine (hsortedperm.nodup_iff).2 (hapart.imp_of_mem ?_)
    rintro a b ha - hab rfl
    have hne := (hspanned a ha).2
    rcases hab with h | h <;> omega
  · exact fun node hnode => hnodes node (hsortedperm.subset hnode)
  · refine hsorted.imp ?_
    rintro range node ⟨hcover, hrange, hne⟩
    exact ⟨hrange, encode_slice_of_covers hcover hne⟩

/-- Located ranges can be marked. -/
theorem Located.exists_markRanges {code : String} {root : Node} {ranges : List DecoratorRange}
    {nodes : List Node} (h : Located code root ranges nodes) :
    ∃ marked, markRanges code (some ranges) = .ok marked := by
  have hinside : ∀ range ∈ ranges, ((0 : Nat) : Int) ≤ range.start ∧ range.start ≤ range.stop ∧
      range.stop ≤ code.toList.length := by
    intro range hrange
    have := h.bounds range hrange
    omega
  obtain ⟨marked, hmarked⟩ :=
    Sentinel.exists_markFrom_eq_ok code.toList hinside h.ordered
  refine ⟨String.ofList marked, ?_⟩
  rw [markRanges, Sentinel.mark, hmarked]

/-- A text that is read by a well-spanned tree has located ranges. -/
theorem exists_located {tree : String → Node} {code fileName : String} {source : Declaration}
    (hroot : (tree code).WellSpanned code.toList)
    (h : (SourceReader.ofSyntax tree code fileName).outcome = .ok source) :
    ∃ ranges nodes, (locate (.ofSyntax tree) code).outcome = .ok (some ranges) ∧
      Located code (tree code) ranges nodes := by
  obtain ⟨hreadable, htree⟩ := SourceReader.declarations_eq_ok_iff.1 h
  obtain ⟨ranges, hranges, hcollect⟩ := decoratorRanges_of_ofRoot htree
  have hread : (SourceReader.ofSyntax tree code placeholderFileName).outcome = .ok source :=
    SourceReader.declarations_eq_ok_iff.2 ⟨hreadable, htree⟩
  have hchild : ∀ sibling ∈ (tree code).namedChildren, (tree code).Contains sibling :=
    fun sibling hs => .of_child (Node.mem_children_of_mem_namedChildren hs) (.refl sibling)
  have hnodes : ∀ node ∈ Node.attached [] (tree code).namedChildren,
      (tree code).Contains node ∧ node.kind = "decorator" := by
    intro node hnode
    obtain hnone | ⟨sibling, hsibling, hcontains, hkind⟩ := Node.mem_attached hnode
    · cases hnone
    · exact ⟨(hchild sibling hsibling).trans hcontains, hkind⟩
  have hapart : (Node.attached [] (tree code).namedChildren).Pairwise Node.Apart := by
    apply @Node.attached_apart code.toList
    · exact fun sibling hs => hroot.of_contains (hchild sibling hs)
    · exact (hroot _ (.refl _)).children_ordered.sublist List.filter_sublist
  obtain ⟨nodes, hlocated⟩ := located_sortRanges hroot hnodes hapart hranges
  exact ⟨_, nodes, locate_of_ok hread hcollect, hlocated⟩

/-- Locating in a text that is read by a well-spanned tree gives ordered ranges, the exact places of
different decorators, and marking never fails for the sake of a range. -/
theorem locate_ordered_exact {tree : String → Node} {code : String}
    (h : (tree code).WellSpanned code.toList) :
    (∀ fileName source, (SourceReader.ofSyntax tree code fileName).outcome = .ok source →
      (∃ ranges nodes, (locate (.ofSyntax tree) code).outcome = .ok (some ranges) ∧
        Located code (tree code) ranges nodes) ∧
      ∃ marked, (markCode (.ofSyntax tree) code).outcome = .ok marked) ∧
    ∀ message, (markCode (.ofSyntax tree) code).outcome ≠ .error (.tool (.range message)) := by
  have hmarks {fileName : String} {source : Declaration}
      (hread : (SourceReader.ofSyntax tree code fileName).outcome = .ok source) :
      ∃ marked, (markCode (.ofSyntax tree) code).outcome = .ok marked := by
    obtain ⟨ranges, nodes, hlocate, hlocated⟩ := exists_located h hread
    rw [markCode_of_locate hlocate]
    exact hlocated.exists_markRanges
  refine ⟨fun fileName source hread => ⟨exists_located h hread, hmarks hread⟩, ?_⟩
  intro message hmark
  cases hread : (SourceReader.ofSyntax tree code placeholderFileName).outcome with
  | ok source =>
    obtain ⟨marked, hmarked⟩ := hmarks hread
    rw [hmarked] at hmark
    cases hmark
  | error failure =>
    obtain ⟨-, rfl⟩ | ⟨-, error, -, rfl⟩ := SourceReader.declarations_eq_error_iff.1 hread
    · rw [markCode_of_locate (locate_of_dialect hread)] at hmark
      cases hmark
    · have hdialect : ∀ text, error.failure ≠ .dialect text := by
        intro text htext
        cases error <;> cases htext
      rw [markCode_of_locate_error (locate_of_error hread hdialect)] at hmark
      cases error <;> cases hmark

def arrowCommentText : String := "@a /*→*/ export @é function f() {}"

/-- The tree of the text, whose spans count bytes. -/
def arrowComment : Node :=
  .branch "program" 0 37
    [.branch errorKind 0 2 [.branch "decorator" 0 2 []],
      .branch "comment" 3 10 [],
      .branch "export_statement" 11 37
        [.branch "decorator" 18 21 [],
          (Node.branch "function_declaration" 22 37 []).withField "declaration"]]

/-- The positions of the second range fall behind its bytes by three. -/
theorem locate_ordered_exact_arrow_comment :
    arrowComment.WellSpanned arrowCommentText.toList ∧
      ∃ nodes, (locate (.ofSyntax fun _ => arrowComment) arrowCommentText).outcome =
          .ok (some [⟨0, 2⟩, ⟨16, 18⟩]) ∧
        Located arrowCommentText arrowComment [⟨0, 2⟩, ⟨16, 18⟩] nodes := by
  have hspanned : arrowComment.WellSpanned arrowCommentText.toList := by decide +kernel
  obtain ⟨source, hread⟩ := exists_eq_ok (x := (SourceReader.ofSyntax (fun _ => arrowComment)
    arrowCommentText "input.ts").outcome) (by decide +kernel)
  obtain ⟨ranges, hranges, hcollect⟩ :=
    decoratorRanges_of_ofRoot (SourceReader.declarations_eq_ok_iff.1 hread).2
  have hvalue : (Node.attached [] arrowComment.namedChildren).mapM
      (rangeOf (.ofString arrowCommentText)) = .ok [⟨0, 2⟩, ⟨16, 18⟩] := by
    decide +kernel
  rw [hvalue] at hranges
  cases hranges
  have hsort : sortRanges [⟨0, 2⟩, ⟨16, 18⟩] = [⟨0, 2⟩, ⟨16, 18⟩] :=
    List.mergeSort_of_pairwise (by decide)
  have hfound : (locate (.ofSyntax fun _ => arrowComment) arrowCommentText).outcome =
      .ok (some [⟨0, 2⟩, ⟨16, 18⟩]) := by
    rw [locate_of_ok hread hcollect, hsort]
  obtain ⟨⟨ranges, nodes, hlocate, hlocated⟩, -⟩ :=
    (@locate_ordered_exact (fun _ => arrowComment) _ hspanned).1 _ source hread
  rw [hfound] at hlocate
  cases hlocate
  exact ⟨hspanned, nodes, hfound, hlocated⟩

end DecoratorVeil
