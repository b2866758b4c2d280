import DecoratorVeil.Proofs.Declaration.Collected
import DecoratorVeil.Proofs.Locate
import DecoratorVeil.Proofs.Sentinel.Acceptance
import Mathlib

/-!
# Marking by the set of ranges

The ranges of a text are sorted by their start alone and then marked in one pass.  As long as none
of them is empty, this depends on no more than the set of the ranges: they can be marked exactly if
each lies in the text and no two of them overlap, and then their order is determined.  The shape of
the tree from which they are collected makes no difference.
-/

namespace DecoratorVeil

/-- Ranges that lie in a text of the given length, are not empty and do not overlap. -/
structure Markable (length : Nat) (ranges : List DecoratorRange) : Prop where
  bounds : ∀ range ∈ ranges, 0 ≤ range.start ∧ range.start < range.stop ∧ range.stop ≤ length
  disjoint : ranges.Pairwise fun a b =>
    Disjoint (Set.Ico a.start a.stop) (Set.Ico b.start b.stop)

/-- Ranges that are not empty have no offset in common exactly if they are apart. -/
theorem disjoint_iff_apart {a b : DecoratorRange} (ha : a.start < a.stop) (hb : b.start < b.stop) :
    Disjoint (Set.Ico a.start a.stop) (Set.Ico b.start b.stop) ↔ a.Apart b := by
  rw [Set.Ico_disjoint_Ico, DecoratorRange.Apart]
  omega

namespace Sentinel

variable {cursor : Int} {length : Nat} {ranges : List DecoratorRange}

theorem Ascending.bounds (h : Ascending cursor length ranges) :
    ∀ range ∈ ranges, cursor ≤ range.start ∧ range.start ≤ range.stop ∧ range.stop ≤ length := by
  induction ranges generalizing cursor with
  | nil => simp
  | cons first ranges ih =>
    obtain ⟨hstart, horder, hlater⟩ := ascending_cons_iff.1 h
    intro range hrange
    rcases List.mem_cons.1 hrange with rfl | hrange
    · exact ⟨hstart, horder, hlater.le_length⟩
    · have := ih hlater range hrange
      omega

theorem Ascending.ordered (h : Ascending cursor length ranges) :
    ranges.Pairwise fun a b => a.stop ≤ b.start := by
  induction ranges generalizing cursor with
  | nil => exact .nil
  | cons first ranges ih =>
    obtain ⟨-, -, hlater⟩ := ascending_cons_iff.1 h
    exact .cons (fun range hrange => (hlater.bounds range hrange).1) (ih hlater)

end Sentinel

open Sentinel

section Sorted

variable {length : Nat} {ranges others : List DecoratorRange}

theorem Markable.apart (h : Markable length ranges) : ranges.Pairwise DecoratorRange.Apart :=
  h.disjoint.imp_of_mem fun ha hb hab =>
    (disjoint_iff_apart (h.bounds _ ha).2.1 (h.bounds _ hb).2.1).1 hab

theorem Markable.sorted (h : Markable length ranges) :
    (sortRanges ranges).Pairwise fun a b => a.stop ≤ b.start :=
  sortRanges_ordered (fun range hrange => (h.bounds range hrange).2.1) h.apart

/-- The single pass over the sorted ranges decides what is said of all pairs. -/
theorem ascending_sortRanges_iff {code : List Char}
    (hne : ∀ range ∈ ranges, range.start ≠ range.stop) :
    Ascending 0 code.length (sortRanges ranges) ↔ Markable code.length ranges := by
  have hperm := sortRanges_perm ranges
  constructor
  · intro h
    have hbounds : ∀ range ∈ ranges,
        0 ≤ range.start ∧ range.start < range.stop ∧ range.stop ≤ code.length := by
      intro range hrange
      have := h.bounds range (hperm.symm.subset hrange)
      have := hne range hrange
      omega
    have hapart : ranges.Pairwise DecoratorRange.Apart :=
      (hperm.pairwise_iff Or.symm).1 (h.ordered.imp .inl)
    refine ⟨hbounds, hapart.imp_of_mem fun ha hb hab => ?_⟩
    exact (disjoint_iff_apart (hbounds _ ha).2.1 (hbounds _ hb).2.1).2 hab
  · intro h
    have hinside : ∀ range ∈ sortRanges ranges, ((0 : Nat) : Int) ≤ range.start ∧
        range.start ≤ range.stop ∧ range.stop ≤ code.length := by
      intro range hrange
      have := h.bounds range (hperm.subset hrange)
      omega
    obtain ⟨marked, hmarked⟩ := exists_markFrom_eq_ok code hinside h.sorted
    exact ascending_of_mark hmarked

theorem Markable.of_perm (hperm : ranges.Perm others) (h : Markable length ranges) :
    Markable length others where
  bounds range hrange := h.bounds range (hperm.symm.subset hrange)
  disjoint := (hperm.pairwise_iff fun hab => hab.symm).1 h.disjoint

/-- Markable ranges have only one order, so sorting forgets where they came from. -/
theorem Markable.sortRanges_eq (h : Markable length ranges) (hperm : ranges.Perm others) :
    sortRanges ranges = sortRanges others := by
  have hsorted : (sortRanges ranges).Perm (sortRanges others) :=
    (sortRanges_perm ranges).trans (hperm.trans (sortRanges_perm others).symm)
  refine hsorted.eq_of_pairwise ?_ h.sorted (h.of_perm hperm).sorted
  intro a b ha hb hab hba
  have := h.bounds a ((sortRanges_perm ranges).subset ha)
  have := h.bounds b (hperm.symm.subset ((sortRanges_perm others).subset hb))
  omega

end Sorted

section Runs

variable {code : String} {reader : SourceReader} {source : Declaration}
  {ranges : List DecoratorRange}

theorem markCode_of_collected (hread : (reader code placeholderFileName).outcome = .ok source)
    (hcollect : source.decoratorRanges = .ok ranges) :
    (markCode reader code).outcome = markRanges code (some (sortRanges ranges)) :=
  markCode_of_locate (locate_of_ok hread hcollect)

theorem exists_markRanges_of_markable (h : Markable code.length ranges) :
    ∃ marked, markRanges code (some (sortRanges ranges)) = .ok marked := by
  have hne : ∀ range ∈ ranges, range.start ≠ range.stop :=
    fun range hrange => Int.ne_of_lt (h.bounds range hrange).2.1
  rw [← String.length_toList] at h
  rw [markRanges, mark_of_ascending ((ascending_sortRanges_iff hne).2 h)]
  exact ⟨_, rfl⟩

theorem markRanges_of_not_markable (hne : ∀ range ∈ ranges, range.start ≠ range.stop)
    (h : ¬ Markable code.length ranges) :
    ∃ message, markRanges code (some (sortRanges ranges)) = .error (.tool (.range message)) := by
  rw [← String.length_toList] at h
  obtain ⟨_, _, _, _, -, -, -, hmark, -⟩ :=
    mark_of_not_ascending (mt (ascending_sortRanges_iff hne).1 h)
  rw [markRanges, hmark]
  exact ⟨_, rfl⟩

end Runs

/-- A text whose declarations are of known kinds, without empty decorators, is marked exactly if the
decorators that are collected lie in the text and do not overlap; otherwise marking fails for the
sake of a range.  Trees from which the same ranges are collected, in any order, give the same
text or fail alike. -/
theorem markCode_by_set (code : String) :
    (∀ (reader : SourceReader) (source : Declaration),
      (reader code placeholderFileName).outcome = .ok source → source.Known →
      ∃ ranges, source.decoratorRanges = .ok ranges ∧
        ((∀ range ∈ ranges, range.start ≠ range.stop) →
          ((∃ marked, (markCode reader code).outcome = .ok marked) ↔
            Markable code.length ranges) ∧
          (¬ Markable code.length ranges → ∃ message,
            (markCode reader code).outcome = .error (.tool (.range message))))) ∧
    ∀ (reader reader' : SourceReader) (source source' : Declaration)
      (ranges ranges' : List DecoratorRange),
      (reader code placeholderFileName).outcome = .ok source →
      (reader' code placeholderFileName).outcome = .ok source' →
      source.decoratorRanges = .ok ranges → source'.decoratorRanges = .ok ranges' →
      ranges.Perm ranges' → (∀ range ∈ ranges, range.start ≠ range.stop) →
      (∃ marked, (markCode reader code).outcome = .ok marked ∧
        (markCode reader' code).outcome = .ok marked) ∨
      ∃ message message', (markCode reader code).outcome = .error (.tool (.range message)) ∧
        (markCode reader' code).outcome = .error (.tool (.range message')) := by
  constructor
  · intro reader source hread hknown
    obtain ⟨ranges, hcollect⟩ := Declaration.exists_decoratorRanges hknown
    refine ⟨ranges, hcollect, fun hne => ?_⟩
    rw [markCode_of_collected hread hcollect]
    refine ⟨⟨?_, exists_markRanges_of_markable⟩, markRanges_of_not_markable hne⟩
    rintro ⟨marked, hmarked⟩
    by_contra hnot
    obtain ⟨message, hmessage⟩ := markRanges_of_not_markable hne hnot
    rw [hmarked] at hmessage
    cases hmessage
  · intro reader reader' source source' ranges ranges' hread hread' hcollect hcollect' hperm hne
    rw [markCode_of_collected hread hcollect, markCode_of_collected hread' hcollect']
    by_cases h : Markable code.length ranges
    · obtain ⟨marked, hmarked⟩ := exists_markRanges_of_markable h
      exact .inl ⟨marked, hmarked, h.sortRanges_eq hperm ▸ hmarked⟩
    · have hne' : ∀ range ∈ ranges', range.start ≠ range.stop :=
        fun range hrange => hne range (hperm.symm.subset hrange)
      obtain ⟨message, hmessage⟩ := markRanges_of_not_markable hne h
      obtain ⟨message', hmessage'⟩ :=
        markRanges_of_not_markable hne' fun h' => h (h'.of_perm hperm.symm)
      exact .inr ⟨message, message', hmessage, hmessage'⟩

def flatTree : Declaration :=
  .container .source none
    [.decorated .enumType none [⟨3, 5⟩], .decorated .enumType none [⟨0, 2⟩]]

/-- The same decorators at one method of a class, in the order of the text. -/
def nestedTree : Declaration :=
  .container .source none
    [.container .classType none [.decorated .method none [⟨0, 2⟩, ⟨3, 5⟩]]]

theorem known_flatTree : flatTree.Known := by
  unfold Declaration.Known
  decide

/-- Both trees give one marked text. -/
theorem markCode_by_set_flat_and_nested :
    Markable 7 [⟨3, 5⟩, ⟨0, 2⟩] ∧ ∃ marked,
      (markCode (.constant flatTree) "@a @b f").outcome = .ok marked ∧
      (markCode (.constant nestedTree) "@a @b f").outcome = .ok marked := by
  obtain ⟨hone, htwo⟩ := markCode_by_set "@a @b f"
  have hne : ∀ range ∈ ([⟨3, 5⟩, ⟨0, 2⟩] : List DecoratorRange), range.start ≠ range.stop := by
    decide
  have hmarkable : Markable 7 [⟨3, 5⟩, ⟨0, 2⟩] := by
    refine ⟨by decide, ?_⟩
    simp [Set.Ico_disjoint_Ico]
  obtain ⟨ranges, hranges, hmarks⟩ := hone (.constant flatTree) flatTree rfl known_flatTree
  cases hranges
  obtain ⟨marked, hmarked⟩ := (hmarks hne).1.2 hmarkable
  refine ⟨hmarkable, ?_⟩
  rcases htwo (.constant flatTree) (.constant nestedTree) flatTree nestedTree [⟨3, 5⟩, ⟨0, 2⟩]
    [⟨0, 2⟩, ⟨3, 5⟩] rfl rfl rfl rfl (.swap _ _ _) hne with hsame | ⟨_, _, herror, -⟩
  · exact hsame
  · rw [hmarked] at herror
    cases herror

end DecoratorVeil
