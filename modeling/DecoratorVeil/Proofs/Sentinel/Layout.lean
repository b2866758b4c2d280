import DecoratorVeil.Sentinel
import Mathlib.Tactic.Common

/-!
# The layout of a marked text

A list of ranges that can be marked cuts a text into segments, each a stretch without decorators
and the text of one range.  The plain and the marked text differ in nothing but the sentinels around
the texts of the ranges.
-/

namespace DecoratorVeil

def DecoratorRange.slice (range : DecoratorRange) (code : List Char) : List Char :=
  (code.drop range.start.toNat).take (range.stop.toNat - range.start.toNat)

namespace Sentinel

structure Segment where
  before : List Char
  inside : List Char

def Segment.plain (segment : Segment) : List Char := segment.before ++ segment.inside

def Segment.marked (segment : Segment) : List Char :=
  segment.before ++ opening ++ segment.inside ++ closing

def plainText (segments : List Segment) (tail : List Char) : List Char :=
  segments.flatMap Segment.plain ++ tail

def markedText (segments : List Segment) (tail : List Char) : List Char :=
  segments.flatMap Segment.marked ++ tail

theorem fits_iff {length cursor : Nat} {range : DecoratorRange} :
    fits length cursor range = true ↔
      cursor ≤ range.start ∧ range.start ≤ range.stop ∧ range.stop ≤ length := by
  simp [fits, and_assoc]

theorem markFrom_cons_of_fits {length cursor : Nat} {range : DecoratorRange} (rest : List Char)
    (ranges : List DecoratorRange) (h : fits length cursor range = true) :
    markFrom length cursor rest (range :: ranges) =
      (markFrom length range.stop.toNat (rest.drop (range.stop.toNat - cursor)) ranges).map
        (rest.take (range.start.toNat - cursor) ++ opening ++
          (rest.drop (range.start.toNat - cursor)).take (range.stop.toNat - range.start.toNat) ++
          closing ++ ·) := by
  rw [markFrom, if_pos h]

theorem markFrom_cons_eq_ok {length cursor : Nat} {rest marked : List Char}
    {range : DecoratorRange} {ranges : List DecoratorRange}
    (h : markFrom length cursor rest (range :: ranges) = .ok marked) :
    fits length cursor range = true ∧ ∃ later,
      markFrom length range.stop.toNat (rest.drop (range.stop.toNat - cursor)) ranges = .ok later ∧
      marked = rest.take (range.start.toNat - cursor) ++ opening ++
        (rest.drop (range.start.toNat - cursor)).take (range.stop.toNat - range.start.toNat) ++
        closing ++ later := by
  cases hfits : fits length cursor range with
  | false =>
    rw [markFrom, if_neg (by simp [hfits])] at h
    cases h
  | true =>
    rw [markFrom_cons_of_fits rest ranges hfits] at h
    refine ⟨rfl, ?_⟩
    cases hlater : markFrom length range.stop.toNat
        (rest.drop (range.stop.toNat - cursor)) ranges with
    | error error =>
      rw [hlater] at h
      cases h
    | ok later =>
      rw [hlater] at h
      exact ⟨later, rfl, (Except.ok.inj h).symm⟩

theorem drop_split (code : List Char) {i j : Nat} (h : i ≤ j) :
    code.drop i = (code.drop i).take (j - i) ++ code.drop j := by
  conv_lhs => rw [← List.take_append_drop (j - i) (code.drop i)]
  rw [List.drop_drop, Nat.add_sub_cancel' h]

/-- What is left of a text after the cursor is laid out in the segments of the ranges that are
left. -/
theorem markFrom_layout {code marked : List Char} {cursor : Nat} {ranges : List DecoratorRange}
    (h : markFrom code.length cursor (code.drop cursor) ranges = .ok marked) :
    ∃ segments tail, code.drop cursor = plainText segments tail ∧
      marked = markedText segments tail ∧
      segments.map Segment.inside = ranges.map (·.slice code) := by
  induction ranges generalizing cursor marked with
  | nil =>
    refine ⟨[], marked, ?_, rfl, rfl⟩
    simpa [markFrom, plainText] using h
  | cons range ranges ih =>
    obtain ⟨hfits, later, hlater, rfl⟩ := markFrom_cons_eq_ok h
    obtain ⟨hcursor, horder, -⟩ := fits_iff.1 hfits
    have hstart : cursor + (range.start.toNat - cursor) = range.start.toNat := by omega
    have hstop : cursor + (range.stop.toNat - cursor) = range.stop.toNat := by omega
    rw [List.drop_drop, hstop] at hlater
    obtain ⟨segments, tail, hplain, rfl, hinside⟩ := ih hlater
    refine ⟨⟨(code.drop cursor).take (range.start.toNat - cursor), range.slice code⟩ :: segments,
      tail, ?_, ?_, by simp [hinside]⟩
    · have hslice : range.slice code ++ code.drop range.stop.toNat = code.drop range.start.toNat :=
        (drop_split code (by omega)).symm
      calc code.drop cursor
          = (code.drop cursor).take (range.start.toNat - cursor) ++ code.drop range.start.toNat :=
            drop_split code (by omega)
        _ = _ := by rw [← hslice, hplain]; simp [plainText, Segment.plain]
    · simp [markedText, Segment.marked, DecoratorRange.slice, List.drop_drop, hstart]

/-- A text whose ranges can be marked is laid out in one segment for each range. -/
theorem mark_layout {code marked : List Char} {ranges : List DecoratorRange}
    (h : mark code ranges = .ok marked) :
    ∃ segments tail, code = plainText segments tail ∧ marked = markedText segments tail ∧
      segments.map Segment.inside = ranges.map (·.slice code) := by
  have hfrom : markFrom code.length 0 (code.drop 0) ranges = .ok marked := h
  exact markFrom_layout hfrom

/-- Ranges that are ordered from the cursor on and lie in the text can be marked. -/
theorem exists_markFrom_eq_ok {length cursor : Nat} (rest : List Char)
    {ranges : List DecoratorRange}
    (hinside : ∀ range ∈ ranges, cursor ≤ range.start ∧ range.start ≤ range.stop ∧
      range.stop ≤ length)
    (hordered : ranges.Pairwise fun a b => a.stop ≤ b.start) :
    ∃ marked, markFrom length cursor rest ranges = .ok marked := by
  induction ranges generalizing cursor rest with
  | nil => exact ⟨rest, rfl⟩
  | cons range ranges ih =>
    obtain ⟨hlater, hordered⟩ := List.pairwise_cons.1 hordered
    have hrange := hinside range List.mem_cons_self
    have hnext : ∀ later ∈ ranges, (range.stop.toNat : Int) ≤ later.start ∧
        later.start ≤ later.stop ∧ later.stop ≤ length := by
      intro later hmem
      have hstart := hlater later hmem
      have hown := hinside later (List.mem_cons_of_mem _ hmem)
      omega
    obtain ⟨marked, hmarked⟩ := ih (rest.drop (range.stop.toNat - cursor)) hnext hordered
    rw [markFrom_cons_of_fits rest ranges (fits_iff.2 hrange), hmarked]
    exact ⟨_, rfl⟩

end Sentinel

end DecoratorVeil
