import DecoratorVeil.Locate
import DecoratorVeil.Proofs.Sentinel.Layout

/-!
# Which ranges can be marked

Marking looks at each range only against the end of the range before.  All ranges pass exactly when
their offsets, one after the other, go up from the start of the text to its end.  The marked text is
then laid out in the stretches between neighbouring offsets; otherwise the first range that breaks
the order is named, with the offset reached before it.
-/

namespace DecoratorVeil

namespace Sentinel

def offsets (ranges : List DecoratorRange) : List Int :=
  ranges.flatMap fun range => [range.start, range.stop]

/-- The offsets of the ranges go up from the cursor to the end of a text of the given length. -/
def Ascending (cursor : Int) (length : Nat) (ranges : List DecoratorRange) : Prop :=
  (cursor :: (offsets ranges ++ [(length : Int)])).IsChain (· ≤ ·)

instance (cursor : Int) (length : Nat) (ranges : List DecoratorRange) :
    Decidable (Ascending cursor length ranges) :=
  inferInstanceAs (Decidable (List.IsChain _ _))

/-- The offset reached behind the ranges. -/
def reached (cursor : Int) (ranges : List DecoratorRange) : Int :=
  (ranges.map (·.stop)).getLastD cursor

/-- The segment of each range: the stretch from the end of the range before, and its own text. -/
def segmentsOf (code : List Char) (cursor : Int) (ranges : List DecoratorRange) : List Segment :=
  List.zipWith (fun stop range => ⟨DecoratorRange.slice ⟨stop, range.start⟩ code, range.slice code⟩)
    (cursor :: ranges.map (·.stop)) ranges

/-- The text behind the last range. -/
def tailOf (code : List Char) (cursor : Int) (ranges : List DecoratorRange) : List Char :=
  code.drop (reached cursor ranges).toNat

section Ascending

variable {cursor : Int} {length : Nat} {range : DecoratorRange} {ranges : List DecoratorRange}

theorem ascending_nil_iff : Ascending cursor length [] ↔ cursor ≤ length := by
  simp [Ascending, offsets]

theorem ascending_cons_iff : Ascending cursor length (range :: ranges) ↔
    cursor ≤ range.start ∧ range.start ≤ range.stop ∧ Ascending range.stop length ranges := by
  simp [Ascending, offsets]

theorem Ascending.le_length (h : Ascending cursor length ranges) : cursor ≤ length := by
  induction ranges generalizing cursor with
  | nil => exact ascending_nil_iff.1 h
  | cons range ranges ih =>
    obtain ⟨hstart, horder, hlater⟩ := ascending_cons_iff.1 h
    exact Int.le_trans hstart (Int.le_trans horder (ih hlater))

theorem fits_iff_ascending {cursor : Nat} :
    fits length cursor range = true ↔ Ascending cursor length [range] := by
  rw [fits_iff, ascending_cons_iff, ascending_nil_iff]

theorem Ascending.fits_head {cursor : Nat} (h : Ascending cursor length (range :: ranges)) :
    fits length cursor range = true := by
  obtain ⟨hstart, horder, hlater⟩ := ascending_cons_iff.1 h
  exact fits_iff.2 ⟨hstart, horder, hlater.le_length⟩

theorem reached_cons (cursor : Int) (range : DecoratorRange) (ranges : List DecoratorRange) :
    reached cursor (range :: ranges) = reached range.stop ranges := by
  rw [reached, List.map_cons, List.getLastD_cons, reached]

theorem segmentsOf_cons (code : List Char) (cursor : Int) (range : DecoratorRange)
    (ranges : List DecoratorRange) : segmentsOf code cursor (range :: ranges) =
      ⟨DecoratorRange.slice ⟨cursor, range.start⟩ code, range.slice code⟩ ::
        segmentsOf code range.stop ranges := rfl

theorem tailOf_cons (code : List Char) (cursor : Int) (range : DecoratorRange)
    (ranges : List DecoratorRange) :
    tailOf code cursor (range :: ranges) = tailOf code range.stop ranges := by
  rw [tailOf, tailOf, reached_cons]

end Ascending

section Layout

variable {code : List Char} {ranges : List DecoratorRange}

/-- The segments and the tail are all of the text behind the cursor. -/
theorem plainText_segmentsOf {cursor : Int} (hcursor : 0 ≤ cursor)
    (h : Ascending cursor code.length ranges) :
    plainText (segmentsOf code cursor ranges) (tailOf code cursor ranges) =
      code.drop cursor.toNat := by
  induction ranges generalizing cursor with
  | nil => simp [plainText, segmentsOf, tailOf, reached]
  | cons range ranges ih =>
    obtain ⟨hstart, horder, hlater⟩ := ascending_cons_iff.1 h
    have hbefore : DecoratorRange.slice ⟨cursor, range.start⟩ code ++
        code.drop range.start.toNat = code.drop cursor.toNat :=
      (drop_split code (Int.toNat_le_toNat hstart)).symm
    have hinside : range.slice code ++ code.drop range.stop.toNat = code.drop range.start.toNat :=
      (drop_split code (Int.toNat_le_toNat horder)).symm
    rw [← hbefore, ← hinside, ← ih (by omega) hlater, segmentsOf_cons, tailOf_cons]
    simp [plainText, Segment.plain]

/-- Marking what is left of a text whose ranges go up from the cursor on. -/
theorem markFrom_of_ascending {cursor : Nat} (h : Ascending cursor code.length ranges) :
    markFrom code.length cursor (code.drop cursor) ranges =
      .ok (markedText (segmentsOf code cursor ranges) (tailOf code cursor ranges)) := by
  induction ranges generalizing cursor with
  | nil => simp [markFrom, markedText, segmentsOf, tailOf, reached]
  | cons range ranges ih =>
    obtain ⟨hstart, horder, hlater⟩ := ascending_cons_iff.1 h
    have hstop : (range.stop.toNat : Int) = range.stop := Int.toNat_of_nonneg (by omega)
    have hfront : cursor + (range.start.toNat - cursor) = range.start.toNat := by omega
    have hback : (code.drop cursor).drop (range.stop.toNat - cursor) =
        code.drop range.stop.toNat := by
      rw [List.drop_drop, show cursor + (range.stop.toNat - cursor) = range.stop.toNat by omega]
    have hrest := ih (hstop.symm ▸ hlater)
    rw [hstop] at hrest
    rw [markFrom_cons_of_fits _ _ h.fits_head, hback, hrest, segmentsOf_cons, tailOf_cons]
    simp [Except.map, markedText, Segment.marked, DecoratorRange.slice, List.drop_drop, hfront]

/-- Marking stops at the first range that breaks the order. -/
theorem markFrom_of_not_ascending {length cursor : Nat} (rest : List Char)
    (hcursor : cursor ≤ length) (h : ¬ Ascending cursor length ranges) :
    ∃ before range after position, ranges = before ++ range :: after ∧
      Ascending cursor length before ∧ ¬ Ascending cursor length (before ++ [range]) ∧
      markFrom length cursor rest ranges = .error ⟨range, length, position⟩ ∧
      (position : Int) = reached cursor before := by
  induction ranges generalizing cursor rest with
  | nil => exact absurd (ascending_nil_iff.2 (by omega)) h
  | cons range ranges ih =>
    cases hfits : fits length cursor range with
    | false =>
      refine ⟨[], range, ranges, cursor, rfl, ascending_nil_iff.2 (by omega), ?_, ?_, rfl⟩
      · rw [List.nil_append, ← fits_iff_ascending, hfits]
        exact Bool.false_ne_true
      · rw [markFrom, if_neg (by simp [hfits])]
    | true =>
      obtain ⟨hstart, horder, hlength⟩ := fits_iff.1 hfits
      have hstop : (range.stop.toNat : Int) = range.stop := Int.toNat_of_nonneg (by omega)
      -- Behind a range that fits, the order is broken exactly where it is from its end on.
      have hcons {list : List DecoratorRange} : Ascending cursor length (range :: list) ↔
          Ascending range.stop.toNat length list := by
        rw [ascending_cons_iff, hstop]
        exact ⟨fun hall => hall.2.2, fun hlater => ⟨hstart, horder, hlater⟩⟩
      obtain ⟨before, broken, after, position, rfl, hbefore, hbroken, hmark, hposition⟩ :=
        ih (rest.drop (range.stop.toNat - cursor)) (by omega) (fun hlater => h (hcons.2 hlater))
      refine ⟨range :: before, broken, after, position, rfl, hcons.2 hbefore,
        fun hall => hbroken (hcons.1 hall), ?_, ?_⟩
      · rw [markFrom_cons_of_fits _ _ hfits, hmark]
        rfl
      · rw [hposition, hstop, reached_cons]

theorem mark_of_ascending (h : Ascending 0 code.length ranges) :
    mark code ranges = .ok (markedText (segmentsOf code 0 ranges) (tailOf code 0 ranges)) :=
  @markFrom_of_ascending code ranges 0 h

theorem mark_of_not_ascending (h : ¬ Ascending 0 code.length ranges) :
    ∃ before range after position, ranges = before ++ range :: after ∧
      Ascending 0 code.length before ∧ ¬ Ascending 0 code.length (before ++ [range]) ∧
      mark code ranges = .error ⟨range, code.length, position⟩ ∧
      (position : Int) = reached 0 before :=
  markFrom_of_not_ascending code (Nat.zero_le code.length) h

theorem ascending_of_mark {marked : List Char} (h : mark code ranges = .ok marked) :
    Ascending 0 code.length ranges := by
  by_contra hnot
  obtain ⟨_, _, _, _, -, -, -, hmark, -⟩ := mark_of_not_ascending hnot
  cases h.symm.trans hmark

end Layout

end Sentinel

open Sentinel

/-- Ranges can be marked exactly when their offsets go up from the start of the text to its end.
Then the marked text is the text itself, with sentinels around the text of each range and nowhere
else.  If they do not, the first range that breaks the order is named, and the offset reached. -/
theorem markRanges_exact (code : String) (ranges : List DecoratorRange) :
    ((∃ marked, markRanges code (some ranges) = .ok marked) ↔ Ascending 0 code.length ranges) ∧
    (Ascending 0 code.length ranges →
      markRanges code (some ranges) = .ok (String.ofList
        (markedText (segmentsOf code.toList 0 ranges) (tailOf code.toList 0 ranges))) ∧
      plainText (segmentsOf code.toList 0 ranges) (tailOf code.toList 0 ranges) = code.toList) ∧
    (¬ Ascending 0 code.length ranges → ∃ before range after,
      ranges = before ++ range :: after ∧ Ascending 0 code.length before ∧
      ¬ Ascending 0 code.length (before ++ [range]) ∧
      markRanges code (some ranges) = .error (.tool (.range
        ("Decorator range [" ++ toString range.start ++ ", " ++ toString range.stop ++
          ") overlaps, is unordered or exceeds source length " ++ toString code.length ++
          " (cursor at " ++ toString (reached 0 before) ++ ")")))) := by
  rw [← String.length_toList]
  have hok (h : Ascending 0 code.toList.length ranges) :
      markRanges code (some ranges) = .ok (String.ofList
        (markedText (segmentsOf code.toList 0 ranges) (tailOf code.toList 0 ranges))) := by
    rw [markRanges, mark_of_ascending h]
  refine ⟨⟨?_, fun h => ⟨_, hok h⟩⟩, fun h => ⟨hok h, plainText_segmentsOf (Int.le_refl 0) h⟩, ?_⟩
  · rintro ⟨marked, hmarked⟩
    cases hmark : mark code.toList ranges with
    | ok text => exact ascending_of_mark hmark
    | error error =>
      rw [markRanges, hmark] at hmarked
      cases hmarked
  · intro h
    obtain ⟨before, range, after, position, hranges, hbefore, hbroken, hmark, hposition⟩ :=
      mark_of_not_ascending h
    refine ⟨before, range, after, hranges, hbefore, hbroken, ?_⟩
    rw [markRanges, hmark, ← hposition]
    rfl

/-- Ranges that touch or are empty are marked; one that starts before the end of the last is
named. -/
theorem markRanges_exact_touching_and_overlapping :
    markRanges "@a@b f" (some [⟨0, 2⟩, ⟨2, 4⟩, ⟨6, 6⟩]) = .ok (String.ofList
      (opening ++ "@a".toList ++ closing ++ opening ++ "@b".toList ++ closing ++ " f".toList ++
        opening ++ closing)) ∧
    markRanges "@a@b f" (some [⟨0, 2⟩, ⟨1, 4⟩, ⟨-1, 9⟩]) = .error (.tool (.range
      ("Decorator range [1, 4) overlaps, is unordered or exceeds source length 6 " ++
        "(cursor at 2)"))) := by
  obtain ⟨-, hlayout, -⟩ := markRanges_exact "@a@b f" [⟨0, 2⟩, ⟨2, 4⟩, ⟨6, 6⟩]
  obtain ⟨-, -, hbroken⟩ := markRanges_exact "@a@b f" [⟨0, 2⟩, ⟨1, 4⟩, ⟨-1, 9⟩]
  refine ⟨(hlayout (by decide)).1, ?_⟩
  obtain ⟨before, range, after, hranges, hbefore, hafter, herror⟩ := hbroken (by decide)
  rcases before with _ | ⟨first, _ | ⟨second, later⟩⟩
  · obtain ⟨rfl, rfl⟩ := List.cons.inj hranges
    exact absurd (by decide) hafter
  · cases hranges
    exact herror
  · simp only [List.cons_append, List.cons.injEq] at hranges
    obtain ⟨rfl, rfl, -⟩ := hranges
    have hoverlap := (ascending_cons_iff.1 (ascending_cons_iff.1 hbefore).2.2).1
    exact absurd hoverlap (by decide)

end DecoratorVeil
