import DecoratorVeil.Proofs.Sentinel.Acceptance
import DecoratorVeil.Proofs.Sentinel.RoundTrip

/-!
# A marked text tells what was marked

A marked text is read back in three steps.  Its letters are unique, since the characters alone do
not hold the magic word.  The words among the letters open and close ranges in turn, so the segments
are unique.  And the lengths of the segments are the offsets of the ranges.
-/

namespace DecoratorVeil.Sentinel

/-! ## Letters -/

theorem spell_inj {a b : List Letter} (ha : Readable a) (hb : Readable b) (h : spell a = spell b) :
    a = b := by
  induction a generalizing b with
  | nil =>
    by_contra hne
    exact spell_ne_nil (Ne.symm hne) h.symm
  | cons x a ih =>
    cases b with
    | nil => exact absurd h (spell_ne_nil (List.cons_ne_nil x a))
    | cons y b =>
      cases x with
      | char c =>
        cases y with
        | char d =>
          obtain ⟨rfl, hrest⟩ := List.cons.inj h
          rw [ih ha.tail hb.tail hrest]
        | word => exact absurd (h ▸ List.prefix_append _ _) (not_magicWord_prefix_spell ha)
      | word =>
        cases y with
        | char d => exact absurd (h ▸ List.prefix_append _ _) (not_magicWord_prefix_spell hb)
        | word => rw [ih ha.tail hb.tail (List.append_cancel_left h)]

theorem letters_inj {a b : List Char} (h : letters a = letters b) : a = b := by
  simpa using congrArg chars h

/-- The first word ends the characters before it. -/
theorem letters_append_word_inj {a b : List Char} {after later : List Letter}
    (h : letters a ++ .word :: after = letters b ++ .word :: later) : a = b ∧ after = later := by
  induction a generalizing b with
  | nil =>
    cases b with
    | nil => exact ⟨rfl, (List.cons.inj h).2⟩
    | cons d b => cases (List.cons.inj h).1
  | cons c a ih =>
    cases b with
    | nil => cases (List.cons.inj h).1
    | cons d b =>
      obtain ⟨hhead, htail⟩ := List.cons.inj h
      obtain ⟨rfl, rfl⟩ := ih htail
      cases hhead
      exact ⟨rfl, rfl⟩

theorem letters_append_word_ne (a b : List Char) (after : List Letter) :
    letters a ++ .word :: after ≠ letters b := by
  intro h
  have hword : Letter.word ∈ letters b := h ▸ by simp
  simp [letters] at hword

/-! ## Segments -/

theorem Segment.toLetters_append (segment : Segment) (after : List Letter) :
    segment.toLetters ++ after = letters (segment.before ++ commentStart) ++
      .word :: (letters segment.inside ++ .word :: (letters commentEnd ++ after)) := by
  simp [toLetters, openingLetters, closingLetters]

/-- The words open and close a segment in turn, and after the last segment there is none. -/
theorem segments_inj {segments others : List Segment} {tail rest : List Char}
    (h : segments.flatMap Segment.toLetters ++ letters tail =
      others.flatMap Segment.toLetters ++ letters rest) : segments = others ∧ tail = rest := by
  induction segments generalizing others with
  | nil =>
    cases others with
    | nil => exact ⟨rfl, letters_inj h⟩
    | cons other others =>
      rw [List.flatMap_cons, List.append_assoc, Segment.toLetters_append] at h
      exact absurd h.symm (letters_append_word_ne _ _ _)
  | cons segment segments ih =>
    rw [List.flatMap_cons, List.append_assoc, Segment.toLetters_append] at h
    cases others with
    | nil => exact absurd h (letters_append_word_ne _ _ _)
    | cons other others =>
      rw [List.flatMap_cons, List.append_assoc, Segment.toLetters_append] at h
      obtain ⟨hbefore, h⟩ := letters_append_word_inj h
      obtain ⟨hinside, h⟩ := letters_append_word_inj h
      obtain ⟨rfl, rfl⟩ := ih (List.append_cancel_left h)
      have hsegment : segment = other := by
        cases segment
        cases other
        exact congrArg₂ Segment.mk (List.append_cancel_right hbefore) hinside
      exact ⟨by rw [hsegment], rfl⟩

theorem markedText_inj {segments others : List Segment} {tail rest : List Char}
    (hclean : ¬ magicWord <:+: plainText segments tail)
    (hother : ¬ magicWord <:+: plainText others rest)
    (h : markedText segments tail = markedText others rest) : segments = others ∧ tail = rest := by
  rw [← spell_marked, ← spell_marked] at h
  exact segments_inj (spell_inj (readable_marked hclean) (readable_marked hother) h)

/-! ## Ranges -/

/-- The ranges of segments that follow each other from the cursor on. -/
def rangesOf (cursor : Int) : List Segment → List DecoratorRange
  | [] => []
  | segment :: segments =>
    let start := cursor + segment.before.length
    let stop := start + segment.inside.length
    ⟨start, stop⟩ :: rangesOf stop segments

theorem add_length_slice {code : List Char} {start stop : Int} (hstart : 0 ≤ start)
    (horder : start ≤ stop) (hstop : stop ≤ code.length) :
    start + (DecoratorRange.slice ⟨start, stop⟩ code).length = stop := by
  simp only [DecoratorRange.slice, List.length_take, List.length_drop]
  omega

/-- The lengths of the segments give the ranges back. -/
theorem rangesOf_segmentsOf {code : List Char} {cursor : Int} {ranges : List DecoratorRange}
    (hcursor : 0 ≤ cursor) (h : Ascending cursor code.length ranges) :
    rangesOf cursor (segmentsOf code cursor ranges) = ranges := by
  induction ranges generalizing cursor with
  | nil => rfl
  | cons range ranges ih =>
    obtain ⟨hstart, horder, hlater⟩ := ascending_cons_iff.1 h
    have hend := hlater.le_length
    have hbefore : cursor + (DecoratorRange.slice ⟨cursor, range.start⟩ code).length =
        range.start := add_length_slice hcursor hstart (by omega)
    have hinside : range.start + (range.slice code).length = range.stop :=
      add_length_slice (by omega) horder hend
    rw [segmentsOf_cons, rangesOf, hbefore, hinside, ih (by omega) hlater]

/-- Texts without the magic word and ranges that can be marked in them are told by the marked
text. -/
theorem mark_inj {code other marked : List Char} {ranges others : List DecoratorRange}
    (hcode : ¬ magicWord <:+: code) (hother : ¬ magicWord <:+: other)
    (hmark : mark code ranges = .ok marked) (hmarked : mark other others = .ok marked) :
    code = other ∧ ranges = others := by
  have hranges := ascending_of_mark hmark
  have hothers := ascending_of_mark hmarked
  have hplain : plainText (segmentsOf code 0 ranges) (tailOf code 0 ranges) = code :=
    plainText_segmentsOf (Int.le_refl 0) hranges
  have hplain' : plainText (segmentsOf other 0 others) (tailOf other 0 others) = other :=
    plainText_segmentsOf (Int.le_refl 0) hothers
  rw [mark_of_ascending hranges] at hmark
  rw [mark_of_ascending hothers] at hmarked
  obtain ⟨hsegments, htail⟩ := markedText_inj (hplain.symm ▸ hcode) (hplain'.symm ▸ hother)
    (Except.ok.inj (hmark.trans hmarked.symm))
  constructor
  · rw [← hplain, ← hplain', hsegments, htail]
  · rw [← rangesOf_segmentsOf (Int.le_refl 0) hranges, hsegments,
      rangesOf_segmentsOf (Int.le_refl 0) hothers]

/-- Empty ranges, ranges that touch, and texts with the delimiters of comments. -/
theorem mark_inj_empty_and_touching :
    "/*@a*/".toList = "/*@a".toList ++ "*/".toList ∧
      ([⟨0, 0⟩, ⟨0, 2⟩, ⟨2, 6⟩, ⟨6, 6⟩] : List DecoratorRange) =
        [⟨0, 0⟩, ⟨0, 2⟩] ++ [⟨2, 6⟩, ⟨6, 6⟩] := by
  have hword : ¬ magicWord <:+: "/*@a*/".toList := by decide
  have hother : ¬ magicWord <:+: "/*@a".toList ++ "*/".toList := by decide
  have hmark : mark "/*@a*/".toList [⟨0, 0⟩, ⟨0, 2⟩, ⟨2, 6⟩, ⟨6, 6⟩] = .ok (opening ++ closing ++
      opening ++ "/*".toList ++ closing ++ opening ++ "@a*/".toList ++ closing ++ opening ++
      closing) := by decide +kernel
  exact mark_inj hword hother hmark (by decide +kernel)

end DecoratorVeil.Sentinel
