import DecoratorVeil.Proofs.Locate
import DecoratorVeil.Proofs.Sentinel.Unique

/-!
# How often the sentinels occur

Every range brings one sentinel of each kind into a marked text.  Further ones come about only where
the text of a range meets the magic word: its end may turn the closing sentinel into an opening one
as well, and its start the opening sentinel into a closing one.
-/

namespace DecoratorVeil

namespace Text

section Occurrences

variable {α : Type} [DecidableEq α] {part : List α}

/-- The number of places where a part starts in a text; the places may overlap. -/
def occurrences (part text : List α) : Nat :=
  text.tails.countP fun rest => part <+: rest

/-- The number of occurrences that are met from left to right, each behind the end of the last. -/
def separateOccurrences (part : List α) (hne : part ≠ []) : List α → Nat
  | [] => 0
  | x :: rest =>
    if part <+: x :: rest then separateOccurrences part hne ((x :: rest).drop part.length) + 1
    else separateOccurrences part hne rest
termination_by text => text.length
decreasing_by
  · have : 0 < part.length := List.length_pos_iff.2 hne
    simp only [List.length_drop, List.length_cons]
    omega
  · simp

/-- No proper end of the part is a beginning of it. -/
def Unbordered (part : List α) : Prop :=
  ∀ k < part.length, k ≠ 0 → ¬ part.drop k <+: part

instance (part : List α) : Decidable (Unbordered part) :=
  inferInstanceAs (Decidable (∀ k < part.length, k ≠ 0 → ¬ part.drop k <+: part))

theorem occurrences_nil (hne : part ≠ []) : occurrences part [] = 0 := by
  simp [occurrences, hne]

theorem occurrences_cons (part : List α) (x : α) (text : List α) :
    occurrences part (x :: text) =
      (if part <+: x :: text then 1 else 0) + occurrences part text := by
  simp only [occurrences, List.tails_cons, List.countP_cons, decide_eq_true_eq]
  omega

/-- A front in which the part does not start adds nothing. -/
theorem occurrences_append_of_free {front text : List α}
    (h : ∀ k < front.length, ¬ part <+: front.drop k ++ text) :
    occurrences part (front ++ text) = occurrences part text := by
  induction front with
  | nil => rfl
  | cons x front ih =>
    have hfirst : ¬ part <+: x :: (front ++ text) := h 0 (by simp)
    have hlater : ∀ k < front.length, ¬ part <+: front.drop k ++ text := by
      intro k hk
      exact h (k + 1) (by simpa using hk)
    rw [List.cons_append, occurrences_cons, if_neg hfirst, ih hlater, Nat.zero_add]

/-- The next occurrence of a part without borders lies behind the end of the last. -/
theorem occurrences_self_append (h : Unbordered part) (hne : part ≠ []) (text : List α) :
    occurrences part (part ++ text) = occurrences part text + 1 := by
  cases part with
  | nil => exact absurd rfl hne
  | cons x rest =>
    have hfree : ∀ k < rest.length, ¬ x :: rest <+: rest.drop k ++ text := by
      intro k hk hp
      apply h (k + 1) (by simpa using hk) (Nat.succ_ne_zero k)
      rw [List.drop_succ_cons]
      apply List.prefix_of_prefix_length_le (List.prefix_append _ text) hp
      simp only [List.length_drop, List.length_cons]
      omega
    have hfirst : x :: rest <+: x :: (rest ++ text) := List.prefix_append (x :: rest) text
    rw [List.cons_append, occurrences_cons, if_pos hfirst, occurrences_append_of_free hfree,
      Nat.add_comm]

theorem separateOccurrences_eq (h : Unbordered part) (hne : part ≠ []) (text : List α) :
    separateOccurrences part hne text = occurrences part text := by
  fun_induction separateOccurrences part hne text with
  | case1 => exact (occurrences_nil hne).symm
  | case2 x rest hp ih =>
    obtain ⟨after, hafter⟩ := hp
    rw [← hafter, List.drop_left] at ih
    rw [← hafter, List.drop_left, occurrences_self_append h hne, ih]
  | case3 x rest hp ih => rw [occurrences_cons, if_neg hp, ih, Nat.zero_add]

end Occurrences

end Text

namespace Sentinel
open Text

/-! ## Letters -/

/-- A spelt pattern occurs in a spelt text as often as its letters do. -/
theorem occurrences_spell {p : List Letter} (hp : Pattern p) (hne : p ≠ []) {text : List Letter}
    (ht : Readable text) : occurrences (spell p) (spell text) = occurrences p text := by
  induction text with
  | nil => rw [spell, occurrences_nil hne, occurrences_nil (spell_ne_nil hne)]
  | cons x text ih =>
    have hstart := spell_prefix_spell_iff hp ht
    rw [occurrences_cons p, ← ih ht.tail]
    simp only [← hstart]
    cases x with
    | char c => exact occurrences_cons _ _ _
    | word =>
      obtain ⟨c, rest, hword⟩ := List.exists_cons_of_ne_nil magicWord_ne_nil
      have hinside : ∀ k < rest.length, ¬ spell p <+: rest.drop k ++ spell text := by
        intro k hk
        have hsplit : magicWord = (c :: rest.take k) ++ rest.drop k := by
          rw [hword, List.cons_append, List.take_append_drop]
        apply not_spell_prefix_inside hp hne hsplit
        · exact List.cons_ne_nil _ _
        · simpa using hk
      rw [spell, hword, List.cons_append, occurrences_cons, occurrences_append_of_free hinside]

/-- Of the words in a text only those behind the start of a comment open. -/
theorem occurrences_opening_word (text : List Char) (after : List Letter) :
    occurrences openingLetters (letters text ++ .word :: after) =
      (if commentStart <:+ text then 1 else 0) + occurrences openingLetters after := by
  induction text with
  | nil =>
    have hstart : ¬ openingLetters <+: .word :: after := by simp [openingLetters, commentStart]
    rw [letters_nil, List.nil_append, occurrences_cons, if_neg hstart,
      if_neg (by simp [commentStart])]
  | cons c text ih =>
    have hstart : openingLetters <+: .char c :: (letters text ++ .word :: after) ↔
        commentStart = c :: text := by
      constructor
      · rintro ⟨rest, hrest⟩
        rw [openingLetters, List.append_assoc] at hrest
        exact (letters_append_word_inj (b := c :: text) hrest).1
      · intro htext
        rw [openingLetters, htext]
        exact ⟨after, by simp⟩
    rw [letters_cons, List.cons_append, occurrences_cons, ih, ← Nat.add_assoc]
    congr 1
    simp only [hstart, List.suffix_cons_iff]
    by_cases htext : commentStart = c :: text
    · -- The rest of the start of a comment is too short to hold another one.
      have hshort : ¬ commentStart <:+ text := by
        intro hs
        have hlength := hs.length_le
        rw [htext, List.length_cons] at hlength
        omega
      rw [if_pos htext, if_neg hshort, if_pos (.inl htext)]
    · simp only [htext, if_false, false_or, Nat.zero_add]

theorem occurrences_opening_letters (text : List Char) :
    occurrences openingLetters (letters text) = 0 := by
  induction text with
  | nil => exact occurrences_nil openingLetters_ne_nil
  | cons c text ih =>
    have hstart : ¬ openingLetters <+: letters (c :: text) := by
      rintro ⟨rest, hrest⟩
      apply letters_append_word_ne commentStart (c :: text) rest
      rw [← hrest, openingLetters, List.append_assoc]
      rfl
    rw [letters_cons] at hstart ⊢
    rw [occurrences_cons, if_neg hstart, ih]

/-- A closing sentinel starts with a word. -/
theorem occurrences_closing_letters (text : List Char) (after : List Letter) :
    occurrences closingLetters (letters text ++ after) = occurrences closingLetters after := by
  induction text with
  | nil => rfl
  | cons c text ih =>
    have hstart : ¬ closingLetters <+: .char c :: (letters text ++ after) := by
      simp [closingLetters]
    rw [letters_cons, List.cons_append, occurrences_cons, if_neg hstart, ih, Nat.zero_add]

theorem letters_prefix_word_iff (part text : List Char) (after : List Letter) :
    letters part <+: letters text ++ .word :: after ↔ part <+: text := by
  induction part generalizing text with
  | nil => simp
  | cons c part ih =>
    cases text with
    | nil => simp
    | cons d text => simp [List.cons_prefix_cons, ih]

/-- A word closes if the text up to the next word starts with the end of a comment. -/
theorem occurrences_closing_word (text : List Char) (after : List Letter) :
    occurrences closingLetters (.word :: (letters text ++ .word :: after)) =
      (if commentEnd <+: text then 1 else 0) + occurrences closingLetters (.word :: after) := by
  have hstart : closingLetters <+: .word :: (letters text ++ .word :: after) ↔
      commentEnd <+: text := by
    rw [closingLetters, List.cons_prefix_cons, letters_prefix_word_iff]
    simp
  rw [occurrences_cons, occurrences_closing_letters]
  simp only [hstart]

/-! ## Segments -/

/-- Each segment opens once, and once more if its range ends in the start of a comment.  The
characters that the last closing sentinel leaves in front belong to the induction. -/
theorem occurrences_opening_marked (front : List Char) (segments : List Segment)
    (tail : List Char) :
    occurrences openingLetters (letters front ++ (segments.flatMap Segment.toLetters ++
      letters tail)) =
      segments.length + segments.countP fun segment => commentStart <:+ segment.inside := by
  induction segments generalizing front with
  | nil =>
    rw [List.flatMap_nil, List.nil_append, ← letters_append, occurrences_opening_letters]
    rfl
  | cons segment segments ih =>
    have hopens : commentStart <:+ front ++ (segment.before ++ commentStart) :=
      (List.suffix_append _ _).trans (List.suffix_append _ _)
    rw [List.flatMap_cons, List.append_assoc, Segment.toLetters_append, ← List.append_assoc,
      ← letters_append, occurrences_opening_word, if_pos hopens, occurrences_opening_word, ih,
      List.countP_cons, List.length_cons]
    simp only [decide_eq_true_eq]
    omega

/-- Each segment closes once, and once more if its range begins with the end of a comment. -/
theorem occurrences_closing_marked (segments : List Segment) (tail : List Char) :
    occurrences closingLetters (segments.flatMap Segment.toLetters ++ letters tail) =
      segments.length + segments.countP fun segment => commentEnd <+: segment.inside := by
  induction segments with
  | nil =>
    have hnone := occurrences_closing_letters tail []
    rw [List.append_nil, occurrences_nil closingLetters_ne_nil] at hnone
    simpa using hnone
  | cons segment segments ih =>
    have hcloses (after : List Letter) :
        closingLetters <+: .word :: (letters commentEnd ++ after) :=
      List.prefix_append closingLetters after
    rw [List.flatMap_cons, List.append_assoc, Segment.toLetters_append,
      occurrences_closing_letters, occurrences_closing_word, occurrences_cons, if_pos (hcloses _),
      occurrences_closing_letters, ih, List.countP_cons, List.length_cons]
    simp only [decide_eq_true_eq]
    omega

section Marked

variable {segments : List Segment} {tail : List Char}

theorem occurrences_opening_markedText (h : ¬ magicWord <:+: plainText segments tail) :
    occurrences opening (markedText segments tail) =
      segments.length + segments.countP fun segment => commentStart <:+ segment.inside := by
  have hcount := occurrences_opening_marked [] segments tail
  rw [letters_nil, List.nil_append] at hcount
  rw [← spell_marked, ← spell_openingLetters,
    occurrences_spell pattern_openingLetters openingLetters_ne_nil (readable_marked h), hcount]

theorem occurrences_closing_markedText (h : ¬ magicWord <:+: plainText segments tail) :
    occurrences closing (markedText segments tail) =
      segments.length + segments.countP fun segment => commentEnd <+: segment.inside := by
  rw [← spell_marked, ← spell_closingLetters,
    occurrences_spell pattern_closingLetters closingLetters_ne_nil (readable_marked h),
    occurrences_closing_marked]

end Marked

/-! ## Ranges -/

theorem countP_inside {code : List Char} {segments : List Segment} {ranges : List DecoratorRange}
    (h : segments.map Segment.inside = ranges.map (·.slice code)) (test : List Char → Bool) :
    segments.countP (fun segment => test segment.inside) =
      ranges.countP fun range => test (range.slice code) := by
  have hcount := congrArg (List.countP test) h
  rwa [List.countP_map, List.countP_map] at hcount

theorem opening_ne_nil : opening ≠ [] := by decide

theorem closing_ne_nil : closing ≠ [] := by decide

/-- In a text without the magic word, each marked range brings one sentinel of each kind, one more
opening one if it ends in the start of a comment, and one more closing one if it begins with the
end of a comment.  Occurrences of a sentinel never overlap.  So without such ranges there are as
many sentinels of each kind as located decorators. -/
theorem sentinels_counted {code : String} {ranges : List DecoratorRange} {marked : List Char}
    (hword : ¬ magicWord <:+: code.toList) (hmark : mark code.toList ranges = .ok marked) :
    (occurrences opening marked = ranges.length +
        ranges.countP (fun range => "/*".toList <:+ range.slice code.toList) ∧
      occurrences closing marked = ranges.length +
        ranges.countP (fun range => "*/".toList <+: range.slice code.toList)) ∧
    (separateOccurrences opening opening_ne_nil marked = occurrences opening marked ∧
      separateOccurrences closing closing_ne_nil marked = occurrences closing marked) ∧
    ∀ reader : SourceReader, (locate reader code).outcome = .ok (some ranges) →
      (∀ range ∈ ranges, ¬ "/*".toList <:+ range.slice code.toList ∧
        ¬ "*/".toList <+: range.slice code.toList) →
      (markCode reader code).outcome = .ok (String.ofList marked) ∧
        occurrences opening marked = ranges.length ∧
        occurrences closing marked = ranges.length := by
  have hcounts : occurrences opening marked = ranges.length +
        ranges.countP (fun range => "/*".toList <:+ range.slice code.toList) ∧
      occurrences closing marked = ranges.length +
        ranges.countP (fun range => "*/".toList <+: range.slice code.toList) := by
    obtain ⟨segments, tail, hcode, rfl, hinside⟩ := mark_layout hmark
    have hlength : segments.length = ranges.length := by
      simpa using congrArg List.length hinside
    rw [hcode] at hword
    rw [occurrences_opening_markedText hword, occurrences_closing_markedText hword, hlength,
      countP_inside hinside (fun inside => commentStart <:+ inside),
      countP_inside hinside (fun inside => commentEnd <+: inside)]
    exact ⟨rfl, rfl⟩
  refine ⟨hcounts, ⟨separateOccurrences_eq (by decide) _ _,
    separateOccurrences_eq (by decide) _ _⟩, ?_⟩
  intro reader hlocate hplain
  have hmarked : markRanges code (some ranges) = .ok (String.ofList marked) := by
    rw [markRanges, hmark]
  have hopen : ranges.countP (fun range => "/*".toList <:+ range.slice code.toList) = 0 := by
    simpa using fun range hrange => (hplain range hrange).1
  have hclose : ranges.countP (fun range => "*/".toList <+: range.slice code.toList) = 0 := by
    simpa using fun range hrange => (hplain range hrange).2
  rw [hcounts.1, hcounts.2, hopen, hclose]
  exact ⟨(markCode_of_locate hlocate).trans hmarked, rfl, rfl⟩

/-- A range between the delimiters of a comment, turned round, counts twice on both sides; an empty
one and a plain one count once. -/
theorem sentinels_counted_delimiters :
    (∃ marked, mark "*/@a/*".toList [⟨0, 6⟩, ⟨6, 6⟩] = .ok marked ∧
      occurrences opening marked = 3 ∧ occurrences closing marked = 3) ∧
    ∃ marked, (markCode (.constant (.decorated .function none [⟨0, 2⟩])) "@a f").outcome =
        .ok (String.ofList marked) ∧
      occurrences opening marked = 1 ∧ occurrences closing marked = 1 := by
  constructor
  · have hmark : mark "*/@a/*".toList [⟨0, 6⟩, ⟨6, 6⟩] = .ok _ := rfl
    obtain ⟨⟨hopening, hclosing⟩, -, -⟩ := sentinels_counted (by decide) hmark
    exact ⟨_, hmark, hopening.trans (by decide), hclosing.trans (by decide)⟩
  · have hmark : mark "@a f".toList [⟨0, 2⟩] = .ok _ := rfl
    have hcollect : (Declaration.decorated .function none [⟨0, 2⟩]).decoratorRanges =
        .ok [⟨0, 2⟩] := rfl
    have hlocate : (locate (.constant (.decorated .function none [⟨0, 2⟩])) "@a f").outcome =
        .ok (some [⟨0, 2⟩]) := by
      rw [locate_of_ok rfl hcollect, sortRanges, List.mergeSort_singleton]
    exact ⟨_, (sentinels_counted (by decide) hmark).2.2 _ hlocate (by decide)⟩

end Sentinel

end DecoratorVeil
