import DecoratorVeil.Proofs.Sentinel.Layout
import DecoratorVeil.Proofs.Sentinel.Letters

/-!
# Unmarking a marked text

In a text without the magic word, marking and unmarking gives the text back exactly when no range
ends in the two characters that open a comment.  Such a range makes its closing sentinel read as an
opening one, and unmarking leaves the two characters in the other order.
-/

namespace DecoratorVeil.Sentinel

def commentStart : List Char := "/*".toList

def commentEnd : List Char := "*/".toList

def openingLetters : List Letter := letters commentStart ++ [.word]

def closingLetters : List Letter := .word :: letters commentEnd

theorem spell_openingLetters : spell openingLetters = opening := by decide

theorem spell_closingLetters : spell closingLetters = closing := by decide

theorem openingLetters_ne_nil : openingLetters ≠ [] := by decide

theorem closingLetters_ne_nil : closingLetters ≠ [] := by decide

theorem pattern_openingLetters : Pattern openingLetters := by
  intro c hc
  have hcases : c = '/' ∨ c = '*' := by simpa [openingLetters, commentStart] using hc
  rcases hcases with rfl | rfl <;> decide

theorem pattern_closingLetters : Pattern closingLetters := by
  intro c hc
  have hcases : c = '*' ∨ c = '/' := by simpa [closingLetters, commentEnd] using hc
  rcases hcases with rfl | rfl <;> decide

abbrev eraseOpening : List Letter → List Letter := erase openingLetters openingLetters_ne_nil

abbrev eraseClosing : List Letter → List Letter := erase closingLetters closingLetters_ne_nil

/-- Unmarking a spelt text, letter by letter. -/
theorem unmark_spell {text : List Letter} (h : Readable text) (h' : Readable (eraseOpening text)) :
    unmark (spell text) = spell (eraseClosing (eraseOpening text)) := by
  have hopen : opening ≠ [] := by decide
  have hclose : closing ≠ [] := by decide
  rw [unmark, Text.replaceAll, dif_neg hclose, Text.replaceAll, dif_neg hopen]
  simp only [← spell_openingLetters, ← spell_closingLetters]
  rw [replaceNonempty_spell pattern_openingLetters openingLetters_ne_nil h,
    replaceNonempty_spell pattern_closingLetters closingLetters_ne_nil h']

/-- An opening sentinel goes and the characters before it stay. -/
theorem eraseOpening_letters_opening (text : List Char) (after : List Letter) :
    eraseOpening (letters text ++ (openingLetters ++ after)) =
      letters text ++ eraseOpening after := by
  induction text with
  | nil => exact erase_append openingLetters_ne_nil after
  | cons c text ih =>
    have hnot : ¬ openingLetters <+: .char c :: (letters text ++ (openingLetters ++ after)) := by
      match text with
      | [] => simp [openingLetters, commentStart]
      | [d] => simp [openingLetters, commentStart]
      | d :: e :: text => simp [openingLetters, commentStart]
    rw [letters_cons, List.cons_append, eraseOpening, erase_cons _ hnot, ← eraseOpening, ih,
      List.cons_append]

/-- A word stays unless the characters before it open a comment. -/
theorem eraseOpening_letters_word {text : List Char} (after : List Letter)
    (h : ¬ commentStart <:+ text) :
    eraseOpening (letters text ++ .word :: after) =
      letters text ++ .word :: eraseOpening after := by
  induction text with
  | nil =>
    have hnot : ¬ openingLetters <+: .word :: after := by simp [openingLetters, commentStart]
    exact erase_cons _ hnot
  | cons c text ih =>
    have hnot : ¬ openingLetters <+: .char c :: (letters text ++ .word :: after) := by
      match text with
      | [] => simp [openingLetters, commentStart]
      | [d] =>
        intro hp
        obtain ⟨rfl, rfl⟩ : '/' = c ∧ '*' = d := by simpa [openingLetters, commentStart] using hp
        exact h (List.suffix_refl _)
      | d :: e :: text => simp [openingLetters, commentStart]
    have hsuffix : ¬ commentStart <:+ text := fun hs => h (hs.trans (List.suffix_cons c text))
    rw [letters_cons, List.cons_append, eraseOpening, erase_cons _ hnot, ← eraseOpening, ih hsuffix,
      List.cons_append]

theorem eraseOpening_letters (text : List Char) : eraseOpening (letters text) = letters text := by
  induction text with
  | nil => exact erase_nil _
  | cons c text ih =>
    have hnot : ¬ openingLetters <+: letters (c :: text) := by
      intro hp
      have hword : Letter.word ∈ letters (c :: text) := hp.subset (by simp [openingLetters])
      simp [letters] at hword
    rw [letters_cons] at hnot ⊢
    rw [eraseOpening, erase_cons _ hnot, ← eraseOpening, ih]

theorem eraseClosing_letters_append (text : List Char) (after : List Letter) :
    eraseClosing (letters text ++ after) = letters text ++ eraseClosing after := by
  induction text with
  | nil => rfl
  | cons c text ih =>
    have hnot : ¬ closingLetters <+: .char c :: (letters text ++ after) := by simp [closingLetters]
    rw [letters_cons, List.cons_append, eraseClosing, erase_cons _ hnot, ← eraseClosing, ih,
      List.cons_append]

/-- The text of a range once it is marked and unmarked: an open comment at its end is turned
round. -/
def flipOpen (inside : List Char) : List Char :=
  if commentStart <:+ inside then inside.take (inside.length - 2) ++ commentEnd else inside

theorem flipOpen_append (text : List Char) :
    flipOpen (text ++ commentStart) = text ++ commentEnd := by
  have hlength : (text ++ commentStart).length - 2 = text.length := by simp [commentStart]
  rw [flipOpen, if_pos (List.suffix_append _ _), hlength, List.take_left]

theorem length_flipOpen (inside : List Char) : (flipOpen inside).length = inside.length := by
  by_cases h : commentStart <:+ inside
  · obtain ⟨text, rfl⟩ := h
    rw [flipOpen_append, List.length_append, List.length_append]
    rfl
  · rw [flipOpen, if_neg h]

theorem flipOpen_eq_self_iff {inside : List Char} :
    flipOpen inside = inside ↔ ¬ commentStart <:+ inside := by
  constructor
  · rintro heq ⟨text, rfl⟩
    rw [flipOpen_append, List.append_cancel_left_eq] at heq
    exact absurd heq (by decide)
  · intro h
    rw [flipOpen, if_neg h]

namespace Segment

def toLetters (segment : Segment) : List Letter :=
  letters segment.before ++ (openingLetters ++ (letters segment.inside ++ closingLetters))

/-- The letters of a segment without its opening sentinels. -/
def opened (segment : Segment) : List Letter :=
  letters segment.before ++
    if commentStart <:+ segment.inside then letters (flipOpen segment.inside)
    else letters segment.inside ++ closingLetters

def unmarked (segment : Segment) : List Char := segment.before ++ flipOpen segment.inside

theorem spell_toLetters (segment : Segment) : spell segment.toLetters = segment.marked := by
  simp [toLetters, marked, spell_openingLetters, spell_closingLetters]

theorem unmarked_eq_plain_iff (segment : Segment) :
    segment.unmarked = segment.plain ↔ ¬ commentStart <:+ segment.inside := by
  rw [unmarked, plain, List.append_cancel_left_eq, flipOpen_eq_self_iff]

end Segment

theorem spell_marked (segments : List Segment) (tail : List Char) :
    spell (segments.flatMap Segment.toLetters ++ letters tail) = markedText segments tail := by
  induction segments with
  | nil => simp [markedText]
  | cons segment segments ih =>
    rw [List.flatMap_cons, List.append_assoc, spell_append, ih, Segment.spell_toLetters]
    simp [markedText]

/-- The characters that an earlier closing sentinel leaves in front are part of the induction: they
could begin an opening sentinel of their own. -/
theorem eraseOpening_marked (front : List Char) (segments : List Segment) (tail : List Char) :
    eraseOpening (letters front ++ (segments.flatMap Segment.toLetters ++ letters tail)) =
      letters front ++ (segments.flatMap Segment.opened ++ letters tail) := by
  induction segments generalizing front with
  | nil => simpa using eraseOpening_letters (front ++ tail)
  | cons segment segments ih =>
    let later := segments.flatMap Segment.toLetters ++ letters tail
    have hsplit : letters front ++ ((segment :: segments).flatMap Segment.toLetters ++
        letters tail) = letters (front ++ segment.before) ++ (openingLetters ++
          (letters segment.inside ++ .word :: (letters commentEnd ++ later))) := by
      simp [later, Segment.toLetters, closingLetters]
    rw [hsplit, eraseOpening_letters_opening]
    by_cases h : commentStart <:+ segment.inside
    · obtain ⟨text, htext⟩ := h
      have hword : letters segment.inside ++ .word :: (letters commentEnd ++ later) =
          letters text ++ (openingLetters ++ (letters commentEnd ++ later)) := by
        simp [← htext, openingLetters]
      rw [hword, eraseOpening_letters_opening, ih]
      simp [Segment.opened, ← htext, flipOpen_append]
    · rw [eraseOpening_letters_word _ h, ih]
      simp [Segment.opened, h, closingLetters]

theorem eraseClosing_opened (segments : List Segment) (tail : List Char) :
    eraseClosing (segments.flatMap Segment.opened ++ letters tail) =
      letters (segments.flatMap Segment.unmarked ++ tail) := by
  induction segments with
  | nil =>
    have h := eraseClosing_letters_append tail []
    simpa [eraseClosing] using h
  | cons segment segments ih =>
    rw [List.flatMap_cons, List.append_assoc, Segment.opened, List.append_assoc,
      eraseClosing_letters_append]
    by_cases h : commentStart <:+ segment.inside
    · rw [if_pos h, eraseClosing_letters_append, ih]
      simp [Segment.unmarked]
    · rw [if_neg h, List.append_assoc, eraseClosing_letters_append, eraseClosing,
        erase_append, ← eraseClosing, ih]
      simp [Segment.unmarked, flipOpen, h]

/-- The ends of a comment keep the word from reaching over them. -/
theorem magicWord_infix_append_iff {a b delimiter : List Char}
    (hd : delimiter = commentStart ∨ delimiter = commentEnd) :
    magicWord <:+: a ++ (delimiter ++ b) ↔ magicWord <:+: a ∨ magicWord <:+: b := by
  have hslash : '/' ∉ magicWord := by decide
  have hstar : '*' ∉ magicWord := by decide
  have hcons {c : Char} (hc : c ∉ magicWord) : magicWord <:+: c :: b ↔ magicWord <:+: b := by
    simpa [magicWord_ne_nil] using infix_append_cons_iff (a := []) (b := b) hc
  rcases hd with rfl | rfl
  · exact (infix_append_cons_iff hslash).trans (or_congr_right (hcons hstar))
  · exact (infix_append_cons_iff hstar).trans (or_congr_right (hcons hslash))

section Clean

variable {segments : List Segment} {tail : List Char}

theorem not_infix_plainText_cons {segment : Segment}
    (h : ¬ magicWord <:+: plainText (segment :: segments) tail) :
    ¬ magicWord <:+: segment.plain ∧ ¬ magicWord <:+: plainText segments tail := by
  have hcons : plainText (segment :: segments) tail = segment.plain ++ plainText segments tail := by
    simp [plainText]
  rw [hcons] at h
  exact ⟨fun hp => h (List.infix_append_of_infix_left hp),
    fun hp => h (List.infix_append_of_infix_right hp)⟩

theorem readable_marked (h : ¬ magicWord <:+: plainText segments tail) :
    Readable (segments.flatMap Segment.toLetters ++ letters tail) := by
  induction segments with
  | nil => simpa [Readable, plainText] using h
  | cons segment segments ih =>
    obtain ⟨hplain, hrest⟩ := not_infix_plainText_cons h
    have hbefore : ¬ magicWord <:+: segment.before :=
      fun hp => hplain (List.infix_append_of_infix_left hp)
    have hinside : ¬ magicWord <:+: segment.inside :=
      fun hp => hplain (List.infix_append_of_infix_right hp)
    have hlater : ¬ magicWord <:+: chars (segments.flatMap Segment.toLetters ++ letters tail) :=
      ih hrest
    have hchars : chars ((segment :: segments).flatMap Segment.toLetters ++ letters tail) =
        segment.before ++ (commentStart ++ (segment.inside ++ (commentEnd ++
          chars (segments.flatMap Segment.toLetters ++ letters tail)))) := by
      simp [Segment.toLetters, openingLetters, closingLetters, chars]
    rw [Readable, hchars, magicWord_infix_append_iff (.inl rfl),
      magicWord_infix_append_iff (.inr rfl)]
    simp only [hbefore, hinside, hlater, or_self, not_false_eq_true]

theorem readable_opened (h : ¬ magicWord <:+: plainText segments tail) :
    Readable (segments.flatMap Segment.opened ++ letters tail) := by
  induction segments with
  | nil => simpa [Readable, plainText] using h
  | cons segment segments ih =>
    obtain ⟨hplain, hrest⟩ := not_infix_plainText_cons h
    have hlater : ¬ magicWord <:+: chars (segments.flatMap Segment.opened ++ letters tail) :=
      ih hrest
    -- In both cases the end of a comment stands behind a part of the segment.
    obtain ⟨part, hpart, hchars⟩ : ∃ part, part <+: segment.plain ∧
        chars segment.opened = part ++ commentEnd := by
      by_cases hopen : commentStart <:+ segment.inside
      · obtain ⟨text, htext⟩ := hopen
        refine ⟨segment.before ++ text, ⟨commentStart, by simp [Segment.plain, ← htext]⟩, ?_⟩
        simp [Segment.opened, ← htext, flipOpen_append]
      · refine ⟨segment.plain, List.prefix_refl _, ?_⟩
        simp [Segment.opened, Segment.plain, hopen, closingLetters, chars]
    have hclean : ¬ magicWord <:+: part := fun hp => hplain (hp.trans hpart.isInfix)
    rw [Readable, List.flatMap_cons, List.append_assoc, chars_append, hchars, List.append_assoc,
      magicWord_infix_append_iff (.inr rfl)]
    simp only [hclean, hlater, or_self, not_false_eq_true]

/-- Unmarking a marked text gives every segment back, but turns round each comment that is open at
the end of a range. -/
theorem unmark_markedText (h : ¬ magicWord <:+: plainText segments tail) :
    unmark (markedText segments tail) = segments.flatMap Segment.unmarked ++ tail := by
  have hopened := eraseOpening_marked [] segments tail
  rw [letters_nil, List.nil_append, List.nil_append] at hopened
  rw [← spell_marked, unmark_spell (readable_marked h) (hopened ▸ readable_opened h), hopened,
    eraseClosing_opened, spell_letters]

end Clean

theorem unmarked_eq_plainText_iff (segments : List Segment) (tail : List Char) :
    segments.flatMap Segment.unmarked ++ tail = plainText segments tail ↔
      ∀ segment ∈ segments, ¬ commentStart <:+ segment.inside := by
  rw [plainText, List.append_cancel_right_eq]
  induction segments with
  | nil => simp
  | cons segment segments ih =>
    have hlength : segment.unmarked.length = segment.plain.length := by
      simp [Segment.unmarked, Segment.plain, length_flipOpen]
    rw [List.flatMap_cons, List.flatMap_cons, List.forall_mem_cons, ← ih,
      ← Segment.unmarked_eq_plain_iff]
    constructor
    · intro heq
      exact List.append_inj heq hlength
    · rintro ⟨hhead, htail⟩
      rw [hhead, htail]

/-- In a text without the magic word, unmarking undoes marking exactly when no marked range ends in
the start of a comment. -/
theorem unmark_mark_eq_self_iff {code marked : List Char} {ranges : List DecoratorRange}
    (hword : ¬ magicWord <:+: code) (hmark : mark code ranges = .ok marked) :
    unmark marked = code ↔ ∀ range ∈ ranges, ¬ "/*".toList <:+ range.slice code := by
  obtain ⟨segments, tail, hcode, rfl, hinside⟩ := mark_layout hmark
  rw [unmark_markedText (hcode ▸ hword)]
  conv_lhs => rw [hcode]
  rw [unmarked_eq_plainText_iff, ← List.forall_mem_map (f := Segment.inside)
    (P := fun inside => ¬ commentStart <:+ inside), hinside, List.forall_mem_map]
  rfl

/-- Adjacent ranges and an empty one at the end come back; an open comment does not. -/
theorem unmark_mark_adjacent_and_open :
    (∃ marked, mark "@a@b*/R".toList [⟨0, 2⟩, ⟨2, 6⟩, ⟨7, 7⟩] = .ok marked ∧
      unmark marked = "@a@b*/R".toList) ∧
    ∃ marked, mark "@a/* f".toList [⟨0, 4⟩] = .ok marked ∧ unmark marked ≠ "@a/* f".toList := by
  refine ⟨⟨_, rfl, ?_⟩, _, rfl, ?_⟩
  · have hmark : mark "@a@b*/R".toList [⟨0, 2⟩, ⟨2, 6⟩, ⟨7, 7⟩] = .ok _ := rfl
    exact (unmark_mark_eq_self_iff (by decide) hmark).2 (by decide)
  · have hmark : mark "@a/* f".toList [⟨0, 4⟩] = .ok _ := rfl
    intro heq
    exact (unmark_mark_eq_self_iff (by decide) hmark).1 heq ⟨0, 4⟩ (by decide) (by decide)

end DecoratorVeil.Sentinel
