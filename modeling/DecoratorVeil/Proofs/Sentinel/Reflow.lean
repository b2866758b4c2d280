import DecoratorVeil.Proofs.Sentinel.RoundTrip

/-!
# Unmarking what a formatter made of a marked text

A formatter may move, drop, repeat and reorder the sentinels of the text it is given.  Its output is
taken here as pieces of text with a sentinel between each two, in any order and balance.  If the
pieces alone do not hold the magic word, and no closing sentinel stands right behind the start of a
comment, unmarking leaves exactly the pieces.
-/

namespace DecoratorVeil.Sentinel

inductive Mark where
  | opening
  | closing
  deriving DecidableEq, Repr

namespace Mark

def text : Mark → List Char
  | .opening => Sentinel.opening
  | .closing => Sentinel.closing

def toLetters : Mark → List Letter
  | .opening => openingLetters
  | .closing => closingLetters

/-- What is left of a sentinel once the opening ones are gone. -/
def remainder : Mark → List Letter
  | .opening => []
  | .closing => closingLetters

theorem spell_toLetters (mark : Mark) : spell mark.toLetters = mark.text := by
  cases mark
  · exact spell_openingLetters
  · exact spell_closingLetters

end Mark

/-- A piece of text and the pieces that follow it, each behind a sentinel. -/
def woven (first : List Char) (rest : List (Mark × List Char)) : List Char :=
  first ++ rest.flatMap fun (mark, piece) => mark.text ++ piece

def pieces (first : List Char) (rest : List (Mark × List Char)) : List Char :=
  first ++ rest.flatMap Prod.snd

/-- No closing sentinel stands right behind the start of a comment. -/
def Unopened (first : List Char) (rest : List (Mark × List Char)) : Prop :=
  ∀ before piece after, rest = before ++ (.closing, piece) :: after →
    ¬ "/*".toList <:+ woven first before

section Cons

variable (first : List Char) (mark : Mark) (piece : List Char) (rest : List (Mark × List Char))

theorem woven_nil : woven first [] = first := by
  simp [woven]

theorem woven_cons : woven first ((mark, piece) :: rest) =
    woven (first ++ (mark.text ++ piece)) rest := by
  simp [woven]

theorem pieces_cons : pieces first ((mark, piece) :: rest) = pieces (first ++ piece) rest := by
  simp [pieces]

theorem unopened_cons_iff : Unopened first ((mark, piece) :: rest) ↔
    (mark = .closing → ¬ commentStart <:+ first) ∧
      Unopened (first ++ (mark.text ++ piece)) rest := by
  constructor
  · intro h
    refine ⟨?_, ?_⟩
    · rintro rfl
      have hfirst := h [] piece rest rfl
      rwa [woven_nil] at hfirst
    · intro before later after heq
      rw [← woven_cons]
      exact h ((mark, piece) :: before) later after (by rw [heq, List.cons_append])
  · rintro ⟨hhead, htail⟩ before later after heq
    cases before with
    | nil =>
      obtain ⟨⟨rfl, rfl⟩, rfl⟩ := List.cons.inj heq |>.imp_left Prod.mk.inj
      rw [woven_nil]
      exact hhead rfl
    | cons item before =>
      obtain ⟨rfl, rfl⟩ := List.cons.inj heq
      rw [woven_cons]
      exact htail before later after rfl

end Cons

section Letters

variable {first : List Char} {rest : List (Mark × List Char)}

/-- The pieces with letters in place of the sentinels. -/
def seamed (seam : Mark → List Letter) (first : List Char) (rest : List (Mark × List Char)) :
    List Letter :=
  letters first ++ rest.flatMap fun (mark, piece) => seam mark ++ letters piece

theorem seamed_cons (seam : Mark → List Letter) (mark : Mark) (piece : List Char) :
    seamed seam first ((mark, piece) :: rest) =
      letters first ++ (seam mark ++ seamed seam piece rest) := by
  simp [seamed]

theorem spell_seamed (first : List Char) (rest : List (Mark × List Char)) :
    spell (seamed Mark.toLetters first rest) = woven first rest := by
  induction rest generalizing first with
  | nil => simp [seamed, woven]
  | cons item rest ih =>
    rw [seamed_cons, spell_append, spell_append, ih, spell_letters, Mark.spell_toLetters]
    simp [woven]

/-- Comment delimiters between pieces bring no new word about, for it holds none of their
characters. -/
theorem readable_seamed {seam : Mark → List Letter}
    (hseam : ∀ mark, chars (seam mark) = [] ∨ chars (seam mark) = commentStart ∨
      chars (seam mark) = commentEnd)
    (h : ¬ magicWord <:+: pieces first rest) : Readable (seamed seam first rest) := by
  induction rest generalizing first with
  | nil => simpa [Readable, seamed, pieces] using h
  | cons item rest ih =>
    obtain ⟨mark, piece⟩ := item
    have hchars : chars (seamed seam first ((mark, piece) :: rest)) =
        first ++ (chars (seam mark) ++ chars (seamed seam piece rest)) := by
      rw [seamed_cons, chars_append, chars_append, chars_letters]
    rcases hseam mark with hnone | hdelimiter
    · -- The two pieces touch, and go on as one.
      have hjoined : chars (seamed seam first ((mark, piece) :: rest)) =
          chars (seamed seam (first ++ piece) rest) := by
        rw [hchars, hnone]
        simp [seamed]
      rw [Readable, hjoined]
      exact ih (pieces_cons first mark piece rest ▸ h)
    · have hfirst : ¬ magicWord <:+: first :=
        fun hp => h (List.infix_append_of_infix_left hp)
      have hlater : Readable (seamed seam piece rest) :=
        ih fun hp => h (List.infix_append_of_infix_right (by simpa [pieces] using hp))
      rw [Readable, hchars, magicWord_infix_append_iff hdelimiter]
      exact fun hp => hp.elim hfirst hlater

/-- The opening sentinels go, and no others.  Of the text before a sentinel the induction keeps the
characters behind the last word in sight: only they can make it an opening one. -/
theorem eraseOpening_seamed {whole : List Char} (hsuffix : first <:+ whole)
    (h : Unopened whole rest) :
    eraseOpening (seamed Mark.toLetters first rest) = seamed Mark.remainder first rest := by
  induction rest generalizing first whole with
  | nil => simpa [seamed] using eraseOpening_letters first
  | cons item rest ih =>
    obtain ⟨mark, piece⟩ := item
    obtain ⟨hhead, htail⟩ := (unopened_cons_iff whole mark piece rest).1 h
    rw [seamed_cons, seamed_cons]
    cases mark with
    | opening =>
      have hnext : piece <:+ whole ++ (Mark.opening.text ++ piece) :=
        (List.suffix_append _ _).trans (List.suffix_append _ _)
      rw [Mark.toLetters, eraseOpening_letters_opening, ih hnext htail]
      rfl
    | closing =>
      -- Its word stays, and the end of the comment goes in front of the next piece.
      have hunopened : ¬ commentStart <:+ first := fun hs => hhead rfl (hs.trans hsuffix)
      have hnext : commentEnd ++ piece <:+ whole ++ (Mark.closing.text ++ piece) :=
        ⟨whole ++ magicWord, by simp [Mark.text, closing, commentEnd]⟩
      have hend (seam : Mark → List Letter) : letters commentEnd ++ seamed seam piece rest =
          seamed seam (commentEnd ++ piece) rest := by
        simp [seamed]
      have hword (after : List Letter) : closingLetters ++ after =
          .word :: (letters commentEnd ++ after) := rfl
      rw [Mark.toLetters, Mark.remainder, hword, hword, hend, hend,
        eraseOpening_letters_word _ hunopened, ih hnext htail]

theorem eraseClosing_seamed (first : List Char) (rest : List (Mark × List Char)) :
    eraseClosing (seamed Mark.remainder first rest) = letters (pieces first rest) := by
  induction rest generalizing first with
  | nil =>
    have h := eraseClosing_letters_append first []
    simpa [eraseClosing, seamed, pieces] using h
  | cons item rest ih =>
    obtain ⟨mark, piece⟩ := item
    have hseam : eraseClosing (mark.remainder ++ seamed Mark.remainder piece rest) =
        eraseClosing (seamed Mark.remainder piece rest) := by
      cases mark with
      | opening => rfl
      | closing => exact erase_append closingLetters_ne_nil _
    rw [seamed_cons, eraseClosing_letters_append, hseam, ih]
    simp [pieces]

end Letters

/-- Unmarking takes exactly the sentinels out of a text, wherever they stand. -/
theorem unmark_woven {first : List Char} {rest : List (Mark × List Char)}
    (hword : ¬ magicWord <:+: pieces first rest) (hopen : Unopened first rest) :
    unmark (woven first rest) = pieces first rest := by
  have hopened := eraseOpening_seamed (List.suffix_refl first) hopen
  have hreadable : Readable (seamed Mark.toLetters first rest) :=
    readable_seamed (fun mark => by cases mark <;> decide) hword
  have hremainder : Readable (seamed Mark.remainder first rest) :=
    readable_seamed (fun mark => by cases mark <;> decide) hword
  rw [← spell_seamed, unmark_spell hreadable (hopened ▸ hremainder), hopened, eraseClosing_seamed,
    spell_letters]

/-- Sentinels out of balance, and comment delimiters that touch them. -/
theorem unmark_woven_unbalanced :
    unmark (woven "/".toList [(.closing, "*".toList), (.opening, "*/".toList),
      (.closing, "/*MAGIC".toList), (.opening, []), (.opening, "_CODE".toList)]) =
        "/**//*MAGIC_CODE".toList := by
  refine unmark_woven (by decide) ?_
  simp only [unopened_cons_iff]
  refine ⟨by decide, by decide, by decide, by decide, by decide, ?_⟩
  intro before piece after heq
  simp at heq

end DecoratorVeil.Sentinel
