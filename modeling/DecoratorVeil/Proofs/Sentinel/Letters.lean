import DecoratorVeil.Sentinel
import Mathlib.Data.List.Infix
import Mathlib.Tactic.Common

/-!
# Texts in which the magic word is one letter

Sentinels are searched for in a text where source characters touch them on both sides.  Here such a
text is spelt from letters, each a character or the whole magic word.  As long as the characters
alone do not hold the word, a spelt sentinel occurs only where its letters do: the word does not
overlap itself, and no part of it joins with characters to a second word.  Taking a sentinel out of
a spelt text is then taking out its letters.
-/

namespace DecoratorVeil.Sentinel

/-- A word that no end of itself begins can only occur apart from itself. -/
theorem magicWord_unbordered {w : List Char} (hs : w <:+ magicWord) (hp : w <+: magicWord)
    (hw : w ≠ []) : w = magicWord := by
  have hborder : ∀ k < magicWord.length, k ≠ 0 → ¬ magicWord.drop k <+: magicWord := by decide
  rw [List.suffix_iff_eq_drop] at hs
  have hpos := List.length_pos_iff.2 hw
  have hle := hp.length_le
  by_cases hk : magicWord.length - w.length = 0
  · exact hp.eq_of_length (by omega)
  · rw [hs] at hp
    exact absurd hp (hborder _ (by omega) hk)

theorem magicWord_ne_nil : magicWord ≠ [] := by decide

theorem prefix_of_prefix_append_cons {α : Type} {w a b : List α} {c : α} (hc : c ∉ w)
    (h : w <+: a ++ c :: b) : w <+: a := by
  induction a generalizing w with
  | nil =>
    rcases List.prefix_cons_iff.1 h with rfl | ⟨t, rfl, -⟩
    · exact List.nil_prefix
    · simp at hc
  | cons x a ih =>
    rcases List.prefix_cons_iff.1 h with rfl | ⟨t, rfl, ht⟩
    · exact List.nil_prefix
    · exact List.cons_prefix_cons.2 ⟨rfl, ih (fun hm => hc (List.mem_cons_of_mem _ hm)) ht⟩

/-- A character outside the word cuts a text into two that are searched apart. -/
theorem infix_append_cons_iff {α : Type} {w a b : List α} {c : α} (hc : c ∉ w) :
    w <:+: a ++ c :: b ↔ w <:+: a ∨ w <:+: b := by
  constructor
  · intro h
    induction a with
    | nil =>
      rcases List.infix_cons_iff.1 h with hp | hi
      · exact .inl (prefix_of_prefix_append_cons (a := []) hc hp).isInfix
      · exact .inr hi
    | cons x a ih =>
      rcases List.infix_cons_iff.1 h with hp | hi
      · exact .inl (prefix_of_prefix_append_cons (a := x :: a) hc hp).isInfix
      · exact (ih hi).imp_left (fun hm => List.infix_cons hm)
  · rintro (h | h)
    · exact List.infix_append_of_infix_left h
    · exact List.infix_append_of_infix_right (List.infix_cons h)

inductive Letter where
  | char (c : Char)
  | word
  deriving DecidableEq

def spell : List Letter → List Char
  | [] => []
  | .char c :: rest => c :: spell rest
  | .word :: rest => magicWord ++ spell rest

def chars : List Letter → List Char
  | [] => []
  | .char c :: rest => c :: chars rest
  | .word :: rest => chars rest

def letters (text : List Char) : List Letter := text.map .char

@[simp] theorem spell_append (a b : List Letter) : spell (a ++ b) = spell a ++ spell b := by
  induction a with
  | nil => rfl
  | cons x a ih => cases x <;> simp [spell, ih]

@[simp] theorem chars_append (a b : List Letter) : chars (a ++ b) = chars a ++ chars b := by
  induction a with
  | nil => rfl
  | cons x a ih => cases x <;> simp [chars, ih]

@[simp] theorem spell_letters (text : List Char) : spell (letters text) = text := by
  induction text with
  | nil => rfl
  | cons c text ih => simpa [letters, spell] using ih

@[simp] theorem chars_letters (text : List Char) : chars (letters text) = text := by
  induction text with
  | nil => rfl
  | cons c text ih => simpa [letters, chars] using ih

@[simp] theorem letters_nil : letters [] = [] := rfl

@[simp] theorem letters_cons (c : Char) (text : List Char) :
    letters (c :: text) = .char c :: letters text := rfl

@[simp] theorem letters_append (a b : List Char) : letters (a ++ b) = letters a ++ letters b :=
  List.map_append

/-- The characters alone do not hold the word, so the letters can be read off the spelt text. -/
def Readable (text : List Letter) : Prop := ¬ magicWord <:+: chars text

theorem Readable.of_append {a b : List Letter} (h : Readable (a ++ b)) : Readable b := by
  intro hb
  exact h (by simpa using List.infix_append_of_infix_right hb)

theorem Readable.tail {x : Letter} {text : List Letter} (h : Readable (x :: text)) :
    Readable text :=
  Readable.of_append (a := [x]) h

/-- The rest of a word that has begun with characters cannot be spelt by what follows. -/
theorem not_rest_of_word (begun rest : List Char) {text : List Letter}
    (hword : magicWord = begun ++ rest) (hb : begun ≠ []) (hr : rest ≠ [])
    (hclean : ¬ magicWord <:+: begun ++ chars text) : ¬ rest <+: spell text := by
  induction text generalizing begun rest with
  | nil =>
    intro h
    exact hr (List.prefix_nil.1 h)
  | cons x text ih =>
    intro h
    cases x with
    | char c =>
      rcases List.prefix_cons_iff.1 h with hnil | ⟨rest, rfl, ht⟩
      · exact hr hnil
      · by_cases hend : rest = []
        · subst hend
          apply hclean
          rw [hword]
          exact ⟨[], chars text, by simp [chars]⟩
        · exact ih (begun ++ [c]) rest (by simpa using hword) (by simp) hend
            (by simpa [chars] using hclean) ht
    | word =>
      -- What is left of the word would begin the next one.
      have hlt : rest.length < magicWord.length := by
        have := List.length_pos_iff.2 hb
        rw [hword, List.length_append]
        omega
      have hp : rest <+: magicWord :=
        List.prefix_of_prefix_length_le h (List.prefix_append _ _) hlt.le
      have hs : rest <:+ magicWord := ⟨begun, hword.symm⟩
      rw [magicWord_unbordered hs hp hr] at hlt
      exact lt_irrefl _ hlt

theorem not_magicWord_prefix_spell {c : Char} {text : List Letter}
    (h : Readable (.char c :: text)) : ¬ magicWord <+: spell (.char c :: text) := by
  intro hp
  rcases List.prefix_cons_iff.1 hp with hnil | ⟨rest, hword, ht⟩
  · exact magicWord_ne_nil hnil
  · have hr : rest ≠ [] := by
      rintro rfl
      exact absurd (congrArg List.length hword) (by simp [show magicWord.length = 34 from rfl])
    exact not_rest_of_word [c] rest hword (by simp) hr h ht

/-- Letters that can stand in a pattern: characters of the pattern are not taken for parts of the
word. -/
def Pattern (p : List Letter) : Prop := ∀ c, .char c ∈ p → c ∉ magicWord

theorem Pattern.tail {x : Letter} {p : List Letter} (h : Pattern (x :: p)) : Pattern p :=
  fun c hc => h c (List.mem_cons_of_mem _ hc)

/-- A spelt pattern begins a spelt text only if its letters do. -/
theorem spell_prefix_spell_iff {p text : List Letter} (hp : Pattern p) (ht : Readable text) :
    spell p <+: spell text ↔ p <+: text := by
  constructor
  · intro h
    induction p generalizing text with
    | nil => exact List.nil_prefix
    | cons x p ih =>
      cases x with
      | char c =>
        have hc : c ∉ magicWord := hp c List.mem_cons_self
        cases text with
        | nil => exact absurd (List.prefix_nil.1 h) (by simp [spell])
        | cons y text =>
          cases y with
          | char d =>
            obtain ⟨rfl, hrest⟩ := List.cons_prefix_cons.1 h
            exact List.cons_prefix_cons.2 ⟨rfl, ih hp.tail ht.tail hrest⟩
          | word =>
            rw [spell, spell, ← List.cons_head_tail magicWord_ne_nil, List.cons_append,
              List.cons_prefix_cons] at h
            exact absurd (h.1 ▸ List.head_mem magicWord_ne_nil) hc
      | word =>
        have hw : magicWord <+: spell text := (List.prefix_append _ _).trans h
        cases text with
        | nil => exact absurd (List.prefix_nil.1 hw) magicWord_ne_nil
        | cons y text =>
          cases y with
          | char d => exact absurd hw (not_magicWord_prefix_spell ht)
          | word =>
            have hrest := (List.prefix_append_right_inj magicWord).1 h
            exact List.cons_prefix_cons.2 ⟨rfl, ih hp.tail ht.tail hrest⟩
  · rintro ⟨rest, rfl⟩
    rw [spell_append]
    exact List.prefix_append _ _

/-- No spelt pattern begins inside the word. -/
theorem not_spell_prefix_inside {p : List Letter} (hp : Pattern p) (hne : p ≠ [])
    {begun rest after : List Char} (hword : magicWord = begun ++ rest) (hb : begun ≠ [])
    (hr : rest ≠ []) : ¬ spell p <+: rest ++ after := by
  intro h
  cases p with
  | nil => exact hne rfl
  | cons x p =>
    cases x with
    | char c =>
      -- The first character of the pattern is none of the word.
      have hc : c ∉ magicWord := hp c List.mem_cons_self
      rw [spell, ← List.cons_head_tail hr, List.cons_append, List.cons_prefix_cons] at h
      apply hc
      rw [hword, h.1]
      exact List.mem_append_right _ (List.head_mem hr)
    | word =>
      have hlen : rest.length < magicWord.length := by
        have := List.length_pos_iff.2 hb
        rw [hword, List.length_append]
        omega
      have hw : magicWord <+: rest ++ after := (List.prefix_append _ _).trans h
      have hrest : rest <+: magicWord :=
        List.prefix_of_prefix_length_le (List.prefix_append _ _) hw hlen.le
      have hs : rest <:+ magicWord := ⟨begun, hword.symm⟩
      rw [magicWord_unbordered hs hrest hr] at hlen
      exact lt_irrefl _ hlen

def erase (p : List Letter) (hne : p ≠ []) : List Letter → List Letter
  | [] => []
  | x :: rest =>
    if p <+: x :: rest then erase p hne ((x :: rest).drop p.length)
    else x :: erase p hne rest
termination_by text => text.length
decreasing_by
  · have : 0 < p.length := List.length_pos_iff.2 hne
    simp only [List.length_drop, List.length_cons]
    omega
  · simp

section Erase

variable {p : List Letter} (hne : p ≠ [])

@[simp] theorem erase_nil : erase p hne [] = [] := by
  rw [erase]

theorem erase_append (text : List Letter) : erase p hne (p ++ text) = erase p hne text := by
  cases h : p ++ text with
  | nil => exact absurd (List.append_eq_nil_iff.1 h).1 hne
  | cons x rest =>
    rw [erase, if_pos (h ▸ List.prefix_append p text), ← h, List.drop_left]

theorem erase_cons {x : Letter} {text : List Letter} (h : ¬ p <+: x :: text) :
    erase p hne (x :: text) = x :: erase p hne text := by
  rw [erase, if_neg h]

end Erase

theorem spell_ne_nil {p : List Letter} (hne : p ≠ []) : spell p ≠ [] := by
  cases p with
  | nil => exact absurd rfl hne
  | cons x p => cases x <;> simp [spell, magicWord_ne_nil]

theorem replaceNonempty_append {old text : List Char} (h : old ≠ []) :
    Text.replaceNonempty old [] h (old ++ text) = Text.replaceNonempty old [] h text := by
  cases ht : old ++ text with
  | nil => exact absurd (List.append_eq_nil_iff.1 ht).1 h
  | cons c rest =>
    have hp : old.isPrefixOf (c :: rest) = true :=
      List.isPrefixOf_iff_prefix.2 (ht ▸ List.prefix_append old text)
    rw [Text.replaceNonempty, if_pos hp, ← ht, List.drop_left, List.nil_append]

theorem replaceNonempty_cons {old rest : List Char} {c : Char} (h : old ≠ [])
    (hp : ¬ old <+: c :: rest) :
    Text.replaceNonempty old [] h (c :: rest) = c :: Text.replaceNonempty old [] h rest := by
  rw [Text.replaceNonempty, if_neg (by simpa using hp)]

/-- Replacing a spelt pattern passes over the part of a word that is left. -/
theorem replaceNonempty_rest_of_word {p : List Letter} (hp : Pattern p) (hne : p ≠ [])
    (begun rest after : List Char) (hword : magicWord = begun ++ rest) (hb : begun ≠ []) :
    Text.replaceNonempty (spell p) [] (spell_ne_nil hne) (rest ++ after) =
      rest ++ Text.replaceNonempty (spell p) [] (spell_ne_nil hne) after := by
  induction rest generalizing begun with
  | nil => rfl
  | cons c rest ih =>
    have hnot : ¬ spell p <+: c :: (rest ++ after) :=
      not_spell_prefix_inside hp hne hword hb (List.cons_ne_nil c rest)
    rw [List.cons_append, replaceNonempty_cons _ hnot,
      ih (begun ++ [c]) (by simpa using hword) (by simp), List.cons_append]

/-- Taking a spelt pattern out of a spelt text takes out its letters. -/
theorem replaceNonempty_spell {p : List Letter} (hp : Pattern p) (hne : p ≠ [])
    {text : List Letter} (ht : Readable text) :
    Text.replaceNonempty (spell p) [] (spell_ne_nil hne) (spell text) =
      spell (erase p hne text) := by
  fun_induction erase p hne text with
  | case1 => simp [spell, Text.replaceNonempty]
  | case2 x rest h ih =>
    obtain ⟨after, hafter⟩ := h
    rw [← hafter, List.drop_left] at ih ⊢
    rw [spell_append, replaceNonempty_append]
    exact ih (Readable.of_append (hafter ▸ ht))
  | case3 x rest h ih =>
    have hnot : ¬ spell p <+: spell (x :: rest) := fun hs => h ((spell_prefix_spell_iff hp ht).1 hs)
    cases x with
    | char c =>
      rw [spell, replaceNonempty_cons _ hnot, ih ht.tail, spell]
    | word =>
      obtain ⟨c, tail, hword⟩ := List.exists_cons_of_ne_nil magicWord_ne_nil
      rw [spell, hword, List.cons_append] at hnot ⊢
      rw [replaceNonempty_cons _ hnot,
        replaceNonempty_rest_of_word hp hne [c] tail _ hword (List.cons_ne_nil c []), ih ht.tail,
        spell, hword, List.cons_append]

end DecoratorVeil.Sentinel
