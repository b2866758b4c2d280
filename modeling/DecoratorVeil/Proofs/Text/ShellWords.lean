import DecoratorVeil.Text.ShellWords
import Mathlib.Tactic.Common

/-!
# Joined words are split again

A quoted word is read as the characters of the word, whatever stands after it, and ends at the
separator that joining puts there.  So splitting a joined line gives the words back.  Splitting finds
no word only in a line of separators: everything else begins a word.
-/

namespace DecoratorVeil.Text.ShellWords

/-! ## Words under construction -/

@[simp] theorem extend_some_nil (word : List Char) : extend (some word) [] = some word := rfl

theorem extend_extend (word : Option (List Char)) (first second : List Char) :
    extend (extend word first) second = extend word (first ++ second) := by
  simp [extend]

@[simp] theorem finish_extend_none (chars : List Char) :
    finish (extend none chars) = [String.ofList chars] := by
  simp [finish, extend]

/-! ## One character -/

section Steps

variable {word : Option (List Char)} {c mark : Char} {rest : List Char}

theorem splitFrom_separator (h : isSeparator c = true) :
    splitFrom .bare word (c :: rest) = (splitFrom .bare none rest).map (finish word ++ ·) := by
  rw [splitFrom, if_pos h]

theorem splitFrom_open (h : c = '\x22' ∨ c = '\x27') :
    splitFrom .bare word (c :: rest) = splitFrom (.quoted c) (extend word []) rest := by
  rcases h with rfl | rfl <;> simp [splitFrom, isSeparator]

theorem splitFrom_close :
    splitFrom (.quoted mark) word (mark :: rest) = splitFrom .bare word rest := by
  simp [splitFrom]

/-- Safe characters are neither separators nor backslashes nor quotes. -/
theorem splitFrom_safe (h : isSafe c = true) :
    splitFrom .bare word (c :: rest) = splitFrom .bare (extend word [c]) rest := by
  have hsafe {d : Char} (hd : isSafe d = false) : c ≠ d := by
    rintro rfl
    exact Bool.false_ne_true (hd.symm.trans h)
  have hspace : c ≠ ' ' := hsafe rfl
  have htab : c ≠ '\t' := hsafe rfl
  have hreturn : c ≠ '\r' := hsafe rfl
  have hline : c ≠ '\n' := hsafe rfl
  have hback : c ≠ '\\' := hsafe rfl
  have hdouble : c ≠ '\x22' := hsafe rfl
  have hsingle : c ≠ '\x27' := hsafe rfl
  simp [splitFrom, isSeparator, hspace, htab, hreturn, hline, hback, hdouble, hsingle]

theorem splitFrom_inside (h : c ≠ '\x27') :
    splitFrom (.quoted '\x27') word (c :: rest) =
      splitFrom (.quoted '\x27') (extend word [c]) rest := by
  simp [splitFrom, h]

end Steps

/-! ## One word -/

theorem splitFrom_safeChars {chars : List Char} (h : ∀ c ∈ chars, isSafe c = true)
    (hne : chars ≠ []) (word : Option (List Char)) (rest : List Char) :
    splitFrom .bare word (chars ++ rest) = splitFrom .bare (extend word chars) rest := by
  induction chars generalizing word with
  | nil => exact absurd rfl hne
  | cons c chars ih =>
    obtain ⟨hc, hchars⟩ := List.forall_mem_cons.1 h
    rw [List.cons_append, splitFrom_safe hc]
    by_cases hlast : chars = []
    · subst hlast
      rfl
    · rw [ih hchars hlast, extend_extend, List.singleton_append]

/-- A quote inside a word leaves the quotes, is written between quotes of the other kind, and the
word goes on in new quotes. -/
theorem splitFrom_escapeMark (c : Char) (word rest : List Char) :
    splitFrom (.quoted '\x27') (some word) (quoteChars.escapeMark c ++ rest) =
      splitFrom (.quoted '\x27') (some (c :: word)) rest := by
  by_cases h : c = '\x27'
  · subst h
    simp [quoteChars.escapeMark, splitFrom, isSeparator, extend]
  · have hplain : quoteChars.escapeMark c = [c] := by simp [quoteChars.escapeMark, h]
    rw [hplain, List.singleton_append, splitFrom_inside h]
    rfl

theorem splitFrom_quotedChars (chars word rest : List Char) :
    splitFrom (.quoted '\x27') (some word)
        (chars.flatMap quoteChars.escapeMark ++ '\x27' :: rest) =
      splitFrom .bare (extend (some word) chars) rest := by
  induction chars generalizing word with
  | nil => exact splitFrom_close
  | cons c chars ih =>
    rw [List.flatMap_cons, List.append_assoc, splitFrom_escapeMark, ih]
    simp [extend]

/-- The quoted form of a word is read as the word. -/
theorem splitFrom_quote (word : String) (rest : List Char) :
    splitFrom .bare none ((quote word).toList ++ rest) =
      splitFrom .bare (extend none word.toList) rest := by
  unfold quote
  split
  · rw [String.toList_ofList, quoteChars]
    simp only [List.cons_append, List.append_assoc, List.nil_append]
    rw [splitFrom_open (.inr rfl)]
    exact splitFrom_quotedChars word.toList [] rest
  · rename_i hsafe
    simp only [Bool.or_eq_true, List.isEmpty_iff, List.any_eq_true, Bool.not_eq_true', not_or,
      not_exists, not_and, Bool.not_eq_false] at hsafe
    exact splitFrom_safeChars hsafe.2 hsafe.1 none rest

/-! ## Lines -/

theorem splitFrom_join (words : List String) :
    splitFrom .bare none (join words).toList = .ok words := by
  induction words with
  | nil => rfl
  | cons word words ih =>
    cases words with
    | nil =>
      have hquote := splitFrom_quote word []
      rw [List.append_nil] at hquote
      rw [join, List.map_singleton, String.intercalate_singleton, hquote]
      simp [splitFrom]
    | cons next words =>
      have hline : (join (word :: next :: words)).toList =
          (quote word).toList ++ ' ' :: (join (next :: words)).toList := by
        simp [join, String.toList_intercalate, List.intercalate]
      rw [hline, splitFrom_quote, splitFrom_separator rfl, ih]
      simp [Except.map]

theorem split_join (words : List String) : split (join words) = .ok words :=
  splitFrom_join words

theorem join_ne_empty {words : List String} (h : words ≠ []) : join words ≠ "" := by
  intro hempty
  have hsplit := split_join words
  rw [hempty] at hsplit
  exact h (Except.ok.inj hsplit).symm

/-! ## Lines without words -/

/-- A word that was begun is found. -/
theorem splitFrom_some_ne_nil (mode : Mode) (word chars : List Char) :
    splitFrom mode (some word) chars ≠ .ok [] := by
  induction chars generalizing mode word with
  | nil => cases mode <;> simp [splitFrom, finish]
  | cons c chars ih =>
    cases mode with
    | bare =>
      rw [splitFrom]
      split_ifs
      · cases splitFrom .bare none chars <;> simp [Except.map, finish]
      · exact ih _ _
      · exact ih _ _
      · exact ih _ _
    | escaped => exact ih _ _
    | quoted mark =>
      rw [splitFrom]
      split_ifs <;> exact ih _ _
    | quotedEscaped =>
      rw [splitFrom]
      split_ifs <;> exact ih _ _

theorem splitFrom_escaped_ne_nil (word : Option (List Char)) (chars : List Char) :
    splitFrom .escaped word chars ≠ .ok [] := by
  cases chars with
  | nil => simp [splitFrom]
  | cons c chars => exact splitFrom_some_ne_nil _ _ _

/-- Only separators are no words. -/
theorem split_eq_nil_iff (line : String) :
    split line = .ok [] ↔ ∀ c ∈ line.toList, isSeparator c = true := by
  rw [split]
  induction line.toList with
  | nil => simp [splitFrom, finish]
  | cons c chars ih =>
    rw [List.forall_mem_cons]
    by_cases hc : isSeparator c = true
    · rw [splitFrom_separator hc, ← ih, and_iff_right hc]
      cases splitFrom .bare none chars <;> simp [Except.map, finish]
    · refine iff_of_false ?_ fun h => hc h.1
      rw [splitFrom, if_neg hc]
      split_ifs
      · exact splitFrom_escaped_ne_nil _ _
      · exact splitFrom_some_ne_nil _ _ _
      · exact splitFrom_some_ne_nil _ _ _

end DecoratorVeil.Text.ShellWords
