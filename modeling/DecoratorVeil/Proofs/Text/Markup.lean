import DecoratorVeil.Text.Markup
import DecoratorVeil.Text.Tabs
import Mathlib.Data.List.Basic

/-!
# Texts without markup

A text with no backslash, in which no bracket opens a tag, is read as it stands and needs no escape.
-/

namespace DecoratorVeil.Text

namespace Markup

/-- No backslash stands in a text, and no bracket that could open a tag. -/
def isLiteral : List Char → Bool
  | [] => true
  | c :: rest => c != '\\' && (c != '[' || !rest.head?.any opensTag) && isLiteral rest

theorem tagBody?_eq_none {rest : List Char} (h : rest.head?.any opensTag = false) :
    tagBody? rest = none := by
  cases rest with
  | nil => rfl
  | cons c rest =>
    have hopens : opensTag c = false := by simpa using h
    cases hc : (c != '[' && c != ']') with
    | false => simp [tagBody?, hc]
    | true =>
      simp only [tagBody?, List.takeWhile_cons, hc, if_true]
      split
      · rename_i hbody _
        cases hbody
        simp [hopens]
      · rfl

section Literal

variable {text : List Char}

theorem isLiteral_cons_iff {c : Char} {rest : List Char} : isLiteral (c :: rest) = true ↔
    c ≠ '\\' ∧ (c = '[' → tagBody? rest = none ∧ rest.head?.any opensTag = false) ∧
      isLiteral rest = true := by
  simp only [isLiteral, Bool.and_eq_true, Bool.or_eq_true, bne_iff_ne, Bool.not_eq_true', ne_eq,
    and_assoc]
  refine and_congr_right fun _ => and_congr_left fun _ => ?_
  constructor
  · intro h hc
    have hhead := h.resolve_left fun hne => hne hc
    exact ⟨tagBody?_eq_none hhead, hhead⟩
  · intro h
    by_cases hc : c = '['
    · exact .inr (h hc).2
    · exact .inl hc

theorem isLiteral_append {rest : List Char} (htext : isLiteral text = true)
    (hrest : isLiteral rest = true) (hhead : rest.head?.any opensTag = false) :
    isLiteral (text ++ rest) = true := by
  induction text with
  | nil => exact hrest
  | cons c text ih =>
    obtain ⟨hslash, hbracket, hlater⟩ := isLiteral_cons_iff.1 htext
    refine isLiteral_cons_iff.2 ⟨hslash, fun hc => ?_, ih hlater⟩
    have hopens : (text ++ rest).head?.any opensTag = false := by
      cases text with
      | nil => exact hhead
      | cons d text => exact (hbracket hc).2
    exact ⟨tagBody?_eq_none hopens, hopens⟩

theorem join_pieces_of_isLiteral (h : isLiteral text = true) (opened : List (List Char))
    (position : Nat) : join opened (pieces position 0 0 text) = .ok text := by
  induction text generalizing position with
  | nil => rfl
  | cons c rest ih =>
    obtain ⟨hslash, hbracket, hlater⟩ := isLiteral_cons_iff.1 h
    have hplain : pieces position 0 0 (c :: rest) =
        .plain [c] :: pieces (position + 1) 0 0 rest := by
      by_cases hc : c = '['
      · subst hc
        simp [pieces, (hbracket rfl).1, backslashes]
      · simp [pieces, hslash, hc, backslashes]
    rw [hplain, join, ih hlater]
    rfl

theorem render_of_isLiteral (h : isLiteral text = true) : render text = .ok text :=
  join_pieces_of_isLiteral h [] 0

theorem not_mem_of_isLiteral (h : isLiteral text = true) : '\\' ∉ text := by
  induction text with
  | nil => simp
  | cons c rest ih =>
    obtain ⟨hslash, -, hlater⟩ := isLiteral_cons_iff.1 h
    simpa using ⟨Ne.symm hslash, ih hlater⟩

theorem escapeTags_of_isLiteral (h : isLiteral text = true) : escapeTags 0 text = text := by
  induction text with
  | nil => rfl
  | cons c rest ih =>
    obtain ⟨hslash, hbracket, hlater⟩ := isLiteral_cons_iff.1 h
    by_cases hc : c = '['
    · subst hc
      simp [escapeTags, (hbracket rfl).1, ih hlater]
    · simp [escapeTags, hslash, hc, ih hlater]

theorem escape_of_isLiteral (h : isLiteral text = true) : escape text = text := by
  rw [escape, escapeTags_of_isLiteral h, closeSlash]
  split
  · rfl
  · rename_i rest _ hreverse
    have hmem : '\\' ∈ text := by
      rw [← List.mem_reverse, hreverse]
      exact List.mem_cons_self
    exact absurd hmem (not_mem_of_isLiteral h)
  · rfl

end Literal

end Markup

theorem expandTabsFrom_of_not_mem {text : List Char} (h : '\t' ∉ text) (column : Nat) :
    expandTabsFrom column text = text := by
  induction text generalizing column with
  | nil => rfl
  | cons c rest ih =>
    rw [List.mem_cons, not_or] at h
    have htab : (c == '\t') = false := by simpa using Ne.symm h.1
    rw [expandTabsFrom, htab, ih h.2, ih h.2]
    simp

end DecoratorVeil.Text
