/-!
# Terminal styles

A style is a sequence that a terminal obeys and does not show: the escape character, a bracket,
parameters and a letter.  A text that goes elsewhere loses its styles.
-/

namespace DecoratorVeil.Text

def escapeCharacter : Char := '\x1b'

def isStyleParameter (c : Char) : Bool := c.isDigit || c == ';' || c == '?'

/-- What follows a style that an escape character before the text begins. -/
def afterStyle? : List Char → Option (List Char)
  | '[' :: rest =>
    match rest.dropWhile isStyleParameter with
    | c :: more => if c.isAlpha then some more else none
    | [] => none
  | _ => none

theorem afterStyle?_eq_some {text more : List Char} (h : afterStyle? text = some more) :
    ∃ parameters letter, text = '[' :: parameters ++ letter :: more ∧
      (∀ c ∈ parameters, isStyleParameter c = true) ∧ letter.isAlpha = true := by
  unfold afterStyle? at h
  split at h
  · rename_i rest
    split at h
    · rename_i c tail htail
      split at h <;> cases h
      rename_i hletter
      refine ⟨rest.takeWhile isStyleParameter, c, ?_, ?_, hletter⟩
      · rw [List.cons_append, ← htail, List.takeWhile_append_dropWhile]
      · exact fun d hd => List.all_eq_true.1 List.all_takeWhile d hd
    · cases h
  · cases h

theorem length_lt_of_afterStyle? {text more : List Char} (h : afterStyle? text = some more) :
    more.length < text.length := by
  obtain ⟨parameters, letter, rfl, -, -⟩ := afterStyle?_eq_some h
  simp only [List.length_append, List.length_cons]
  omega

def dropStyles : List Char → List Char
  | [] => []
  | c :: rest =>
    if c == escapeCharacter then
      match h : afterStyle? rest with
      | some more =>
        have := length_lt_of_afterStyle? h
        dropStyles more
      | none => c :: dropStyles rest
    else c :: dropStyles rest
termination_by text => text.length

end DecoratorVeil.Text
