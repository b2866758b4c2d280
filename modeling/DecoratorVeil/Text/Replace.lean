/-!
# Replacing a text

All occurrences of one text, taken from left to right without overlap, give way to another.  The
empty text occurs before every character and at the end.
-/

namespace DecoratorVeil.Text

def replaceNonempty (old new : List Char) (h : old ≠ []) : List Char → List Char
  | [] => []
  | c :: rest =>
    if old.isPrefixOf (c :: rest) then
      new ++ replaceNonempty old new h ((c :: rest).drop old.length)
    else c :: replaceNonempty old new h rest
termination_by text => text.length
decreasing_by
  · have : 0 < old.length := List.length_pos_iff.2 h
    simp
    omega
  · simp

def replaceAll (old new text : List Char) : List Char :=
  if h : old = [] then text.foldr (fun c rest => new ++ c :: rest) new
  else replaceNonempty old new h text

def occursIn (part : List Char) : List Char → Bool
  | [] => part.isEmpty
  | c :: rest => part.isPrefixOf (c :: rest) || occursIn part rest

end DecoratorVeil.Text
