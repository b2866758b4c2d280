/-!
# Line ends

Texts are read with their line ends unified, where a carriage return, alone or before a line feed,
is a line feed, or with line ends kept.
-/

namespace DecoratorVeil.Text

def unifyNewlines : List Char → List Char
  | [] => []
  | '\r' :: '\n' :: rest => '\n' :: unifyNewlines rest
  | '\r' :: rest => '\n' :: unifyNewlines rest
  | c :: rest => c :: unifyNewlines rest

/-- How a stream of text hands on line ends: unified, as text streams are read unless something else
is asked for, or kept, as the standard input is where a line ends with a line feed alone. -/
inductive LineEnds where
  | unified
  | kept
  deriving DecidableEq, Repr

def LineEnds.read : LineEnds → List Char → List Char
  | .unified, text => unifyNewlines text
  | .kept, text => text

theorem not_mem_unifyNewlines (text : List Char) : '\r' ∉ unifyNewlines text := by
  fun_induction unifyNewlines text with
  | case1 => simp
  | case2 rest ih => simpa using ih
  | case3 rest _ ih => simpa using ih
  | case4 c rest _ hc ih =>
    simp only [List.mem_cons, not_or]
    exact ⟨fun h => hc h.symm, ih⟩

end DecoratorVeil.Text
