import DecoratorVeil.Declaration.Decorators
import DecoratorVeil.SourceReader

/-!
# Locating and marking the decorators of a text

A text that the reader takes for another language has no located decorators and stays as it is.
-/

namespace DecoratorVeil

/-- Only the text is read, so every text goes by this name. -/
def placeholderFileName : String := "input.ts"

/-- The order of ranges by their start; ranges with the same start keep their order. -/
def sortRanges (ranges : List DecoratorRange) : List DecoratorRange :=
  ranges.mergeSort (fun a b => decide (a.start ≤ b.start))

def collectRanges (source : Declaration) : Traced (List DecoratorRange) :=
  match source.decoratorRanges with
  | .ok ranges => pure ranges
  | .error unknown => Traced.fail (.shape unknown.name)

/-- The declarations of a text, or none if the reader takes it for another language. -/
def tryRead (reader : SourceReader) (code : String) : Traced (Option Declaration) :=
  (some <$> reader code placeholderFileName).recover fun failure =>
    match failure with
    | .tool (.dialect message) => some do
      Traced.log ("Not AssemblyScript source, leaving decorators unmarked: " ++ message)
      return none
    | _ => none

def locate (reader : SourceReader) (code : String) : Traced (Option (List DecoratorRange)) := do
  match ← tryRead reader code with
  | none => return none
  | some source => return some (sortRanges (← collectRanges source))

/-- Marks ranges of a text; without ranges the text stays as it is. -/
def markRanges (code : String) (ranges : Option (List DecoratorRange)) : Except Failure String :=
  match ranges with
  | none => .ok code
  | some ranges =>
    match Sentinel.mark code.toList ranges with
    | .ok marked => .ok (String.ofList marked)
    | .error error => .error (.ofRangeError error)

def markCode (reader : SourceReader) (code : String) : Traced String := do
  Traced.ofExcept (markRanges code (← locate reader code))

def unmarkText (text : String) : String :=
  String.ofList (Sentinel.unmark text.toList)

end DecoratorVeil
