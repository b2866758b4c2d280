import DecoratorVeil.Declaration.Basic
import DecoratorVeil.Text.Replace

/-!
# Sentinels

Marking puts every decorator of a text between two sentinels, which together read as a comment.
Unmarking takes all sentinels out again.
-/

namespace DecoratorVeil.Sentinel

/-- The word that sets the sentinels apart from all other text. -/
def magicWord : List Char := "MAGIC_CODE_ASSEMBLYSCRIPT_PRETTIER".toList

def opening : List Char := "/*".toList ++ magicWord

def closing : List Char := magicWord ++ "*/".toList

/-- A range that cannot be marked, the length of the text, and the end of the range before. -/
structure RangeError where
  range : DecoratorRange
  length : Nat
  cursor : Nat
  deriving DecidableEq, Repr

/-- Integers are written out whatever the number of their digits, in contrast to those that are read
with `Text.Integer.digitLimit`. -/
def RangeError.message (error : RangeError) : String :=
  "Decorator range [" ++ toString error.range.start ++ ", " ++ toString error.range.stop ++
    ") overlaps, is unordered or exceeds source length " ++ toString error.length ++
    " (cursor at " ++ toString error.cursor ++ ")"

/-- Whether a range starts at the cursor or later, is no less than empty and ends in the text. -/
def fits (length cursor : Nat) (range : DecoratorRange) : Bool :=
  cursor ≤ range.start && range.start ≤ range.stop && range.stop ≤ length

/-- Marks the ranges of the text that is left after the cursor. -/
def markFrom (length cursor : Nat) (rest : List Char) :
    List DecoratorRange → Except RangeError (List Char)
  | [] => .ok rest
  | range :: ranges =>
    if fits length cursor range then
      let start := range.start.toNat
      let stop := range.stop.toNat
      let before := rest.take (start - cursor)
      let inside := (rest.drop (start - cursor)).take (stop - start)
      (markFrom length stop (rest.drop (stop - cursor)) ranges).map
        (before ++ opening ++ inside ++ closing ++ ·)
    else .error ⟨range, length, cursor⟩

/-- Puts the ranges of a text, which are in order and apart, between sentinels. -/
def mark (code : List Char) (ranges : List DecoratorRange) : Except RangeError (List Char) :=
  markFrom code.length 0 code ranges

/-- A text without sentinels: first the opening ones go, then the closing ones. -/
def unmark (text : List Char) : List Char :=
  Text.replaceAll closing [] (Text.replaceAll opening [] text)

end DecoratorVeil.Sentinel
