import DecoratorVeil.Text.Printable

/-!
# Quoted texts

A text between quotes as it stands in messages.  Single quotes are used unless the text holds a
single quote and no double quote.  What is not printable is written by its code point.
-/

namespace DecoratorVeil.Text.Quoted

def hexDigits (width n : Nat) : List Char :=
  let digits := Nat.toDigits 16 n
  List.replicate (width - digits.length) '0' ++ digits

def escapeChar (mark c : Char) : List Char :=
  if c == mark || c == '\\' then ['\\', c]
  else if c == '\t' then ['\\', 't']
  else if c == '\n' then ['\\', 'n']
  else if c == '\r' then ['\\', 'r']
  else if isPrintable c then [c]
  else if c.toNat < 0x100 then '\\' :: 'x' :: hexDigits 2 c.toNat
  else if c.toNat < 0x10000 then '\\' :: 'u' :: hexDigits 4 c.toNat
  else '\\' :: 'U' :: hexDigits 8 c.toNat

/-- The quotes that a text is put between. -/
def markFor (text : List Char) : Char :=
  if text.contains '\x27' && !text.contains '\x22' then '\x22' else '\x27'

def encode (text : List Char) : List Char :=
  let mark := markFor text
  mark :: text.flatMap (escapeChar mark) ++ [mark]

end DecoratorVeil.Text.Quoted

namespace DecoratorVeil.Text

def quoted (text : String) : String :=
  String.ofList (Quoted.encode text.toList)

end DecoratorVeil.Text
