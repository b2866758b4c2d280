import DecoratorVeil.Text.Blank

/-!
# Integers written by people

Decimal integers with white space around them, a sign, leading zeros and single underscores between
digits.  Two readers differ in the digits they know and in whether a zero fraction is allowed.
-/

namespace DecoratorVeil.Text.Integer

def asciiDigit? (c : Char) : Option Nat :=
  if c.isDigit then some (c.toNat - '0'.toNat) else none

/-- The zeros of the decimal digits of all scripts; the other nine digits follow each zero. -/
def zeros : List Nat :=
  [0x30, 0x660, 0x6F0, 0x7C0, 0x966, 0x9E6, 0xA66, 0xAE6, 0xB66, 0xBE6, 0xC66, 0xCE6, 0xD66, 0xDE6,
    0xE50, 0xED0, 0xF20, 0x1040, 0x1090, 0x17E0, 0x1810, 0x1946, 0x19D0, 0x1A80, 0x1A90, 0x1B50,
    0x1BB0, 0x1C40, 0x1C50, 0xA620, 0xA8D0, 0xA900, 0xA9D0, 0xA9F0, 0xAA50, 0xABF0, 0xFF10, 0x104A0,
    0x10D30, 0x11066, 0x110F0, 0x11136, 0x111D0, 0x112F0, 0x11450, 0x114D0, 0x11650, 0x116C0,
    0x11730, 0x118E0, 0x11950, 0x11C50, 0x11D50, 0x11DA0, 0x16A60, 0x16AC0, 0x16B50, 0x1D7CE,
    0x1D7D8, 0x1D7E2, 0x1D7EC, 0x1D7F6, 0x1E140, 0x1E2F0, 0x1E950, 0x1FBF0]

def anyDigit? (c : Char) : Option Nat :=
  (zeros.find? (fun base => base ≤ c.toNat && c.toNat ≤ base + 9)).map (c.toNat - ·)

/-- Reads digits after a first one; an underscore stands between two digits. -/
def moreDigits? (digit? : Char → Option Nat) (value : Nat) : List Char → Option Nat
  | [] => some value
  | '_' :: c :: rest =>
    match digit? c with
    | some d => moreDigits? digit? (value * 10 + d) rest
    | none => none
  | c :: rest =>
    match digit? c with
    | some d => moreDigits? digit? (value * 10 + d) rest
    | none => none

def natural? (digit? : Char → Option Nat) : List Char → Option Nat
  | [] => none
  | c :: rest =>
    match digit? c with
    | some d => moreDigits? digit? d rest
    | none => none

def signed? (digit? : Char → Option Nat) : List Char → Option Int
  | '+' :: rest => (natural? digit? rest).map Int.ofNat
  | '-' :: rest => (natural? digit? rest).map (- Int.ofNat ·)
  | text => (natural? digit? text).map Int.ofNat

/-- More digits than this are not read. -/
def digitLimit : Nat := 4300

def ofAnyScript? (text : List Char) : Option Int :=
  let stripped := stripWhile isWhiteSpace text
  if digitLimit < (stripped.filter (fun c => (anyDigit? c).isSome)).length then none
  else signed? anyDigit? stripped

/-- Drops a decimal point and the zeros after it. -/
def dropZeroFraction (text : List Char) : List Char :=
  let fraction := text.dropWhile (· != '.')
  if (fraction.drop 1).all (· == '0') then text.takeWhile (· != '.') else text

/-- Drops the zeros in front of a number, and underscores between them, but not the last digit. -/
def dropLeadingZeros (text : List Char) : List Char :=
  if text.head? == some '0' then
    let zeros := text.takeWhile (fun c => c == '0' || c == '_')
    match text.dropWhile (fun c => c == '0' || c == '_') with
    | [] => zeros.getLast?.toList
    | '.' :: fraction => zeros.getLast?.toList ++ '.' :: fraction
    | rest => rest
  else text

def ofAscii? (text : List Char) : Option Int :=
  match stripWhile isWhiteSpace text with
  | '-' :: rest => (natural? asciiDigit? (dropZeroFraction rest)).map (- Int.ofNat ·)
  | '+' :: rest => positive rest
  | rest => positive rest
where
  positive (rest : List Char) : Option Int :=
    (natural? asciiDigit? (dropZeroFraction (dropLeadingZeros rest))).map Int.ofNat

end DecoratorVeil.Text.Integer
