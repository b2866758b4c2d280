/-!
# UTF-8

Texts as byte sequences.  Encoding writes the bytes of each character in turn.  Strict decoding
refuses ill-formed bytes; lossy decoding puts one replacement character in place of every longest
prefix of a character that is not continued.
-/

namespace DecoratorVeil.Text.Utf8

def encode (text : List Char) : List UInt8 :=
  text.flatMap String.utf8EncodeChar

def bytesOf (text : String) : List UInt8 := encode text.toList

theorem encode_append (a b : List Char) : encode (a ++ b) = encode a ++ encode b := by
  simp [encode]

/-- What a leading byte announces: the number of bytes that follow, the bits it carries itself, and
the bounds of the byte after it. -/
structure Lead where
  count : Nat
  bits : Nat
  low : Nat
  high : Nat

/-- The leading bytes of characters of two, three and four bytes.  The bounds shut out overlong
forms, surrogates and values past the last code point. -/
def lead? (b : Nat) : Option Lead :=
  if 0xC2 ≤ b ∧ b ≤ 0xDF then some ⟨1, b - 0xC0, 0x80, 0xBF⟩
  else if b = 0xE0 then some ⟨2, 0, 0xA0, 0xBF⟩
  else if b = 0xED then some ⟨2, 0xD, 0x80, 0x9F⟩
  else if 0xE1 ≤ b ∧ b ≤ 0xEF then some ⟨2, b - 0xE0, 0x80, 0xBF⟩
  else if b = 0xF0 then some ⟨3, 0, 0x90, 0xBF⟩
  else if 0xF1 ≤ b ∧ b ≤ 0xF3 then some ⟨3, b - 0xF0, 0x80, 0xBF⟩
  else if b = 0xF4 then some ⟨3, 4, 0x80, 0x8F⟩
  else none

/-- Takes the given number of continuing bytes, the first of them between the bounds, and adds their
bits to the value.  Stops in front of the first byte that does not fit. -/
def continuation : Nat → Nat → Nat → Nat → List UInt8 → Option Nat × List UInt8
  | 0, _, _, value, rest => (some value, rest)
  | _ + 1, _, _, _, [] => (none, [])
  | n + 1, low, high, value, b :: rest =>
    if low ≤ b.toNat ∧ b.toNat ≤ high then
      continuation n 0x80 0xBF (value * 64 + (b.toNat - 0x80)) rest
    else (none, b :: rest)

/-- The first character of the bytes, or none for an ill-formed one, and what follows it. -/
def front (b : UInt8) (rest : List UInt8) : Option Char × List UInt8 :=
  if b.toNat < 0x80 then (some (Char.ofNat b.toNat), rest)
  else
    match lead? b.toNat with
    | none => (none, rest)
    | some lead =>
      let (value, after) := continuation lead.count lead.low lead.high lead.bits rest
      (value.map Char.ofNat, after)

theorem length_continuation_le (n low high value : Nat) (rest : List UInt8) :
    (continuation n low high value rest).2.length ≤ rest.length := by
  fun_induction continuation n low high value rest with
  | case1 => simp
  | case2 => simp
  | case3 n low high value b rest h ih => exact Nat.le_succ_of_le ih
  | case4 => simp

theorem length_front_le (b : UInt8) (rest : List UInt8) :
    (front b rest).2.length ≤ rest.length := by
  unfold front
  split
  · simp
  · split
    · simp
    · exact length_continuation_le ..

def decode? : List UInt8 → Option (List Char)
  | [] => some []
  | b :: rest =>
    match h : front b rest with
    | (none, _) => none
    | (some c, after) =>
      have : after.length ≤ rest.length := by
        have := length_front_le b rest
        rwa [h] at this
      (decode? after).map (c :: ·)
termination_by bytes => bytes.length

def replacement : Char := '\uFFFD'

def decodeLossy : List UInt8 → List Char
  | [] => []
  | b :: rest =>
    have := length_front_le b rest
    ((front b rest).1.getD replacement) :: decodeLossy (front b rest).2
termination_by bytes => bytes.length

end DecoratorVeil.Text.Utf8
