import DecoratorVeil.Text.Utf8
import Mathlib.Tactic.Common

/-!
# Decoding what was encoded

Strict decoding reads back the bytes of every text.  Byte offsets at character boundaries then
stand for character positions, and cutting the bytes there cuts the text.
-/

namespace DecoratorVeil.Text.Utf8

theorem toNat_ofNat_of_lt {n : Nat} (h : n < 256) : (UInt8.ofNat n).toNat = n := by
  rw [UInt8.toNat_ofNat']
  exact Nat.mod_eq_of_lt h

/-- One continuing byte that fits adds its six bits. -/
theorem continuation_ofNat {n low high value m : Nat} (rest : List UInt8) (h : m < 64)
    (hlow : low ≤ m + 0x80) (hhigh : m + 0x80 ≤ high) :
    continuation (n + 1) low high value (UInt8.ofNat (m + 0x80) :: rest) =
      continuation n 0x80 0xBF (value * 64 + m) rest := by
  have hb : (UInt8.ofNat (m + 0x80)).toNat = m + 0x80 := toNat_ofNat_of_lt (by omega)
  rw [continuation, hb, if_pos ⟨hlow, hhigh⟩, Nat.add_sub_cancel]

theorem front_of_lead {b : Nat} {lead : Lead} (rest : List UInt8) (hb : 0x80 ≤ b)
    (hlt : b < 256) (hlead : lead? b = some lead) :
    front (UInt8.ofNat b) rest =
      ((continuation lead.count lead.low lead.high lead.bits rest).1.map Char.ofNat,
        (continuation lead.count lead.low lead.high lead.bits rest).2) := by
  rw [front, toNat_ofNat_of_lt hlt, if_neg (by omega), hlead]

section Lead

variable {v : Nat}

theorem front_two (rest : List UInt8) (hlow : 0x7f < v) (hhigh : v ≤ 0x7ff) :
    front (UInt8.ofNat (v / 64 % 0x20 + 0xc0)) (UInt8.ofNat (v % 0x40 + 0x80) :: rest) =
      (some (Char.ofNat v), rest) := by
  have hlead : lead? (v / 64 % 0x20 + 0xc0) = some ⟨1, v / 64, 0x80, 0xBF⟩ := by
    rw [lead?, if_pos (by omega), show v / 64 % 0x20 + 0xc0 - 0xC0 = v / 64 by omega]
  rw [front_of_lead _ (by omega) (by omega) hlead]
  simp only
  rw [continuation_ofNat _ (by omega) (by omega) (by omega), continuation,
    show v / 64 * 64 + v % 0x40 = v by omega]
  rfl

/-- The bounds of the second byte leave out overlong forms and surrogates. -/
theorem lead?_three (hlow : 0x7ff < v) (hhigh : v ≤ 0xffff) (hvalid : v < 0xd800 ∨ 0xdfff < v) :
    ∃ low high, lead? (v / 4096 % 0x10 + 0xe0) = some ⟨2, v / 4096, low, high⟩ ∧
      low ≤ v / 64 % 0x40 + 0x80 ∧ v / 64 % 0x40 + 0x80 ≤ high := by
  unfold lead?
  split_ifs
  · omega
  · exact ⟨0xA0, 0xBF, by rw [show v / 4096 = 0 by omega], by omega, by omega⟩
  · exact ⟨0x80, 0x9F, by rw [show v / 4096 = 0xD by omega], by omega, by omega⟩
  · exact ⟨0x80, 0xBF, by rw [show v / 4096 % 0x10 + 0xe0 - 0xE0 = v / 4096 by omega], by omega,
      by omega⟩
  all_goals omega

theorem front_three (rest : List UInt8) (hlow : 0x7ff < v) (hhigh : v ≤ 0xffff)
    (hvalid : v < 0xd800 ∨ 0xdfff < v) :
    front (UInt8.ofNat (v / 4096 % 0x10 + 0xe0)) (UInt8.ofNat (v / 64 % 0x40 + 0x80) ::
      UInt8.ofNat (v % 0x40 + 0x80) :: rest) = (some (Char.ofNat v), rest) := by
  obtain ⟨low, high, hlead, hl, hh⟩ := lead?_three hlow hhigh hvalid
  rw [front_of_lead _ (by omega) (by omega) hlead]
  simp only
  rw [continuation_ofNat _ (by omega) hl hh, continuation_ofNat _ (by omega) (by omega) (by omega),
    continuation, show (v / 4096 * 64 + v / 64 % 0x40) * 64 + v % 0x40 = v by omega]
  rfl

/-- The bounds of the second byte leave out overlong forms and values past the last character. -/
theorem lead?_four (hlow : 0xffff < v) (hhigh : v < 0x110000) :
    ∃ low high, lead? (v / 262144 % 0x08 + 0xf0) = some ⟨3, v / 262144, low, high⟩ ∧
      low ≤ v / 4096 % 0x40 + 0x80 ∧ v / 4096 % 0x40 + 0x80 ≤ high := by
  unfold lead?
  split_ifs
  · omega
  · omega
  · omega
  · omega
  · exact ⟨0x90, 0xBF, by rw [show v / 262144 = 0 by omega], by omega, by omega⟩
  · exact ⟨0x80, 0xBF, by rw [show v / 262144 % 0x08 + 0xf0 - 0xF0 = v / 262144 by omega], by omega,
      by omega⟩
  · exact ⟨0x80, 0x8F, by rw [show v / 262144 = 4 by omega], by omega, by omega⟩
  · omega

theorem front_four (rest : List UInt8) (hlow : 0xffff < v) (hhigh : v < 0x110000) :
    front (UInt8.ofNat (v / 262144 % 0x08 + 0xf0)) (UInt8.ofNat (v / 4096 % 0x40 + 0x80) ::
      UInt8.ofNat (v / 64 % 0x40 + 0x80) :: UInt8.ofNat (v % 0x40 + 0x80) :: rest) =
        (some (Char.ofNat v), rest) := by
  obtain ⟨low, high, hlead, hl, hh⟩ := lead?_four hlow hhigh
  rw [front_of_lead _ (by omega) (by omega) hlead]
  simp only
  rw [continuation_ofNat _ (by omega) hl hh, continuation_ofNat _ (by omega) (by omega) (by omega),
    continuation_ofNat _ (by omega) (by omega) (by omega), continuation,
    show ((v / 262144 * 64 + v / 4096 % 0x40) * 64 + v / 64 % 0x40) * 64 + v % 0x40 = v by omega]
  rfl

end Lead

/-- The bytes of a character are read back, whatever follows them. -/
theorem decode?_encodeChar_append (c : Char) (rest : List UInt8) :
    decode? (String.utf8EncodeChar c ++ rest) = (decode? rest).map (c :: ·) := by
  have hstep {b : UInt8} {bs : List UInt8} (h : front b (bs ++ rest) = (some c, rest)) :
      decode? (b :: bs ++ rest) = (decode? rest).map (c :: ·) := by
    rw [List.cons_append, decode?]
    split
    · simp_all
    · simp_all
  have hvalid : c.val.toNat < 0xd800 ∨ 0xdfff < c.val.toNat ∧ c.val.toNat < 0x110000 := c.valid
  have hc : Char.ofNat c.val.toNat = c := Char.ofNat_toNat c
  rw [String.utf8EncodeChar]
  generalize c.val.toNat = v at hvalid hc
  split_ifs with h1 h2 h3
  · apply hstep
    rw [List.nil_append, front, toNat_ofNat_of_lt (by omega), if_pos (by omega), hc]
  · exact hstep (hc ▸ front_two rest (by omega) h2)
  · exact hstep (hc ▸ front_three rest (by omega) h3 (by omega))
  · exact hstep (hc ▸ front_four rest (by omega) (by omega))

theorem encode_cons (c : Char) (text : List Char) :
    encode (c :: text) = String.utf8EncodeChar c ++ encode text := by
  simp [encode]

theorem decode?_encode (text : List Char) : decode? (encode text) = some text := by
  induction text with
  | nil => simp [encode, decode?]
  | cons c text ih => rw [encode_cons, decode?_encodeChar_append, ih, Option.map_some]

/-- Different texts have different bytes. -/
theorem encode_inj {a b : List Char} : encode a = encode b ↔ a = b := by
  constructor
  · intro h
    have hdecoded := congrArg decode? h
    rw [decode?_encode, decode?_encode] at hdecoded
    exact Option.some.inj hdecoded
  · exact congrArg encode

/-- Nothing is replaced in bytes that are well formed. -/
theorem decodeLossy_of_decode? {bytes : List UInt8} {text : List Char}
    (h : decode? bytes = some text) : decodeLossy bytes = text := by
  fun_induction decode? bytes generalizing text with
  | case1 => simpa [decodeLossy] using h
  | case2 => cases h
  | case3 b rest c after hfront _ ih =>
    obtain ⟨later, hlater, rfl⟩ := Option.map_eq_some_iff.1 h
    rw [decodeLossy, hfront, ih hlater]
    rfl

theorem decodeLossy_encode (text : List Char) : decodeLossy (encode text) = text :=
  decodeLossy_of_decode? (decode?_encode text)

def byteOffset (text : List Char) (position : Nat) : Nat :=
  (encode (text.take position)).length

/-- A byte offset in front of a character or at the end. -/
def Boundary (text : List Char) (offset : Nat) : Prop :=
  ∃ position ≤ text.length, offset = byteOffset text position

instance (text : List Char) (offset : Nat) : Decidable (Boundary text offset) :=
  decidable_of_iff (∃ position < text.length + 1, offset = byteOffset text position)
    (by simp only [Boundary, Nat.lt_succ_iff])

section Offsets

variable (text : List Char)

theorem encode_split (position : Nat) :
    encode text = encode (text.take position) ++ encode (text.drop position) := by
  rw [← encode_append, List.take_append_drop]

theorem take_byteOffset (position : Nat) :
    (encode text).take (byteOffset text position) = encode (text.take position) := by
  rw [encode_split text position, byteOffset, List.take_left]

theorem drop_byteOffset (position : Nat) :
    (encode text).drop (byteOffset text position) = encode (text.drop position) := by
  rw [encode_split text position, byteOffset, List.drop_left]

theorem byteOffset_add (i j : Nat) :
    byteOffset text (i + j) = byteOffset text i + byteOffset (text.drop i) j := by
  rw [byteOffset, List.take_add, encode_append, List.length_append, byteOffset, byteOffset]

/-- Cutting the bytes at boundaries cuts the text. -/
theorem encode_slice {i j : Nat} (h : i ≤ j) :
    encode ((text.drop i).take (j - i)) =
      ((encode text).drop (byteOffset text i)).take (byteOffset text j - byteOffset text i) := by
  obtain ⟨k, rfl⟩ := Nat.exists_eq_add_of_le h
  rw [drop_byteOffset, byteOffset_add, Nat.add_sub_cancel_left, Nat.add_sub_cancel_left,
    take_byteOffset]

theorem length_le_length_encode : text.length ≤ (encode text).length := by
  induction text with
  | nil => exact Nat.zero_le _
  | cons c text ih =>
    have hc : 0 < (String.utf8EncodeChar c).length :=
      List.length_pos_iff.2 String.utf8EncodeChar_ne_nil
    rw [encode_cons, List.length_append, List.length_cons]
    omega

theorem byteOffset_lt_byteOffset {i j : Nat} (h : i < j) (hj : j ≤ text.length) :
    byteOffset text i < byteOffset text j := by
  obtain ⟨k, rfl⟩ := Nat.exists_eq_add_of_le (Nat.le_of_lt h)
  have hslice := length_le_length_encode ((text.drop i).take k)
  rw [List.length_take, List.length_drop] at hslice
  rw [byteOffset_add, byteOffset]
  rw [byteOffset]
  omega

theorem byteOffset_le_byteOffset_iff {i j : Nat} (hi : i ≤ text.length) (hj : j ≤ text.length) :
    byteOffset text i ≤ byteOffset text j ↔ i ≤ j := by
  constructor
  · intro hle
    by_contra hlt
    exact absurd (byteOffset_lt_byteOffset text (by omega : j < i) hi) (by omega)
  · intro hle
    rcases Nat.lt_or_eq_of_le hle with hlt | rfl
    · exact Nat.le_of_lt (byteOffset_lt_byteOffset text hlt hj)
    · exact Nat.le_refl _

/-- Where there are as many bytes as characters, offsets and positions are the same. -/
theorem byteOffset_eq_self {position : Nat} (hlength : text.length = (encode text).length)
    (h : position ≤ text.length) : byteOffset text position = position := by
  have hfront := length_le_length_encode (text.take position)
  have hback := length_le_length_encode (text.drop position)
  have hsum := congrArg List.length (encode_split text position)
  rw [List.length_append] at hsum
  rw [List.length_take, Nat.min_eq_left h] at hfront
  rw [List.length_drop] at hback
  rw [byteOffset]
  omega

end Offsets

end DecoratorVeil.Text.Utf8
