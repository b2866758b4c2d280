import DecoratorVeil.Declaration.OfSyntax
import DecoratorVeil.Proofs.Text.Decoding

/-!
# Character positions of byte offsets

Spans of nodes count bytes and ranges of decorators count characters.  An offset is turned into a
position by decoding the bytes before it, or is taken as it is where there are as many bytes as
characters.  Both ways agree up to the end of the text, so it is enough to look at the first.
-/

namespace DecoratorVeil.Declaration
open Syntax Text.Utf8

/-- The number of characters that the bytes before an offset decode to. -/
def decodedOffset (source : SourceText) (offset : Nat) : Except ConversionError Nat :=
  match decode? (source.bytes.take offset) with
  | some chars => .ok chars.length
  | none => .error .undecodable

theorem charOffset_eq (source : SourceText) (offset : Nat) :
    charOffset source offset =
      if source.chars.length = source.bytes.length then .ok offset
      else decodedOffset source offset := rfl

section Offsets

variable (code : String) {offset : Nat}

theorem decodedOffset_byteOffset {position : Nat} (h : position ≤ code.toList.length) :
    decodedOffset (.ofString code) (byteOffset code.toList position) = .ok position := by
  have htake : (SourceText.ofString code).bytes.take (byteOffset code.toList position) =
      encode (code.toList.take position) := take_byteOffset code.toList position
  rw [decodedOffset, htake, decode?_encode]
  simp [Nat.min_eq_left h]

theorem decodedOffset_of_inside (h : Inside code.toList offset) :
    decodedOffset (.ofString code) offset = .error .undecodable := by
  have hnone : decode? ((SourceText.ofString code).bytes.take offset) = none := h.decode?_take
  rw [decodedOffset, hnone]

/-- Taking an offset as it is and decoding the bytes before it come to the same, up to the end of
the text. -/
theorem charOffset_eq_decodedOffset (h : offset ≤ (Text.Utf8.bytesOf code).length) :
    charOffset (.ofString code) offset = decodedOffset (.ofString code) offset := by
  rw [charOffset_eq]
  split_ifs with hlength
  · have hle : offset ≤ code.toList.length := Nat.le_trans h (Nat.le_of_eq hlength.symm)
    have hdecoded := decodedOffset_byteOffset code hle
    rw [byteOffset_eq_self code.toList hlength hle] at hdecoded
    exact hdecoded.symm
  · rfl

/-- A boundary becomes its character position. -/
theorem charOffset_byteOffset {position : Nat} (h : position ≤ code.toList.length) :
    charOffset (.ofString code) (byteOffset code.toList position) = .ok position := by
  have hle : byteOffset code.toList position ≤ (Text.Utf8.bytesOf code).length :=
    Boundary.le_length ⟨position, h, rfl⟩
  rw [charOffset_eq_decodedOffset code hle, decodedOffset_byteOffset code h]

theorem charOffset_of_inside (h : Inside code.toList offset) :
    charOffset (.ofString code) offset = .error .undecodable := by
  rw [charOffset_eq_decodedOffset code h.le_length, decodedOffset_of_inside code h]

theorem exists_charOffset (h : Boundary code.toList offset) :
    ∃ position ≤ code.toList.length, charOffset (.ofString code) offset = .ok position ∧
      offset = byteOffset code.toList position := by
  obtain ⟨position, hposition, rfl⟩ := h
  exact ⟨position, hposition, charOffset_byteOffset code hposition, rfl⟩

variable {code} in
/-- A span between boundaries becomes the range of their positions. -/
theorem rangeOf_of_byteOffset {node : Node} {start stop : Nat} (hstart : start ≤ code.toList.length)
    (hstop : stop ≤ code.toList.length) (hfirst : node.start = byteOffset code.toList start)
    (hlast : node.stop = byteOffset code.toList stop) :
    rangeOf (.ofString code) node = .ok ⟨start, stop⟩ := by
  rw [rangeOf, hfirst, hlast, charOffset_byteOffset code hstart, charOffset_byteOffset code hstop]
  rfl

end Offsets

/-- How the byte offsets of a text and its character positions correspond. -/
structure ExactOffsets (code : String) : Prop where
  /-- The offsets without a position are those inside characters. -/
  undecodable_iff : ∀ offset ≤ (Text.Utf8.bytesOf code).length,
    charOffset (.ofString code) offset = .error .undecodable ↔ Inside code.toList offset
  /-- Every other offset has a position, the only one with the same bytes before it. -/
  position : ∀ offset ≤ (Text.Utf8.bytesOf code).length, ¬ Inside code.toList offset →
    ∃ position ≤ code.toList.length, charOffset (.ofString code) offset = .ok position ∧
      ∀ i ≤ code.toList.length,
        encode (code.toList.take i) = (Text.Utf8.bytesOf code).take offset ↔ i = position
  /-- The texts whose offsets are taken as they are. -/
  ascii_iff : code.toList.length = (Text.Utf8.bytesOf code).length ↔
    ∀ c ∈ code.toList, c.toNat < 0x80
  /-- In these, decoding gives the same positions. -/
  ascii : code.toList.length = (Text.Utf8.bytesOf code).length →
    ∀ offset ≤ (Text.Utf8.bytesOf code).length,
      charOffset (.ofString code) offset = .ok offset ∧
        decodedOffset (.ofString code) offset = .ok offset
  strictMono : ∀ first second, Boundary code.toList first → Boundary code.toList second →
    first < second → ∃ i j, charOffset (.ofString code) first = .ok i ∧
      charOffset (.ofString code) second = .ok j ∧ i < j
  /-- The characters of the range of a node encode to the bytes of its span. -/
  slice : ∀ node : Node, Boundary code.toList node.start → Boundary code.toList node.stop →
    node.start ≤ node.stop → ∃ i j : Nat, i ≤ j ∧ j ≤ code.toList.length ∧
      rangeOf (.ofString code) node = .ok ⟨i, j⟩ ∧
      encode ((code.toList.drop i).take (j - i)) =
        ((Text.Utf8.bytesOf code).drop node.start).take (node.stop - node.start)

theorem charOffset_exact (code : String) : ExactOffsets code where
  undecodable_iff := by
    intro offset h
    constructor
    · intro herror
      by_contra hinside
      obtain ⟨position, -, hposition, -⟩ :=
        exists_charOffset code ((boundary_iff_not_inside h).2 hinside)
      rw [hposition] at herror
      cases herror
    · exact charOffset_of_inside code
  position := by
    intro offset h hinside
    obtain ⟨position, hposition, hoffset, heq⟩ :=
      exists_charOffset code ((boundary_iff_not_inside h).2 hinside)
    refine ⟨position, hposition, hoffset, fun i hi => ?_⟩
    rw [Text.Utf8.bytesOf, encode_take_eq_iff h, heq, byteOffset_inj hposition hi, eq_comm]
  ascii_iff := length_eq_length_encode_iff code.toList
  ascii := by
    intro hlength offset h
    have hoffset : charOffset (.ofString code) offset = .ok offset := by
      rw [charOffset_eq]
      exact if_pos hlength
    exact ⟨hoffset, (charOffset_eq_decodedOffset code h).symm.trans hoffset⟩
  strictMono := by
    intro first second hfirst hsecond hlt
    obtain ⟨i, hi, hcharsi, rfl⟩ := exists_charOffset code hfirst
    obtain ⟨j, hj, hcharsj, rfl⟩ := exists_charOffset code hsecond
    refine ⟨i, j, hcharsi, hcharsj, ?_⟩
    by_contra hle
    have := (byteOffset_le_byteOffset_iff code.toList hj hi).2 (Nat.le_of_not_lt hle)
    omega
  slice := by
    rintro node ⟨i, hi, hfirst⟩ ⟨j, hj, hlast⟩ hle
    have hij : i ≤ j := by
      rwa [hfirst, hlast, byteOffset_le_byteOffset_iff code.toList hi hj] at hle
    refine ⟨i, j, hij, hj, rangeOf_of_byteOffset hi hj hfirst hlast, ?_⟩
    rw [hfirst, hlast]
    exact encode_slice code.toList hij

def mixedWidths : String := "@é→𝄞"

/-- Offset 8 cuts the last character, which starts at offset 6; the second and third character have
the bytes from 1 to 6.  In a text of ASCII the position is the offset. -/
theorem charOffset_exact_mixed_widths :
    (Inside mixedWidths.toList 8 ∧ charOffset (.ofString mixedWidths) 8 = .error .undecodable) ∧
    (¬ Inside mixedWidths.toList 6 ∧ charOffset (.ofString mixedWidths) 6 = .ok 3) ∧
    (∃ i j : Nat, rangeOf (.ofString mixedWidths) (.branch "decorator" 1 6 []) = .ok ⟨i, j⟩ ∧
      encode ((mixedWidths.toList.drop i).take (j - i)) = encode ['é', '→']) ∧
    decodedOffset (.ofString "@a enum E {}") 3 = .ok 3 := by
  have hexact := charOffset_exact mixedWidths
  have hinside : Inside mixedWidths.toList 8 :=
    ⟨['@', 'é', '→'], '𝄞', [], by decide, by decide, by decide⟩
  have houtside : ¬ Inside mixedWidths.toList 6 :=
    (boundary_iff_not_inside (by decide)).1 ⟨3, by decide, by decide⟩
  obtain ⟨position, -, hoffset, honly⟩ := hexact.position 6 (by decide) houtside
  obtain rfl : 3 = position := (honly 3 (by decide)).1 (by decide)
  obtain ⟨i, j, -, -, hrange, hslice⟩ := hexact.slice (.branch "decorator" 1 6 [])
    ⟨1, by decide, by decide⟩ ⟨3, by decide, by decide⟩ (by decide)
  exact ⟨⟨hinside, (hexact.undecodable_iff 8 (by decide)).2 hinside⟩, ⟨houtside, hoffset⟩,
    ⟨i, j, hrange, hslice.trans (by decide)⟩,
    ((charOffset_exact "@a enum E {}").ascii (by decide) 3 (by decide)).2⟩

end DecoratorVeil.Declaration
