import DecoratorVeil.Proofs.Text.Utf8

/-!
# Bytes that decode

Strict decoding accepts the bytes of texts and nothing else: the bounds on the second byte of a
character leave no other way to spell it.  So the bytes before an offset decode exactly if the
offset lies between two characters, and then to the text before it.
-/

namespace DecoratorVeil.Text.Utf8

section Characters

theorem encodeChar_ofNat {v : Nat} (h : v.isValidChar) :
    String.utf8EncodeChar (Char.ofNat v) =
      if v ≤ 0x7f then [UInt8.ofNat v]
      else if v ≤ 0x7ff then
        [UInt8.ofNat (v / 64 % 0x20 + 0xc0), UInt8.ofNat (v % 0x40 + 0x80)]
      else if v ≤ 0xffff then
        [UInt8.ofNat (v / 4096 % 0x10 + 0xe0), UInt8.ofNat (v / 64 % 0x40 + 0x80),
          UInt8.ofNat (v % 0x40 + 0x80)]
      else
        [UInt8.ofNat (v / 262144 % 0x08 + 0xf0), UInt8.ofNat (v / 4096 % 0x40 + 0x80),
          UInt8.ofNat (v / 64 % 0x40 + 0x80), UInt8.ofNat (v % 0x40 + 0x80)] := by
  have hv : (Char.ofNat v).val.toNat = v := by
    rw [Char.ofNat, dif_pos h]
    rfl
  rw [String.utf8EncodeChar, hv]

theorem ofNat_eq_of_toNat {n : Nat} {b : UInt8} (h : n = b.toNat) : UInt8.ofNat n = b := by
  rw [h, UInt8.ofNat_toNat]

variable {b₁ b₂ b₃ b₄ : UInt8}

theorem encodeChar_of_two (h₁ : 0xC2 ≤ b₁.toNat ∧ b₁.toNat ≤ 0xDF)
    (h₂ : 0x80 ≤ b₂.toNat ∧ b₂.toNat ≤ 0xBF) :
    String.utf8EncodeChar (Char.ofNat ((b₁.toNat - 0xC0) * 64 + (b₂.toNat - 0x80))) =
      [b₁, b₂] := by
  generalize hv : (b₁.toNat - 0xC0) * 64 + (b₂.toNat - 0x80) = v
  rw [encodeChar_ofNat (.inl (by omega)), if_neg (by omega), if_pos (by omega),
    @ofNat_eq_of_toNat _ b₁ (by omega), @ofNat_eq_of_toNat _ b₂ (by omega)]

theorem encodeChar_of_three (h₁ : 0xE0 ≤ b₁.toNat ∧ b₁.toNat ≤ 0xEF)
    (h₂ : 0x80 ≤ b₂.toNat ∧ b₂.toNat ≤ 0xBF) (h₃ : 0x80 ≤ b₃.toNat ∧ b₃.toNat ≤ 0xBF)
    (hlong : b₁.toNat = 0xE0 → 0xA0 ≤ b₂.toNat) (hsurrogate : b₁.toNat = 0xED → b₂.toNat ≤ 0x9F) :
    String.utf8EncodeChar (Char.ofNat
      (((b₁.toNat - 0xE0) * 64 + (b₂.toNat - 0x80)) * 64 + (b₃.toNat - 0x80))) = [b₁, b₂, b₃] := by
  generalize hv : ((b₁.toNat - 0xE0) * 64 + (b₂.toNat - 0x80)) * 64 + (b₃.toNat - 0x80) = v
  have hvalid : v.isValidChar := by
    unfold Nat.isValidChar
    omega
  rw [encodeChar_ofNat hvalid, if_neg (by omega), if_neg (by omega), if_pos (by omega),
    @ofNat_eq_of_toNat _ b₁ (by omega), @ofNat_eq_of_toNat _ b₂ (by omega),
    @ofNat_eq_of_toNat _ b₃ (by omega)]

theorem encodeChar_of_four (h₁ : 0xF0 ≤ b₁.toNat ∧ b₁.toNat ≤ 0xF4)
    (h₂ : 0x80 ≤ b₂.toNat ∧ b₂.toNat ≤ 0xBF) (h₃ : 0x80 ≤ b₃.toNat ∧ b₃.toNat ≤ 0xBF)
    (h₄ : 0x80 ≤ b₄.toNat ∧ b₄.toNat ≤ 0xBF) (hlong : b₁.toNat = 0xF0 → 0x90 ≤ b₂.toNat)
    (hlast : b₁.toNat = 0xF4 → b₂.toNat ≤ 0x8F) :
    String.utf8EncodeChar (Char.ofNat ((((b₁.toNat - 0xF0) * 64 + (b₂.toNat - 0x80)) * 64 +
      (b₃.toNat - 0x80)) * 64 + (b₄.toNat - 0x80))) = [b₁, b₂, b₃, b₄] := by
  generalize hv : (((b₁.toNat - 0xF0) * 64 + (b₂.toNat - 0x80)) * 64 + (b₃.toNat - 0x80)) * 64 +
    (b₄.toNat - 0x80) = v
  rw [encodeChar_ofNat (.inr (by omega)), if_neg (by omega), if_neg (by omega), if_neg (by omega),
    @ofNat_eq_of_toNat _ b₁ (by omega), @ofNat_eq_of_toNat _ b₂ (by omega),
    @ofNat_eq_of_toNat _ b₃ (by omega), @ofNat_eq_of_toNat _ b₄ (by omega)]

end Characters

/-- A continuation that is complete starts with a byte between the bounds. -/
theorem exists_of_continuation {n low high value v : Nat} {rest after : List UInt8}
    (h : continuation (n + 1) low high value rest = (some v, after)) :
    ∃ b later, rest = b :: later ∧ (low ≤ b.toNat ∧ b.toNat ≤ high) ∧
      continuation n 0x80 0xBF (value * 64 + (b.toNat - 0x80)) later = (some v, after) := by
  cases rest with
  | nil => cases h
  | cons b later =>
    rw [continuation] at h
    split_ifs at h with hbounds
    · exact ⟨b, later, rfl, hbounds, h⟩
    · cases h

theorem eq_of_continuation_zero {low high value v : Nat} {rest after : List UInt8}
    (h : continuation 0 low high value rest = (some v, after)) : value = v ∧ rest = after := by
  cases h
  exact ⟨rfl, rfl⟩

/-- A leading byte announces a character of two, three or four bytes. -/
theorem lead?_cases {b : Nat} {lead : Lead} (h : lead? b = some lead) :
    ((0xC2 ≤ b ∧ b ≤ 0xDF) ∧ lead = ⟨1, b - 0xC0, 0x80, 0xBF⟩) ∨
    ((0xE0 ≤ b ∧ b ≤ 0xEF) ∧ ∃ low high, lead = ⟨2, b - 0xE0, low, high⟩ ∧ 0x80 ≤ low ∧
      high ≤ 0xBF ∧ (b = 0xE0 → 0xA0 ≤ low) ∧ (b = 0xED → high ≤ 0x9F)) ∨
    ((0xF0 ≤ b ∧ b ≤ 0xF4) ∧ ∃ low high, lead = ⟨3, b - 0xF0, low, high⟩ ∧ 0x80 ≤ low ∧
      high ≤ 0xBF ∧ (b = 0xF0 → 0x90 ≤ low) ∧ (b = 0xF4 → high ≤ 0x8F)) := by
  unfold lead? at h
  split_ifs at h with htwo hlong hsurrogate hthree hlonger hfour hlast <;> cases h
  · exact .inl ⟨htwo, rfl⟩
  · exact .inr (.inl ⟨by omega, _, _, by rw [hlong], by omega⟩)
  · exact .inr (.inl ⟨by omega, _, _, by rw [hsurrogate], by omega⟩)
  · exact .inr (.inl ⟨by omega, _, _, rfl, by omega⟩)
  · exact .inr (.inr ⟨by omega, _, _, by rw [hlonger], by omega⟩)
  · exact .inr (.inr ⟨by omega, _, _, rfl, by omega⟩)
  · exact .inr (.inr ⟨by omega, _, _, by rw [hlast], by omega⟩)

/-- A character that is read is encoded by the bytes it was read from. -/
theorem eq_encodeChar_of_front {b : UInt8} {rest after : List UInt8} {c : Char}
    (h : front b rest = (some c, after)) : b :: rest = String.utf8EncodeChar c ++ after := by
  unfold front at h
  split_ifs at h with hascii
  · cases h
    rw [encodeChar_ofNat (.inl (by omega)), if_pos (by omega), UInt8.ofNat_toNat]
    rfl
  · split at h
    · cases h
    · rename_i lead hlead
      simp only [Prod.mk.injEq, Option.map_eq_some_iff] at h
      obtain ⟨⟨v, hvalue, rfl⟩, hafter⟩ := h
      have hread : continuation lead.count lead.low lead.high lead.bits rest = (some v, after) :=
        Prod.ext hvalue hafter
      rcases lead?_cases hlead with ⟨h₁, rfl⟩ | ⟨h₁, low, high, rfl, hlow, hhigh, hlong, hlast⟩ |
        ⟨h₁, low, high, rfl, hlow, hhigh, hlong, hlast⟩
      · obtain ⟨b₂, later, rfl, h₂, hread⟩ := exists_of_continuation hread
        obtain ⟨rfl, rfl⟩ := eq_of_continuation_zero hread
        rw [encodeChar_of_two h₁ h₂]
        rfl
      · dsimp only at hread
        obtain ⟨b₂, later, rfl, h₂, hread⟩ := exists_of_continuation hread
        obtain ⟨b₃, later, rfl, h₃, hread⟩ := exists_of_continuation hread
        obtain ⟨rfl, rfl⟩ := eq_of_continuation_zero hread
        rw [encodeChar_of_three h₁ (by omega) h₃ (by omega) (by omega)]
        rfl
      · dsimp only at hread
        obtain ⟨b₂, later, rfl, h₂, hread⟩ := exists_of_continuation hread
        obtain ⟨b₃, later, rfl, h₃, hread⟩ := exists_of_continuation hread
        obtain ⟨b₄, later, rfl, h₄, hread⟩ := exists_of_continuation hread
        obtain ⟨rfl, rfl⟩ := eq_of_continuation_zero hread
        rw [encodeChar_of_four h₁ (by omega) h₃ h₄ (by omega) (by omega)]
        rfl

/-- Bytes decode to a text exactly if the text encodes to them. -/
theorem decode?_eq_some_iff {bytes : List UInt8} {text : List Char} :
    decode? bytes = some text ↔ bytes = encode text := by
  constructor
  · intro h
    fun_induction decode? bytes generalizing text with
    | case1 =>
      cases h
      rfl
    | case2 => cases h
    | case3 b rest c after hfront _ ih =>
      obtain ⟨later, hlater, rfl⟩ := Option.map_eq_some_iff.1 h
      rw [eq_encodeChar_of_front hfront, ih hlater, encode_cons]
  · rintro rfl
    exact decode?_encode text

/-- The bytes of a text are read back, whatever follows them. -/
theorem decode?_encode_append (text : List Char) (rest : List UInt8) :
    decode? (encode text ++ rest) = (decode? rest).map (text ++ ·) := by
  induction text with
  | nil => exact Option.map_id'.symm
  | cons c text ih =>
    rw [encode_cons, List.append_assoc, decode?_encodeChar_append, ih, Option.map_map]
    rfl

/-! ## Offsets between and inside characters -/

/-- A byte offset behind the first byte of a character and in front of the next character. -/
def Inside (text : List Char) (offset : Nat) : Prop :=
  ∃ before c after, text = before ++ c :: after ∧ (encode before).length < offset ∧
    offset < (encode before).length + (String.utf8EncodeChar c).length

section Offsets

variable {text : List Char} {offset : Nat}

theorem Boundary.zero (text : List Char) : Boundary text 0 :=
  ⟨0, Nat.zero_le _, rfl⟩

theorem Boundary.cons (c : Char) (h : Boundary text offset) :
    Boundary (c :: text) ((String.utf8EncodeChar c).length + offset) := by
  obtain ⟨position, hposition, rfl⟩ := h
  refine ⟨position + 1, Nat.succ_le_succ hposition, ?_⟩
  rw [byteOffset, byteOffset, List.take_succ_cons, encode_cons, List.length_append]

theorem Inside.cons (c : Char) (h : Inside text offset) :
    Inside (c :: text) ((String.utf8EncodeChar c).length + offset) := by
  obtain ⟨before, d, after, rfl, hfirst, hlast⟩ := h
  refine ⟨c :: before, d, after, rfl, ?_, ?_⟩ <;> rw [encode_cons, List.length_append] <;> omega

theorem boundary_or_inside (h : offset ≤ (encode text).length) :
    Boundary text offset ∨ Inside text offset := by
  induction text generalizing offset with
  | nil =>
    obtain rfl : offset = 0 := Nat.le_zero.1 h
    exact .inl (.zero [])
  | cons c text ih =>
    rw [encode_cons, List.length_append] at h
    by_cases hfirst : offset < (String.utf8EncodeChar c).length
    · by_cases hzero : offset = 0
      · subst hzero
        exact .inl (.zero (c :: text))
      · exact .inr ⟨[], c, text, rfl, Nat.pos_of_ne_zero hzero, by simpa [encode] using hfirst⟩
    · obtain ⟨later, rfl⟩ := Nat.exists_eq_add_of_le (Nat.le_of_not_lt hfirst)
      exact (ih (by omega)).imp (Boundary.cons c) (Inside.cons c)

theorem Boundary.le_length (h : Boundary text offset) : offset ≤ (encode text).length := by
  obtain ⟨position, -, rfl⟩ := h
  rw [encode_split text position, byteOffset, List.length_append]
  exact Nat.le_add_right _ _

theorem Inside.le_length (h : Inside text offset) : offset ≤ (encode text).length := by
  obtain ⟨before, c, after, rfl, -, hlast⟩ := h
  rw [encode_append, encode_cons, List.length_append, List.length_append]
  omega

theorem Inside.not_boundary (h : Inside text offset) : ¬ Boundary text offset := by
  obtain ⟨before, c, after, rfl, hfirst, hlast⟩ := h
  rintro ⟨position, hposition, rfl⟩
  have hlength : before.length + 1 ≤ (before ++ c :: after).length := by simp
  have hstart : byteOffset (before ++ c :: after) before.length = (encode before).length := by
    rw [byteOffset, List.take_left]
  have hstop : byteOffset (before ++ c :: after) (before.length + 1) =
      (encode before).length + (String.utf8EncodeChar c).length := by
    rw [byteOffset_add, hstart, List.drop_left, byteOffset, List.take_succ_cons, List.take_zero,
      encode_cons, List.length_append]
    rfl
  -- No position fits between that of the character and the next one.
  rcases Nat.lt_or_ge before.length position with hlt | hge
  · have := (byteOffset_le_byteOffset_iff _ hlength hposition).2 hlt
    omega
  · have := (byteOffset_le_byteOffset_iff _ hposition (Nat.le_of_succ_le hlength)).2 hge
    omega

theorem boundary_iff_not_inside (h : offset ≤ (encode text).length) :
    Boundary text offset ↔ ¬ Inside text offset :=
  ⟨fun hboundary hinside => hinside.not_boundary hboundary,
    fun hinside => (boundary_or_inside h).resolve_right hinside⟩

/-- Two positions in a text have the same bytes before them only if they are the same. -/
theorem byteOffset_inj {i j : Nat} (hi : i ≤ text.length) (hj : j ≤ text.length) :
    byteOffset text i = byteOffset text j ↔ i = j := by
  rw [Nat.le_antisymm_iff, byteOffset_le_byteOffset_iff text hi hj,
    byteOffset_le_byteOffset_iff text hj hi, ← Nat.le_antisymm_iff]

/-- The bytes before an offset are those of the text before a position exactly if the offset is
that of the position. -/
theorem encode_take_eq_iff {position : Nat} (h : offset ≤ (encode text).length) :
    encode (text.take position) = (encode text).take offset ↔
      offset = byteOffset text position := by
  constructor
  · intro heq
    have hlength := congrArg List.length heq
    rw [List.length_take, Nat.min_eq_left h] at hlength
    exact hlength.symm
  · rintro rfl
    exact (take_byteOffset text position).symm

/-- Bytes that are cut inside a character do not decode. -/
theorem Inside.decode?_take (h : Inside text offset) :
    decode? ((encode text).take offset) = none := by
  cases hdecoded : decode? ((encode text).take offset) with
  | none => rfl
  | some front =>
    exfalso
    -- The bytes that decode are those of a beginning of the text, which ends at a boundary.
    have hbytes := decode?_eq_some_iff.1 hdecoded
    have hall := decode?_encode_append front ((encode text).drop offset)
    rw [← hbytes, List.take_append_drop, decode?_encode] at hall
    obtain ⟨later, -, rfl⟩ := Option.map_eq_some_iff.1 hall.symm
    refine h.not_boundary ⟨front.length, by simp, (encode_take_eq_iff h.le_length).1 ?_⟩
    rw [List.take_left, hbytes]

end Offsets

/-- A text has as many bytes as characters exactly if it is all ASCII. -/
theorem length_eq_length_encode_iff (text : List Char) :
    text.length = (encode text).length ↔ ∀ c ∈ text, c.toNat < 0x80 := by
  induction text with
  | nil => simp [encode]
  | cons c text ih =>
    have hle := length_le_length_encode text
    have hpos : 0 < c.utf8Size := c.utf8Size_pos
    rw [encode_cons, List.length_append, List.length_cons, String.length_utf8EncodeChar,
      List.forall_mem_cons, ← ih]
    have hone : c.utf8Size = 1 ↔ c.toNat < 0x80 := by
      rw [Char.utf8Size_eq_one_iff, UInt32.le_iff_toNat_le]
      exact Nat.lt_succ_iff.symm
    rw [← hone]
    omega

end DecoratorVeil.Text.Utf8
