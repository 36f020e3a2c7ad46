import PerpClient.Text.Name
/-!
# Reading back a padded name

A name is stored as its UTF-8 bytes followed by NUL and space bytes. Reading the stored bytes
gives the name back whenever the name does not itself end with a NUL or a space: the reader
decodes valid UTF-8 exactly, and the trimming stops at the name's last character, so NULs and
spaces inside the name stay.

* `decodeLossy_utf8EncodeChar_append`: a character's own encoding decodes to it, whatever
  follows;
* `decodeLossy_utf8Encode_append`: so does a whole text;
* `trimPadding_append`: trimming takes exactly the padding behind a text that does not end in
  padding;
* `decode_padded`: a padded name reads back as the name.
-/

namespace PerpClient

namespace Utf8

/-! ## 1. The reader on valid sequences -/

theorem toNat_and_mask (b m : UInt8) (n : Nat) (hm : m.toNat = Nat.pow 2 n - 1) :
    (b &&& m).toNat = b.toNat % Nat.pow 2 n := by
  rw [UInt8.toNat_and, hm]
  exact Nat.and_two_pow_sub_one_eq_mod _ _

theorem low6_eq (b : UInt8) : low6 b = b.toNat % 64 := toNat_and_mask b 0x3F 6 rfl

theorem isContinuation_iff (b : UInt8) :
    isContinuation b = true ↔ 128 ≤ b.toNat ∧ b.toNat ≤ 191 := by
  simp [isContinuation, UInt8.le_iff_toNat_le]

theorem decodeLossy_one {b : UInt8} (h : b.toNat < 128) (rest : List UInt8) :
    decodeLossy (b :: rest) = Char.ofNat b.toNat :: decodeLossy rest := by
  rw [decodeLossy.eq_def]
  simp [UInt8.lt_iff_toNat_lt, h]

theorem decodeLossy_two {b c : UInt8} (hb : 194 ≤ b.toNat ∧ b.toNat ≤ 223)
    (hc : isContinuation c = true) (rest : List UInt8) :
    decodeLossy (b :: c :: rest) =
      Char.ofNat (b.toNat % 32 * 64 + c.toNat % 64) :: decodeLossy rest := by
  rw [decodeLossy.eq_def]
  have hlead : ¬ b.toNat < 128 := by omega
  simp [UInt8.lt_iff_toNat_lt, UInt8.le_iff_toNat_le, hlead, hb, hc, toNat_and_mask b 0x1F 5 rfl,
    low6_eq]

theorem decodeLossy_three {b c d : UInt8} (hb : 224 ≤ b.toNat ∧ b.toNat ≤ 239)
    (hc : secondOfThree b c = true) (hd : isContinuation d = true) (rest : List UInt8) :
    decodeLossy (b :: c :: d :: rest) =
      Char.ofNat (b.toNat % 16 * 4096 + c.toNat % 64 * 64 + d.toNat % 64) :: decodeLossy rest := by
  rw [decodeLossy.eq_def]
  have hlead : ¬ b.toNat < 128 := by omega
  have htwo : ¬ (194 ≤ b.toNat ∧ b.toNat ≤ 223) := by omega
  simp [UInt8.lt_iff_toNat_lt, UInt8.le_iff_toNat_le, hlead, htwo, hb, hc, hd,
    toNat_and_mask b 0x0F 4 rfl, low6_eq]

theorem decodeLossy_four {b c d e : UInt8} (hb : 240 ≤ b.toNat ∧ b.toNat ≤ 244)
    (hc : secondOfFour b c = true) (hd : isContinuation d = true) (he : isContinuation e = true)
    (rest : List UInt8) :
    decodeLossy (b :: c :: d :: e :: rest) =
      Char.ofNat (b.toNat % 8 * 262144 + c.toNat % 64 * 4096 + d.toNat % 64 * 64 + e.toNat % 64) ::
        decodeLossy rest := by
  rw [decodeLossy.eq_def]
  have hlead : ¬ b.toNat < 128 := by omega
  have htwo : ¬ (194 ≤ b.toNat ∧ b.toNat ≤ 223) := by omega
  have hthree : ¬ (224 ≤ b.toNat ∧ b.toNat ≤ 239) := by omega
  simp [UInt8.lt_iff_toNat_lt, UInt8.le_iff_toNat_le, hlead, htwo, hthree, hb, hc, hd, he,
    toNat_and_mask b 0x07 3 rfl, low6_eq]

/-! ## 2. Encoded characters and texts -/

section Encoded

variable {n : Nat} (rest : List UInt8)

theorem decodeLossy_encoded_one (h : n ≤ 0x7f) :
    decodeLossy (UInt8.ofNat n :: rest) = Char.ofNat n :: decodeLossy rest := by
  rw [decodeLossy_one (by simp only [UInt8.toNat_ofNat']; omega)]
  simp only [UInt8.toNat_ofNat']
  congr 2
  omega

theorem decodeLossy_encoded_two (hlo : 0x7f < n) (hhi : n ≤ 0x7ff) :
    decodeLossy (UInt8.ofNat (n / 64 % 32 + 0xc0) :: UInt8.ofNat (n % 64 + 0x80) :: rest) =
      Char.ofNat n :: decodeLossy rest := by
  rw [decodeLossy_two (by simp only [UInt8.toNat_ofNat']; omega)
    ((isContinuation_iff _).mpr (by simp only [UInt8.toNat_ofNat']; omega))]
  simp only [UInt8.toNat_ofNat']
  congr 2
  omega

/-- The second byte of a three-byte encoding lies in the range the reader asks of it, since the
character is no surrogate. -/
theorem secondOfThree_encoded (hlo : 0x7ff < n) (hhi : n ≤ 0xffff)
    (hsur : n < 0xD800 ∨ 0xDFFF < n) :
    secondOfThree (UInt8.ofNat (n / 4096 % 16 + 0xe0)) (UInt8.ofNat (n / 64 % 64 + 0x80)) = true := by
  simp only [secondOfThree, isContinuation, UInt8.le_iff_toNat_le, UInt8.toNat_ofNat',
    ← UInt8.toNat_inj, UInt8.reduceToNat]
  split
  · simp
    omega
  · split
    · -- lead `0xED`: no surrogate, so below `0xD800`, the second byte at most `0x9F`
      simp
      omega
    · simp
      omega

theorem decodeLossy_encoded_three (hlo : 0x7ff < n) (hhi : n ≤ 0xffff)
    (hsur : n < 0xD800 ∨ 0xDFFF < n) :
    decodeLossy (UInt8.ofNat (n / 4096 % 16 + 0xe0) :: UInt8.ofNat (n / 64 % 64 + 0x80) ::
        UInt8.ofNat (n % 64 + 0x80) :: rest) = Char.ofNat n :: decodeLossy rest := by
  rw [decodeLossy_three (by simp only [UInt8.toNat_ofNat']; omega) (secondOfThree_encoded hlo hhi hsur)
    ((isContinuation_iff _).mpr (by simp only [UInt8.toNat_ofNat']; omega))]
  simp only [UInt8.toNat_ofNat']
  congr 2
  omega

/-- The second byte of a four-byte encoding lies in the range the reader asks of it, since the
character lies below `U+110000`. -/
theorem secondOfFour_encoded (hlo : 0xffff < n) (hhi : n < 0x110000) :
    secondOfFour (UInt8.ofNat (n / 262144 % 8 + 0xf0)) (UInt8.ofNat (n / 4096 % 64 + 0x80)) = true := by
  simp only [secondOfFour, isContinuation, UInt8.le_iff_toNat_le, UInt8.toNat_ofNat',
    ← UInt8.toNat_inj, UInt8.reduceToNat]
  split
  · simp
    omega
  · split
    · -- lead `0xF4`: the character is at most `0x10FFFF`, the second byte at most `0x8F`
      simp
      omega
    · simp
      omega

theorem decodeLossy_encoded_four (hlo : 0xffff < n) (hhi : n < 0x110000) :
    decodeLossy (UInt8.ofNat (n / 262144 % 8 + 0xf0) :: UInt8.ofNat (n / 4096 % 64 + 0x80) ::
        UInt8.ofNat (n / 64 % 64 + 0x80) :: UInt8.ofNat (n % 64 + 0x80) :: rest) =
      Char.ofNat n :: decodeLossy rest := by
  rw [decodeLossy_four (by simp only [UInt8.toNat_ofNat']; omega) (secondOfFour_encoded hlo hhi)
    ((isContinuation_iff _).mpr (by simp only [UInt8.toNat_ofNat']; omega))
    ((isContinuation_iff _).mpr (by simp only [UInt8.toNat_ofNat']; omega))]
  simp only [UInt8.toNat_ofNat']
  congr 2
  omega

end Encoded

/-- **A character's own encoding decodes to it**, whatever bytes follow: the encoding's lead byte
names its length, and a character is a scalar value, no surrogate and below `U+110000`. -/
theorem decodeLossy_utf8EncodeChar_append (c : Char) (rest : List UInt8) :
    decodeLossy (String.utf8EncodeChar c ++ rest) = c :: decodeLossy rest := by
  have hvalid : c.val.toNat < 0xD800 ∨ (0xDFFF < c.val.toNat ∧ c.val.toNat < 0x110000) := c.valid
  conv => rhs; rw [← Char.ofNat_toNat c]
  have hv : c.toNat = c.val.toNat := rfl
  rw [hv]
  unfold String.utf8EncodeChar
  by_cases h1 : c.val.toNat ≤ 0x7f
  · rw [if_pos h1]
    exact decodeLossy_encoded_one rest h1
  rw [if_neg h1]
  by_cases h2 : c.val.toNat ≤ 0x7ff
  · rw [if_pos h2]
    exact decodeLossy_encoded_two rest (by omega) h2
  rw [if_neg h2]
  by_cases h3 : c.val.toNat ≤ 0xffff
  · rw [if_pos h3]
    exact decodeLossy_encoded_three rest (by omega) h3 (by omega)
  · rw [if_neg h3]
    exact decodeLossy_encoded_four rest (by omega) (by omega)

/-- A text's encoding decodes to the text, whatever bytes follow. -/
theorem decodeLossy_utf8Encode_append (cs : List Char) (rest : List UInt8) :
    decodeLossy (cs.flatMap String.utf8EncodeChar ++ rest) = cs ++ decodeLossy rest := by
  induction cs with
  | nil => rfl
  | cons c cs ih =>
    rw [List.flatMap_cons, List.append_assoc, decodeLossy_utf8EncodeChar_append, ih,
      List.cons_append]

/-- Bytes below `0x80` decode one character each. -/
theorem decodeLossy_ascii {bs : List UInt8} (h : ∀ b ∈ bs, b.toNat < 128) :
    decodeLossy bs = bs.map fun b => Char.ofNat b.toNat := by
  induction bs with
  | nil => rw [decodeLossy.eq_1, List.map_nil]
  | cons b bs ih =>
    rw [decodeLossy_one (h b List.mem_cons_self), List.map_cons,
      ih fun b' hb' => h b' (List.mem_cons_of_mem b hb')]

end Utf8

namespace Name

/-! ## 3. Trimming -/

/-- Trimming a text followed by padding takes the padding away and nothing of the text, when the
text does not end in padding. -/
theorem trimPadding_append {cs pad : List Char} (hpad : ∀ p ∈ pad, isPadding p = true)
    (hlast : ∀ c, cs.getLast? = some c → isPadding c = false) :
    trimPadding (cs ++ pad) = cs := by
  unfold trimPadding
  rw [List.reverse_append, List.dropWhile_append_of_pos (fun p hp => hpad p (List.mem_reverse.mp hp))]
  cases hrev : cs.reverse with
  | nil => rw [List.reverse_eq_nil_iff.mp hrev]; rfl
  | cons c rest =>
    have hc : cs.getLast? = some c := by
      rw [← List.head?_reverse, hrev]
      rfl
    rw [List.dropWhile_cons_of_neg (by simp [hlast c hc]), ← hrev, List.reverse_reverse]

/-! ## 4. Names -/

theorem toUTF8_data_toList (s : String) :
    s.toUTF8.data.toList = s.toList.flatMap String.utf8EncodeChar := by
  rw [String.toUTF8_eq_toByteArray, ← String.utf8Encode_toList, List.utf8Encode,
    List.toList_data_toByteArray]

/-- **A padded name reads back as the name.** The stored bytes are the name's UTF-8 encoding
followed by any NUL and space bytes; when the name does not end with a NUL or a space, reading
them gives the name, with its inner NULs and spaces. -/
theorem decode_padded (s : String) (pad : List UInt8) (hpad : ∀ b ∈ pad, b = 0 ∨ b = 32)
    (hend : ∀ c, s.toList.getLast? = some c → c ≠ '\x00' ∧ c ≠ ' ') :
    decode (s.toUTF8.data.toList ++ pad) = s := by
  have hascii : ∀ b ∈ pad, b.toNat < 128 := by
    intro b hb
    rcases hpad b hb with rfl | rfl <;> decide
  have hpadding : ∀ p ∈ pad.map (fun b => Char.ofNat b.toNat), isPadding p = true := by
    intro p hp
    obtain ⟨b, hb, rfl⟩ := List.mem_map.mp hp
    rcases hpad b hb with rfl | rfl <;> decide
  have hlast : ∀ c, s.toList.getLast? = some c → isPadding c = false := by
    intro c hc
    obtain ⟨h0, hsp⟩ := hend c hc
    simp [isPadding, h0, hsp]
  unfold decode
  rw [toUTF8_data_toList, Utf8.decodeLossy_utf8Encode_append, Utf8.decodeLossy_ascii hascii,
    trimPadding_append hpadding hlast, String.ofList_toList]

/-- The name `"é x"` with a NUL inside, padded by a NUL, a space and a NUL, reads back whole. -/
theorem decode_padded_inner_padding :
    (∀ b ∈ ([0, 32, 0] : List UInt8), b = 0 ∨ b = 32) ∧
      (∀ c, (String.ofList ['é', ' ', '\x00', 'x']).toList.getLast? = some c →
        c ≠ '\x00' ∧ c ≠ ' ') ∧
      decode ((String.ofList ['é', ' ', '\x00', 'x']).toUTF8.data.toList ++ [0, 32, 0]) =
        String.ofList ['é', ' ', '\x00', 'x'] := by
  have hpad : ∀ b ∈ ([0, 32, 0] : List UInt8), b = 0 ∨ b = 32 := by simp
  have hend : ∀ c, (String.ofList ['é', ' ', '\x00', 'x']).toList.getLast? = some c →
      c ≠ '\x00' ∧ c ≠ ' ' := by
    rw [String.toList_ofList]
    simp
  exact ⟨hpad, hend, decode_padded _ _ hpad hend⟩

end Name

end PerpClient
