/-!
# Hexadecimal text of byte strings

Bytes travel as lowercase hexadecimal text without a prefix: two digits per byte, the high
nibble first. Reading accepts either case of the letters and refuses an odd number of digits or
any other character.

* `Hex.encode` writes the digits, `Hex.decode?` reads them back;
* `decode?_encode`: reading what was written gives the bytes back.
-/

namespace PerpClient.Hex

/-- The lowercase digit of a nibble (`n < 16`). -/
def digit (n : Nat) : Char :=
  if n < 10 then Char.ofNat (48 + n) else Char.ofNat (87 + n)

/-- The value of one hexadecimal digit, either case. -/
def digitValue? (c : Char) : Option Nat :=
  if '0' ≤ c ∧ c ≤ '9' then some (c.toNat - 48)
  else if 'a' ≤ c ∧ c ≤ 'f' then some (c.toNat - 87)
  else if 'A' ≤ c ∧ c ≤ 'F' then some (c.toNat - 55)
  else none

/-- The two digits of one byte, high nibble first. -/
def byteDigits (b : UInt8) : List Char :=
  [digit (b.toNat / 16), digit (b.toNat % 16)]

/-- The digits of a byte string. -/
def encodeChars (bs : List UInt8) : List Char :=
  bs.flatMap byteDigits

/-- Lowercase hexadecimal text of a byte string. -/
def encode (bs : List UInt8) : String :=
  String.ofList (encodeChars bs)

/-- Reads pairs of digits into bytes; `none` on an odd count or a foreign character. -/
def decodeChars : List Char → Option (List UInt8)
  | [] => some []
  | [_] => none
  | hi :: lo :: rest => do
    let h ← digitValue? hi
    let l ← digitValue? lo
    let tail ← decodeChars rest
    pure ((h * 16 + l).toUInt8 :: tail)

/-- The bytes a hexadecimal text stands for. -/
def decode? (s : String) : Option (List UInt8) :=
  decodeChars s.toList

theorem digitValue?_digit_fin : ∀ n : Fin 16, digitValue? (digit n.val) = some n.val := by
  decide

theorem digitValue?_digit (n : Nat) (h : n < 16) : digitValue? (digit n) = some n :=
  digitValue?_digit_fin ⟨n, h⟩

theorem decodeChars_encodeChars (bs : List UInt8) : decodeChars (encodeChars bs) = some bs := by
  induction bs with
  | nil => rfl
  | cons b rest ih =>
    have hlo : b.toNat % 16 < 16 := Nat.mod_lt _ (by decide)
    have hhi : b.toNat / 16 < 16 := by have := b.toNat_lt; omega
    simp only [encodeChars, List.flatMap_cons, byteDigits] at ih ⊢
    simp only [List.cons_append, List.nil_append, decodeChars, digitValue?_digit _ hhi,
      digitValue?_digit _ hlo, ih, Option.bind_eq_bind, Option.bind_some, Option.pure_def,
      Option.some.injEq, List.cons.injEq, and_true]
    have : b.toNat / 16 * 16 + b.toNat % 16 = b.toNat := by omega
    rw [this]
    exact UInt8.ofNat_toNat

/-- Reading what `encode` writes gives the bytes back. -/
theorem decode?_encode (bs : List UInt8) : decode? (encode bs) = some bs := by
  simp [decode?, encode, decodeChars_encodeChars]

end PerpClient.Hex
