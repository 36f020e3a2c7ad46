/-!
# Base64 text of byte strings

The standard alphabet (`A`–`Z`, `a`–`z`, `0`–`9`, `+`, `/`), six bits per character, with `=`
padding the last group to four characters. Reading is strict: the padding must be there, a
padded group's unused low bits must be zero, and no other character may appear.

* `Base64.encode` writes the text, `Base64.decode?` reads it back;
* `digitValue?_digit`: every digit reads back as its value.
-/

namespace PerpClient.Base64

/-- The digit of a six-bit value (`n < 64`). -/
def digit (n : Nat) : Char :=
  if n < 26 then Char.ofNat (65 + n)
  else if n < 52 then Char.ofNat (71 + n)
  else if n < 62 then Char.ofNat (n - 4)
  else if n = 62 then '+'
  else '/'

/-- The value of one digit. -/
def digitValue? (c : Char) : Option Nat :=
  if 'A' ≤ c ∧ c ≤ 'Z' then some (c.toNat - 65)
  else if 'a' ≤ c ∧ c ≤ 'z' then some (c.toNat - 71)
  else if '0' ≤ c ∧ c ≤ '9' then some (c.toNat + 4)
  else if c = '+' then some 62
  else if c = '/' then some 63
  else none

/-- The characters of a byte string: four per three bytes, the last group padded. -/
def encodeChars : List UInt8 → List Char
  | a :: b :: c :: rest =>
    let n := a.toNat * 65536 + b.toNat * 256 + c.toNat
    digit (n / 262144) :: digit (n / 4096 % 64) :: digit (n / 64 % 64) :: digit (n % 64) ::
      encodeChars rest
  | [a, b] =>
    let n := a.toNat * 256 + b.toNat
    [digit (n / 1024), digit (n / 16 % 64), digit (n * 4 % 64), '=']
  | [a] => [digit (a.toNat / 4), digit (a.toNat * 16 % 64), '=', '=']
  | [] => []

/-- Base64 text of a byte string. -/
def encode (bs : List UInt8) : String := String.ofList (encodeChars bs)

/-- Reads groups of four characters; the last may be padded, with its unused bits zero. -/
def decodeChars : List Char → Option (List UInt8)
  | [] => some []
  | [c1, c2, '=', '='] => do
    let a ← digitValue? c1
    let b ← digitValue? c2
    if b % 16 ≠ 0 then none
    pure [(a * 4 + b / 16).toUInt8]
  | [c1, c2, c3, '='] => do
    let a ← digitValue? c1
    let b ← digitValue? c2
    let c ← digitValue? c3
    if c % 4 ≠ 0 then none
    let n := a * 4096 + b * 64 + c
    pure [(n / 1024).toUInt8, (n / 4 % 256).toUInt8]
  | c1 :: c2 :: c3 :: c4 :: rest => do
    let n := (← digitValue? c1) * 262144 + (← digitValue? c2) * 4096 +
      (← digitValue? c3) * 64 + (← digitValue? c4)
    let tail ← decodeChars rest
    pure ((n / 65536).toUInt8 :: (n / 256 % 256).toUInt8 :: (n % 256).toUInt8 :: tail)
  | _ => none

/-- The bytes a base64 text stands for. -/
def decode? (s : String) : Option (List UInt8) := decodeChars s.toList

theorem digitValue?_digit_fin : ∀ n : Fin 64, digitValue? (digit n.val) = some n.val := by
  decide

/-- Every digit reads back as its value. -/
theorem digitValue?_digit (n : Nat) (h : n < 64) : digitValue? (digit n) = some n :=
  digitValue?_digit_fin ⟨n, h⟩

end PerpClient.Base64
