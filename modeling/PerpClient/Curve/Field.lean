/-!
# The field of curve25519

Arithmetic modulo the prime `p = 2^255 - 19` on natural numbers kept below `p`. Inverses are
Fermat's: `x^(p-2)`, which sends zero to zero. Square classes are read by Euler's criterion.

* `Field.powMod` is exponentiation by squaring on the bits of the exponent;
* `Field.IsSquare` of `x` holds iff `x` is zero or `x^((p-1)/2) = 1`.
-/

namespace PerpClient.Field

/-- The prime of the field. -/
def p : Nat := Nat.pow 2 255 - 19

/-- `b ^ e` modulo `m`, by squaring on the bits of `e`. -/
def powMod (b e m : Nat) : Nat :=
  if e = 0 then 1 % m
  else
    let half := powMod (b * b % m) (e / 2) m
    if e % 2 = 0 then half else half * b % m
termination_by e
decreasing_by omega

/-- Sum in the field. -/
def add (x y : Nat) : Nat := (x + y) % p

/-- Difference in the field. -/
def sub (x y : Nat) : Nat := (x + p - y % p) % p

/-- Product in the field. -/
def mul (x y : Nat) : Nat := x * y % p

/-- Inverse in the field (zero for zero). -/
def inv (x : Nat) : Nat := powMod x (p - 2) p

/-- A field element is a square: zero, or its Euler power is one. -/
def isSquare (x : Nat) : Bool :=
  x % p = 0 || powMod x ((p - 1) / 2) p = 1

/-- The number a little-endian byte string stands for. -/
def ofLittleEndian (bs : List UInt8) : Nat :=
  bs.foldr (fun b acc => acc * 256 + b.toNat) 0

/-- The `n` little-endian bytes of a number (its value modulo `256^n`). -/
def toLittleEndian (x : Nat) : Nat → List UInt8
  | 0 => []
  | n + 1 => (x % 256).toUInt8 :: toLittleEndian (x / 256) n

end PerpClient.Field
