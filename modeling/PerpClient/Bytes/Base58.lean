/-!
# Base58 text of byte strings

Addresses and signatures are written in base 58 over the alphabet that leaves out `0`, `O`, `I`
and `l`. The bytes are read as one big-endian number written in that base, and every leading
zero byte becomes one leading `1` (the digit of value zero), so that the length of a run of
zero bytes survives the number.

* `Base58.encode` writes the text, `Base58.decode?` reads it back;
* `Nat.toBase58Digits` and `ofDigits` are the two directions on numbers.
-/

namespace PerpClient.Base58

/-- The 58 digits in order of value. -/
def alphabet : List Char :=
  "123456789ABCDEFGHJKLMNPQRSTUVWXYZabcdefghijkmnopqrstuvwxyz".toList

/-- The digit of a value below 58. -/
def digit (n : Nat) : Char :=
  alphabet.getD n '1'

/-- The value of a digit, if the character is one. -/
def digitValue? (c : Char) : Option Nat :=
  alphabet.idxOf? c

/-- The digits of a number, most significant first; zero has none. -/
def numberDigits (n : Nat) : List Nat :=
  if n = 0 then [] else numberDigits (n / 58) ++ [n % 58]
termination_by n
decreasing_by omega

/-- The number a big-endian byte string stands for. -/
def bytesValue (bs : List UInt8) : Nat :=
  bs.foldl (fun acc b => acc * 256 + b.toNat) 0

/-- The shortest big-endian bytes of a number; zero has none. -/
def valueBytes (n : Nat) : List UInt8 :=
  if n = 0 then [] else valueBytes (n / 256) ++ [(n % 256).toUInt8]
termination_by n
decreasing_by omega

/-- The number a list of digit values stands for, most significant first. -/
def ofDigits (ds : List Nat) : Nat :=
  ds.foldl (fun acc d => acc * 58 + d) 0

/-- Base58 text of a byte string: one `1` per leading zero byte, then the digits of the rest. -/
def encode (bs : List UInt8) : String :=
  let zeros := (bs.takeWhile (· == 0)).length
  String.ofList (List.replicate zeros '1' ++ (numberDigits (bytesValue bs)).map digit)

/-- The bytes a base58 text stands for; `none` if a character is not a digit. -/
def decode? (s : String) : Option (List UInt8) := do
  let cs := s.toList
  let values ← cs.mapM digitValue?
  let zeros := (values.takeWhile (· == 0)).length
  pure (List.replicate zeros 0 ++ valueBytes (ofDigits values))

end PerpClient.Base58
