/-!
# The byte layout of account records

Account bodies are laid out field after field in declaration order, with nothing between the
fields: integers little endian at their width, a truth value as one byte that must be `0` or
`1`, an enumeration as one tag byte below its number of cases, and fixed arrays inline. Bytes
after the last field are not read.

* `Layout.Reader` reads a value off the front of the bytes and keeps the rest;
* the three ways to fail are `LayoutError`s, whose texts are the ones callers see;
* `littleEndian` and `leValue` are the two directions of the integer encoding, and
  `leValue_littleEndian` says that reading what was written gives the number back.
-/

namespace PerpClient

/-- Why bytes do not read as a record. -/
inductive LayoutError where
  /-- The bytes end before the field does. -/
  | unexpectedLength
  /-- An enumeration tag at or above the number of cases. -/
  | unexpectedVariant (tag : UInt8)
  /-- A truth-value byte other than `0` and `1`. -/
  | invalidBool (byte : UInt8)
  deriving DecidableEq, Repr

/-- The text of a layout error. -/
def LayoutError.message : LayoutError → String
  | .unexpectedLength => "Unexpected length of input"
  | .unexpectedVariant tag => s!"Unexpected variant index: {tag.toNat}"
  | .invalidBool byte => s!"Invalid bool representation: {byte.toNat}"

/-- A fixed number of raw bytes. -/
structure FixedBytes (n : Nat) where
  bytes : List UInt8
  length_bytes : bytes.length = n
  deriving DecidableEq

/-- The first `n` bytes of a byte string, zero-filled when it is shorter. -/
def FixedBytes.ofList (n : Nat) (bs : List UInt8) : FixedBytes n :=
  ⟨(bs ++ List.replicate n 0).take n, by simp⟩

/-- `n` zero bytes. -/
def FixedBytes.zeros (n : Nat) : FixedBytes n := FixedBytes.ofList n []

instance (n : Nat) : Inhabited (FixedBytes n) := ⟨FixedBytes.zeros n⟩

/-- The number a little-endian byte string stands for. -/
def leValue (bs : List UInt8) : Nat :=
  bs.foldr (fun b acc => b.toNat + 256 * acc) 0

/-- The `w` little-endian bytes of a number (its value modulo `256^w`). -/
def littleEndian (x : Nat) : Nat → List UInt8
  | 0 => []
  | w + 1 => (x % 256).toUInt8 :: littleEndian (x / 256) w

@[simp] theorem length_littleEndian (x w : Nat) : (littleEndian x w).length = w := by
  induction w generalizing x with
  | zero => rfl
  | succ w ih => simp [littleEndian, ih]

/-- Reading little-endian bytes gives the number back, modulo `256^w`. -/
theorem leValue_littleEndian (x w : Nat) : leValue (littleEndian x w) = x % Nat.pow 256 w := by
  show leValue (littleEndian x w) = x % 256 ^ w
  induction w generalizing x with
  | zero => simp [littleEndian, leValue, Nat.mod_one]
  | succ w ih =>
    simp only [littleEndian, leValue, List.foldr_cons] at ih ⊢
    rw [ih (x / 256)]
    have h1 : ((x % 256).toUInt8).toNat = x % 256 := by
      simp [Nat.toUInt8]
    rw [h1, Nat.pow_succ, Nat.mul_comm (256 ^ w) 256, Nat.mod_mul]

theorem length_take_of_le {n : Nat} {bs : List UInt8} (h : n ≤ bs.length) :
    (bs.take n).length = n := by
  rw [List.length_take]
  exact Nat.min_eq_left h

/-- A reader takes a value off the front of the bytes and keeps the rest. -/
abbrev Layout.Reader (α : Type) := StateT (List UInt8) (Except LayoutError) α

namespace Layout

/-- `n` raw bytes. -/
def readBytes (n : Nat) : Reader (FixedBytes n) := fun bs =>
  if h : n ≤ bs.length then .ok (⟨bs.take n, length_take_of_le h⟩, bs.drop n)
  else .error .unexpectedLength

/-- One byte. -/
def readU8 : Reader UInt8 := fun bs =>
  match bs with
  | b :: rest => .ok (b, rest)
  | [] => .error .unexpectedLength

/-- A little-endian 16-bit word. -/
def readU16 : Reader UInt16 := do
  let b ← readBytes 2
  pure (leValue b.bytes).toUInt16

/-- A little-endian 32-bit word. -/
def readU32 : Reader UInt32 := do
  let b ← readBytes 4
  pure (leValue b.bytes).toUInt32

/-- A little-endian 64-bit word. -/
def readU64 : Reader UInt64 := do
  let b ← readBytes 8
  pure (leValue b.bytes).toUInt64

/-- A little-endian two's-complement 64-bit integer. -/
def readI64 : Reader Int64 := do
  let w ← readU64
  pure w.toInt64

/-- A truth value: the byte `0` or `1`. -/
def readBool : Reader Bool := do
  let b ← readU8
  if b = 0 then pure false
  else if b = 1 then pure true
  else throw (.invalidBool b)

/-- An enumeration case by its tag byte. -/
def readTag {α : Type} (ofTag? : UInt8 → Option α) : Reader α := do
  let b ← readU8
  match ofTag? b with
  | some a => pure a
  | none => throw (.unexpectedVariant b)

/-- `n` values of one layout, one after another. -/
def readList {α : Type} (r : Reader α) : (n : Nat) → Reader { xs : List α // xs.length = n }
  | 0 => pure ⟨[], rfl⟩
  | n + 1 => do
    let a ← r
    let rest ← readList r n
    pure ⟨a :: rest.val, by simp [rest.property]⟩

/-- The bytes of a 16-bit word. -/
def writeU16 (x : UInt16) : List UInt8 := littleEndian x.toNat 2

/-- The bytes of a 32-bit word. -/
def writeU32 (x : UInt32) : List UInt8 := littleEndian x.toNat 4

/-- The bytes of a 64-bit word. -/
def writeU64 (x : UInt64) : List UInt8 := littleEndian x.toNat 8

/-- The bytes of a 64-bit integer, two's complement. -/
def writeI64 (x : Int64) : List UInt8 := writeU64 x.toUInt64

/-- The byte of a truth value. -/
def writeBool (b : Bool) : List UInt8 := [if b then 1 else 0]

end Layout

end PerpClient
