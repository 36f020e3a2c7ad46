import PerpClient.Account.Decoded
/-!
# Record layouts as lists of fields

The layout of an account record said on its own, apart from the readers: its fields in
declaration order, each as the bytes it takes (`Field`). Plain bytes (an integer, an address, a
fixed byte array) take any values; an enumeration takes one tag byte below its number of cases;
a truth value one byte, `0` or `1`. Bytes are a *valid* record of a layout when every tag and
truth-value byte is one its field admits (`Schema.valid`).

* `AccountKind.bodySize`: the body sizes, 160 bytes of program state, 126 of a perp market, 184
  of a spot market, 1072 of a user and 25 of an oracle feed;
* `AccountKind.size_schema`: each kind's layout has that size.
-/

namespace PerpClient

/-- One field of a record layout, as the bytes it takes. -/
inductive Field where
  /-- `n` bytes that every value fills: a little-endian integer, an address, a byte array. -/
  | bytes (n : Nat)
  /-- An enumeration: one tag byte below the number of cases. -/
  | tag (cases : Nat)
  /-- A truth value: one byte, `0` or `1`. -/
  | bool
  deriving DecidableEq, Repr

namespace Field

/-- The number of bytes a field takes. -/
def width : Field → Nat
  | bytes n => n
  | tag _ => 1
  | bool => 1

/-- Whether a field admits the first of its bytes; plain bytes admit anything. -/
def admits : Field → UInt8 → Bool
  | bytes _, _ => true
  | tag cases, b => b.toNat < cases
  | bool, b => b.toNat < 2

@[simp] theorem admits_tag (cases : Nat) (b : UInt8) : (tag cases).admits b = decide (b.toNat < cases) :=
  rfl

@[simp] theorem admits_bool (b : UInt8) : bool.admits b = decide (b.toNat < 2) := rfl

end Field

/-- A record layout: the fields in declaration order, with nothing between them. -/
abbrev Schema := List Field

namespace Schema

/-- The number of bytes a record of the layout takes. -/
def size : Schema → Nat
  | [] => 0
  | f :: s => f.width + size s

/-- Whether every field's first byte is one the field admits. Bytes past the layout are not
looked at, and a byte the list does not reach admits anything. -/
def valid : Schema → List UInt8 → Bool
  | [], _ => true
  | f :: s, bs => bs.head?.all f.admits && valid s (bs.drop f.width)

/-- Plain bytes are valid whatever they hold. -/
@[simp] theorem valid_bytes_cons (n : Nat) (s : Schema) (bs : List UInt8) :
    valid (.bytes n :: s) bs = valid s (bs.drop n) := by
  cases bs <;> rfl

@[simp] theorem valid_nil (bs : List UInt8) : valid [] bs = true := rfl

@[simp] theorem size_cons (f : Field) (s : Schema) : size (f :: s) = f.width + size s := rfl

@[simp] theorem size_nil : size [] = 0 := rfl

/-- The layout of `n` records of one layout, one after another. -/
def replicate (n : Nat) (s : Schema) : Schema := (List.replicate n s).flatten

theorem size_append (s t : Schema) : size (s ++ t) = size s + size t := by
  induction s with
  | nil => simp [size]
  | cons f s ih =>
    simp only [List.cons_append, size, ih]
    omega

theorem size_replicate (n : Nat) (s : Schema) : size (replicate n s) = n * size s := by
  induction n with
  | zero => simp [replicate]
  | succ n ih =>
    rw [replicate, List.replicate_succ, List.flatten_cons, size_append, ← replicate, ih,
      Nat.succ_mul, Nat.add_comm]

/-- A record of `s ++ t` is valid when its first `size s` bytes are a valid `s` and the rest a
valid `t`. -/
theorem valid_append (s t : Schema) (bs : List UInt8) :
    valid (s ++ t) bs = (valid s bs && valid t (bs.drop (size s))) := by
  induction s generalizing bs with
  | nil => simp [valid, size]
  | cons f s ih =>
    simp only [List.cons_append, valid, ih, size, List.drop_drop, Bool.and_assoc]

end Schema

/-- The program state: four addresses, two 64-bit and two 16-bit counts, three single bytes and
nine bytes of padding. -/
def ProgramState.schema : Schema :=
  [.bytes 32, .bytes 32, .bytes 32, .bytes 32, .bytes 8, .bytes 8, .bytes 2, .bytes 2, .bytes 1,
    .bytes 1, .bytes 1, .bytes 9]

/-- A perp market: its address, its oracle and the oracle's source (13 cases), a 32-byte name,
its index and its quote market's index, its status (9 cases), two margin ratios and 16 bytes
of padding. -/
def PerpMarket.schema : Schema :=
  [.bytes 32, .bytes 32, .tag 13, .bytes 32, .bytes 2, .bytes 2, .tag 9, .bytes 4, .bytes 4,
    .bytes 16]

/-- A spot market: its address, its oracle and the oracle's source, its mint and vault, a
32-byte name, its index, its decimals, its status and 16 bytes of padding. -/
def SpotMarket.schema : Schema :=
  [.bytes 32, .bytes 32, .tag 13, .bytes 32, .bytes 32, .bytes 32, .bytes 2, .bytes 4, .tag 9,
    .bytes 16]

/-- A spot position: four 64-bit amounts, its market index, its balance side (2 cases), its
open order count and 4 bytes of padding. -/
def SpotPosition.schema : Schema :=
  [.bytes 8, .bytes 8, .bytes 8, .bytes 8, .bytes 2, .tag 2, .bytes 1, .bytes 4]

/-- A perp position: nine 64-bit amounts, its market index, its open order count and 5 bytes of
padding. -/
def PerpPosition.schema : Schema :=
  [.bytes 8, .bytes 8, .bytes 8, .bytes 8, .bytes 8, .bytes 8, .bytes 8, .bytes 8, .bytes 8,
    .bytes 2, .bytes 1, .bytes 5]

/-- A user: its authority and delegate, a 32-byte name, eight spot and eight perp positions, the
next order id, the sub-account id, a status byte, the margin-trading flag and 8 bytes of
padding. -/
def UserAccount.schema : Schema :=
  [.bytes 32, .bytes 32, .bytes 32] ++ Schema.replicate positionSlots SpotPosition.schema ++
    Schema.replicate positionSlots PerpPosition.schema ++
    [.bytes 4, .bytes 2, .bytes 1, .bool, .bytes 8]

/-- An oracle feed: the price, the confidence, the slot and the sufficiency flag. -/
def OracleFeed.schema : Schema := [.bytes 8, .bytes 8, .bytes 8, .bool]

example : SpotPosition.schema.size = 40 ∧ PerpPosition.schema.size = 80 := by decide

namespace AccountKind

/-- The layout of a kind's record body; every oracle is read as a feed. -/
def schema : AccountKind → Schema
  | .state => ProgramState.schema
  | .perpMarket => PerpMarket.schema
  | .spotMarket => SpotMarket.schema
  | .oracle _ => OracleFeed.schema
  | .user => UserAccount.schema

/-- The body size of each kind of account, in bytes. -/
def bodySize : AccountKind → Nat
  | .state => 160
  | .perpMarket => 126
  | .spotMarket => 184
  | .oracle _ => 25
  | .user => 1072

/-- Each kind's layout takes its body size. -/
theorem size_schema (K : AccountKind) : K.schema.size = K.bodySize := by
  cases K with
  | user =>
    simp only [schema, bodySize, UserAccount.schema, Schema.size_append, Schema.size_replicate]
    rfl
  | _ => rfl

end AccountKind

/-- Tag bytes are checked: a perp market whose oracle source byte is 13 is not a valid record. -/
example : PerpMarket.schema.valid (List.replicate 64 0 ++ [13] ++ List.replicate 61 0) = false := by
  decide

end PerpClient
