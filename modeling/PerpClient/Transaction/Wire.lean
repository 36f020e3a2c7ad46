import PerpClient.Transaction.Message
/-!
# The wire format of transactions

Transactions travel as the concatenation of their fields. A list is prefixed by its length as a
compact 16-bit number: seven bits per byte, low bits first, the top bit set on every byte but
the last, at most three bytes, and no byte of value zero after the first (each number has one
form). A format-0 message starts with the byte `0x80`; a legacy message starts with its header,
whose first count is below 128, so the first byte tells the formats apart. Bytes after the
transaction are not read.

* `Transaction.encode` writes, `Transaction.decode` reads;
* `WireError.message` gives the texts of the ways reading fails.
-/

namespace PerpClient

/-- Why bytes do not read as a transaction. -/
inductive WireError where
  /-- The bytes end inside a field. -/
  | endOfInput
  /-- A compact number with a zero byte after its first. -/
  | aliasEncoding
  /-- A compact number whose third byte asks for a fourth. -/
  | byteThreeContinues
  /-- A compact number above 65535. -/
  | overflow (value : Nat)
  /-- A message format other than legacy and 0. -/
  | unknownVersion (version : Nat)
  /-- The first byte `0xff`, which marks off-chain messages. -/
  | offChainMessage
  deriving DecidableEq

/-- The text of a wire error. -/
def WireError.message : WireError → String
  | .endOfInput => "io error: unexpected end of file"
  | .aliasEncoding => "invalid value: alias encoding, expected strict form encoding"
  | .byteThreeContinues =>
    "invalid value: continue signal on byte-three, expected a terminal signal on or before byte-three"
  | .overflow v => s!"invalid value: integer `{v}`, expected a value in the range [0, 65535]"
  | .unknownVersion v => s!"invalid value: integer `{v}`, expected a valid transaction message version"
  | .offChainMessage => "off-chain messages are not accepted"

namespace Wire

/-- The compact form of a length below 65536. -/
def compactLength (n : Nat) : List UInt8 :=
  if n < 0x80 then [n.toUInt8]
  else if n < 0x4000 then [(n % 128 + 128).toUInt8, (n / 128).toUInt8]
  else [(n % 128 + 128).toUInt8, (n / 128 % 128 + 128).toUInt8, (n / 16384).toUInt8]

/-- A list with its compact length in front. -/
def encodeList {α : Type} (f : α → List UInt8) (xs : List α) : List UInt8 :=
  compactLength xs.length ++ xs.flatMap f

/-- A reader takes a value off the front of the bytes and keeps the rest. -/
abbrev Reader (α : Type) := StateT (List UInt8) (Except WireError) α

/-- One byte. -/
def readByte : Reader UInt8 := fun bs =>
  match bs with
  | b :: rest => .ok (b, rest)
  | [] => .error .endOfInput

/-- `n` raw bytes. -/
def readBytes (n : Nat) : Reader (List UInt8) := fun bs =>
  if n ≤ bs.length then .ok (bs.take n, bs.drop n) else .error .endOfInput

/-- One byte of a compact number: the value so far grows by the byte's seven bits. -/
def compactStep (b : UInt8) (acc : Nat) (position : Nat) : Except WireError (Nat × Bool) :=
  if b = 0 ∧ position ≠ 0 then .error .aliasEncoding
  else if position = 2 ∧ b ≥ 0x80 then .error .byteThreeContinues
  else
    let value := acc + (b.toNat % 128) * Nat.pow 128 position
    if value > 65535 then .error (.overflow value)
    else .ok (value, b < 0x80)

/-- A compact length. -/
def readCompactLength : Reader Nat := do
  let b0 ← readByte
  let (v0, done0) ← StateT.lift (compactStep b0 0 0)
  if done0 then return v0
  let b1 ← readByte
  let (v1, done1) ← StateT.lift (compactStep b1 v0 1)
  if done1 then return v1
  let b2 ← readByte
  let (v2, _) ← StateT.lift (compactStep b2 v1 2)
  return v2

/-- `n` values of one layout. -/
def readMany {α : Type} (r : Reader α) : Nat → Reader (List α)
  | 0 => pure []
  | n + 1 => do
    let a ← r
    let rest ← readMany r n
    pure (a :: rest)

/-- A list with its compact length in front. -/
def readList {α : Type} (r : Reader α) : Reader (List α) := do
  let n ← readCompactLength
  readMany r n

/-- An address. -/
def readPubkey : Reader Pubkey := do
  let bs ← readBytes 32
  pure (Pubkey.ofBytes bs)

end Wire

namespace MessageHeader

/-- The three counts. -/
def encode (h : MessageHeader) : List UInt8 :=
  [h.numRequiredSignatures, h.numReadonlySignedAccounts, h.numReadonlyUnsignedAccounts]

end MessageHeader

namespace CompiledInstruction

/-- Program position, account positions, payload. -/
def encode (ix : CompiledInstruction) : List UInt8 :=
  [ix.programIdIndex] ++ Wire.encodeList (fun b => [b]) ix.accounts ++
    Wire.encodeList (fun b => [b]) ix.data

/-- Reads an instruction. -/
def read : Wire.Reader CompiledInstruction := do
  let programIdIndex ← Wire.readByte
  let accounts ← Wire.readList Wire.readByte
  let data ← Wire.readList Wire.readByte
  pure { programIdIndex := programIdIndex, accounts := accounts, data := data }

end CompiledInstruction

namespace TableLookup

/-- Table address, writable indexes, read-only indexes. -/
def encode (l : TableLookup) : List UInt8 :=
  l.accountKey.bytes ++ Wire.encodeList (fun b => [b]) l.writableIndexes ++
    Wire.encodeList (fun b => [b]) l.readonlyIndexes

/-- Reads a table lookup. -/
def read : Wire.Reader TableLookup := do
  let accountKey ← Wire.readPubkey
  let writableIndexes ← Wire.readList Wire.readByte
  let readonlyIndexes ← Wire.readList Wire.readByte
  pure {
    accountKey := accountKey, writableIndexes := writableIndexes,
    readonlyIndexes := readonlyIndexes }

end TableLookup

namespace MessageBody

/-- Header, accounts, block hash, instructions. -/
def encode (b : MessageBody) : List UInt8 :=
  b.header.encode ++ Wire.encodeList Pubkey.bytes b.accountKeys ++ b.recentBlockhash.bytes ++
    Wire.encodeList CompiledInstruction.encode b.instructions

/-- Reads the body after a header. -/
def readAfterHeader (header : MessageHeader) : Wire.Reader MessageBody := do
  let accountKeys ← Wire.readList Wire.readPubkey
  let hash ← Wire.readBytes 32
  let instructions ← Wire.readList CompiledInstruction.read
  pure {
    header := header, accountKeys := accountKeys, recentBlockhash := Blockhash.ofBytes hash,
    instructions := instructions }

/-- Reads a header. -/
def readHeader : Wire.Reader MessageHeader := do
  let a ← Wire.readByte
  let b ← Wire.readByte
  let c ← Wire.readByte
  pure ⟨a, b, c⟩

end MessageBody

namespace Message

/-- The bytes of a message: format 0 behind its marker byte. -/
def encode : Message → List UInt8
  | .legacy b => b.encode
  | .v0 b lookups => [0x80] ++ b.encode ++ Wire.encodeList TableLookup.encode lookups

/-- Reads a message, telling the format by its first byte. -/
def read : Wire.Reader Message := do
  let first ← Wire.readByte
  if first < 0x80 then
    let b ← Wire.readByte
    let c ← Wire.readByte
    let body ← MessageBody.readAfterHeader ⟨first, b, c⟩
    pure (.legacy body)
  else
    let version := (first - 0x80).toNat
    if version = 0 then
      let header ← MessageBody.readHeader
      let body ← MessageBody.readAfterHeader header
      let lookups ← Wire.readList TableLookup.read
      pure (.v0 body lookups)
    else if version = 127 then throw .offChainMessage
    else throw (.unknownVersion version)

end Message

namespace Transaction

/-- The bytes of a transaction: signatures, then the message. -/
def encode (tx : Transaction) : List UInt8 :=
  Wire.encodeList Signature.bytes tx.signatures ++ tx.message.encode

/-- Reads a transaction off the front of the bytes. -/
def read : Wire.Reader Transaction := do
  let sigs ← Wire.readList (do let bs ← Wire.readBytes 64; pure (Signature.ofBytes bs))
  let message ← Message.read
  pure { signatures := sigs, message := message }

/-- The transaction the bytes begin with. -/
def decode (bs : List UInt8) : Except WireError Transaction :=
  read.run' bs

/-- The number of bytes a transaction takes on the wire. -/
def wireSize (tx : Transaction) : Nat := tx.encode.length

end Transaction

end PerpClient
