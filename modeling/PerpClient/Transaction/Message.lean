import PerpClient.Address.Basic
/-!
# Instructions, messages and transactions

An instruction names a program, the accounts it touches (each possibly a signer, possibly
written) and an opaque payload. A message lists every account once, signers first, and refers to
them by position: its header counts the signatures it needs and the read-only accounts among the
signers and among the others. A message is in the legacy format or in format 0, which may also
load accounts from address lookup tables by index. A transaction is a message with one signature
per required signer, all zero until signed.
-/

namespace PerpClient

/-- One account an instruction touches. -/
structure AccountMeta where
  pubkey : Pubkey
  isSigner : Bool
  isWritable : Bool
  deriving DecidableEq, Inhabited

/-- A program call: the program, its accounts and its payload. -/
structure Instruction where
  programId : Pubkey
  accounts : List AccountMeta
  data : List UInt8
  deriving DecidableEq, Inhabited

/-- The counts that tell signers and read-only accounts apart by position. -/
structure MessageHeader where
  numRequiredSignatures : UInt8
  numReadonlySignedAccounts : UInt8
  numReadonlyUnsignedAccounts : UInt8
  deriving DecidableEq, Inhabited

/-- An instruction whose program and accounts are positions in the message's account list. -/
structure CompiledInstruction where
  programIdIndex : UInt8
  accounts : List UInt8
  data : List UInt8
  deriving DecidableEq, Inhabited

/-- The accounts a format-0 message loads from one lookup table, by index. -/
structure TableLookup where
  accountKey : Pubkey
  writableIndexes : List UInt8
  readonlyIndexes : List UInt8
  deriving DecidableEq, Inhabited

/-- An address lookup table: its address and the addresses it holds. -/
structure LookupTable where
  key : Pubkey
  addresses : List Pubkey
  deriving DecidableEq, Inhabited

/-- The parts every message format has. -/
structure MessageBody where
  header : MessageHeader
  accountKeys : List Pubkey
  recentBlockhash : Blockhash
  instructions : List CompiledInstruction
  deriving DecidableEq, Inhabited

/-- A message in the legacy format or in format 0. -/
inductive Message where
  | legacy (body : MessageBody)
  | v0 (body : MessageBody) (lookups : List TableLookup)
  deriving DecidableEq

instance : Inhabited Message := ⟨.legacy default⟩

/-- The two message formats. -/
inductive TransactionVersion where
  | legacy
  | v0
  deriving DecidableEq, Repr, Inhabited

namespace Message

/-- The parts common to both formats. -/
def body : Message → MessageBody
  | .legacy b => b
  | .v0 b _ => b

/-- The format of a message. -/
def version : Message → TransactionVersion
  | .legacy _ => .legacy
  | .v0 _ _ => .v0

/-- The accounts listed in the message itself. -/
def staticAccountKeys (m : Message) : List Pubkey := m.body.accountKeys

/-- The compiled instructions. -/
def instructions (m : Message) : List CompiledInstruction := m.body.instructions

/-- The message header. -/
def header (m : Message) : MessageHeader := m.body.header

end Message

/-- A message with its signatures. -/
structure Transaction where
  signatures : List Signature
  message : Message
  deriving DecidableEq, Inhabited

end PerpClient
