import PerpClient.Transaction.Message
import PerpClient.Error
import PerpClient.Cache
/-!
# The ledger connection

Everything the client asks of the ledger, each a round trip that may fail: account reads
(several accounts in one response share the slot it was served at), the latest block hash and
slot, dry runs, sending wire bytes, signature statuses and lookup tables.

The client runs in `Client σ`: a computation over the state `σ` of its surroundings (the ledger
and whatever else the caller keeps) that may fail. A failure keeps the state reached so far, so
requests already made stay made.
-/

namespace PerpClient

/-- A computation over the state of the surroundings that may fail; the state survives a
failure. -/
abbrev Client (σ : Type) := ExceptT Failure (StateM σ)

/-- The result of a dry run. -/
structure SimulationOutcome where
  unitsConsumed : Option UInt64
  error : Option String
  logs : List String
  deriving DecidableEq, Inhabited

/-- Where a transaction stands. -/
inductive SignatureStatus where
  /-- Landed and reached the commitment asked for. -/
  | confirmed (slot : UInt64)
  /-- Landed, but the program rejected it. -/
  | failed (slot : UInt64) (reason : String)
  /-- Seen, commitment not reached yet. -/
  | pending
  | unknown
  deriving DecidableEq, Inhabited

/-- How far a block has gone towards finality. -/
inductive Commitment where
  | processed
  | confirmed
  | finalized
  deriving DecidableEq, Inhabited

/-- The name of a commitment level. -/
def Commitment.name : Commitment → String
  | .processed => "processed"
  | .confirmed => "confirmed"
  | .finalized => "finalized"

/-- The commitment level of a name. -/
def Commitment.ofName? : String → Option Commitment
  | "processed" => some .processed
  | "confirmed" => some .confirmed
  | "finalized" => some .finalized
  | _ => none

/-- Options for sending a transaction. -/
structure SendConfig where
  skipPreflight : Bool
  preflightCommitment : Option Commitment
  maxRetries : Option Nat
  minContextSlot : Option UInt64
  deriving DecidableEq, Inhabited

/-- The default send options: preflight checks on, everything else left to the ledger. -/
def SendConfig.default : SendConfig := ⟨false, none, none, none⟩

/-- The requests the client makes of the ledger. -/
structure Ledger (σ : Type) where
  getAccount : Pubkey → Client σ (Stamped (Option (List UInt8)))
  getMultipleAccounts : List Pubkey → Client σ (Stamped (List (Option (List UInt8))))
  getLatestBlockhash : Client σ Blockhash
  getSlot : Client σ UInt64
  simulate : Transaction → Client σ SimulationOutcome
  sendRawTransaction : List UInt8 → SendConfig → Client σ Signature
  getSignatureStatus : Signature → Client σ SignatureStatus
  getAddressLookupTable : Pubkey → Client σ LookupTable
  /-- Whether a request is answered as it is sent, as the scripted ledgers and transports here
  answer. A ledger across a network answers later: requests sent together are all out before
  the first answer comes back. -/
  answersAtOnce : Bool := true

end PerpClient
