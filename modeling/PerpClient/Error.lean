import PerpClient.Account.Decoded
/-!
# Errors of the client

`ClientError` lists the causes the client itself reports, each with its text in
`ClientError.message`; only transport failures and confirmation timeouts are worth retrying
as they are (`ClientError.isRetryable`).

Operations fail with a `Failure`: a client error, a foreign error that only has a text (from a
byte format or the ledger connection), or either of these under a note that says what was being
done. A defect is different: the client stops because a condition it asserts does not hold,
and nothing after it runs. Its text is the chain of notes and the cause joined by `": "`, and `clientError?` finds the
client error under any number of notes.
-/

namespace PerpClient

/-- One account whose bytes did not decode; its cached value is left alone. -/
structure DecodeFailure where
  pubkey : Pubkey
  kind : AccountKind
  reason : String
  deriving DecidableEq

/-- The causes the client reports. -/
inductive ClientError where
  /-- A ledger request failed in transport. -/
  | rpc (text : String)
  | accountNotFound (pubkey : Pubkey)
  /-- Some accounts did not decode: the first and the rest. -/
  | decode (first : DecodeFailure) (rest : List DecodeFailure)
  | perpMarketNotLoaded (index : UInt16)
  | spotMarketNotLoaded (index : UInt16)
  /-- A user snapshot is needed unless the instruction creates the user. -/
  | missingUserAccount
  | transactionTooLarge (size limit : Nat)
  | messageCompile (text : String)
  | signing (text : String)
  | transactionFailed (signature : Signature) (slot : UInt64) (reason : String)
  | confirmationTimeout (signature : Signature) (timeoutCount : UInt64)
  deriving DecidableEq

namespace ClientError

/-- The decode error of a list of failures, if there is any failure. -/
def ofDecodeFailures : List DecodeFailure → Option ClientError
  | [] => none
  | f :: rest => some (.decode f rest)

/-- The name of the cause. -/
def kindName : ClientError → String
  | .rpc _ => "Rpc"
  | .accountNotFound _ => "AccountNotFound"
  | .decode _ _ => "Decode"
  | .perpMarketNotLoaded _ => "PerpMarketNotLoaded"
  | .spotMarketNotLoaded _ => "SpotMarketNotLoaded"
  | .missingUserAccount => "MissingUserAccount"
  | .transactionTooLarge _ _ => "TransactionTooLarge"
  | .messageCompile _ => "MessageCompile"
  | .signing _ => "Signing"
  | .transactionFailed _ _ _ => "TransactionFailed"
  | .confirmationTimeout _ _ => "ConfirmationTimeout"

/-- The text of a client error. -/
def message : ClientError → String
  | .rpc text => s!"rpc request failed: {text}"
  | .accountNotFound k => s!"account not found: {k.toBase58}"
  | .decode f rest =>
    s!"failed to decode {rest.length + 1} account(s), first: {f.pubkey.toBase58} " ++
      s!"{f.kind.describe} ({f.reason})"
  | .perpMarketNotLoaded i => s!"perp market {i.toNat} is not loaded"
  | .spotMarketNotLoaded i => s!"spot market {i.toNat} is not loaded"
  | .missingUserAccount =>
    "user account snapshot is required unless the instruction bootstraps the user"
  | .transactionTooLarge size limit => s!"transaction is {size} bytes, limit is {limit}"
  | .messageCompile text => s!"failed to compile transaction message: {text}"
  | .signing text => s!"failed to sign transaction: {text}"
  | .transactionFailed sig slot reason =>
    s!"transaction {sig.toBase58} failed at slot {slot.toNat}: {reason}"
  | .confirmationTimeout sig n =>
    s!"transaction {sig.toBase58} was not confirmed in time ({n.toNat} timeouts so far)"

/-- Transient failures that may be retried as they are. -/
def isRetryable : ClientError → Bool
  | .rpc _ => true
  | .confirmationTimeout _ _ => true
  | _ => false

end ClientError

/-- Why an operation failed. -/
inductive Failure where
  | client (e : ClientError)
  /-- An error from outside the client, known by its text. -/
  | foreign (text : String)
  /-- A failure under a note saying what was being done. -/
  | noted (note : String) (inner : Failure)
  /-- The client stopped because a condition it asserts does not hold. -/
  | defect (text : String)
  deriving DecidableEq

namespace Failure

/-- The chain of notes and the cause, joined by `": "`. -/
def message : Failure → String
  | .client e => e.message
  | .foreign text => text
  | .noted note inner => note ++ ": " ++ inner.message
  | .defect text => text

/-- The outermost text only: the note, or the cause when there is none. -/
def headline : Failure → String
  | .client e => e.message
  | .foreign text => text
  | .noted note _ => note
  | .defect text => text

/-- The client error under the notes, if the cause is one. -/
def clientError? : Failure → Option ClientError
  | .client e => some e
  | .foreign _ => none
  | .noted _ inner => inner.clientError?
  | .defect _ => none

/-- The stop, if the failure is one. -/
def defect? : Failure → Option String
  | .defect text => some text
  | .noted _ inner => inner.defect?
  | _ => none

end Failure

/-- A result that may fail. -/
abbrev Outcome (α : Type) := Except Failure α

/-- Fails with a client error. -/
def fail {α : Type} (e : ClientError) : Outcome α := .error (.client e)

end PerpClient
