import PerpClient.Ledger.Rpc
import PerpClient.Transaction.Wire
import PerpClient.Transaction.ComputeBudget
import PerpClient.Transaction.Sign
/-!
# A scripted ledger

An in-memory ledger whose answers are set by a script, for driving the client without a
network: a slot (optionally growing after every multi-account read), accounts, lookup tables,
a block hash, the outcome of dry runs and a queue of signature statuses, each of which can be
made to fail. It counts the requests it serves; a request is counted before it can fail.

Sending records the wire bytes, then reads them as a transaction and answers its first
signature. Dry runs record the unit limit the probe asks for.
-/

namespace PerpClient

/-- A scripted signature status: a status, or a failure of the query. -/
inductive ScriptedStatus where
  | status (s : SignatureStatus)
  | rpcError (reason : String)
  deriving DecidableEq, Inhabited

/-- How reads fail: with a transport error, or with a bare error of that text. -/
structure ReadFailure where
  reason : String
  plain : Bool
  deriving DecidableEq, Inhabited

/-- The state of a scripted ledger. -/
structure ScriptedLedger where
  slot : UInt64
  slotStep : UInt64
  accounts : List (Pubkey × List UInt8)
  lookupTables : List LookupTable
  failReads : Option ReadFailure
  failBlockhash : Option String
  /-- Sends that still succeed before the failing ones. -/
  sendsToSkip : Nat
  /-- Sends that fail after the skipped ones. -/
  sendsToFail : Nat
  blockhash : Blockhash
  /-- The dry-run outcome, or the failure of the dry run itself. -/
  simulation : Except String SimulationOutcome
  statuses : List ScriptedStatus
  dropTrailing : Nat
  multipleAccountsCalls : Nat
  blockhashCalls : Nat
  lookupTableCalls : Nat
  statusCalls : Nat
  sendCalls : Nat
  /-- The unit limit of each dry-run probe. -/
  simulatedLimits : List (Option UInt32)
  /-- The wire size of each send. -/
  sentSizes : List Nat
  deriving Inhabited

namespace ScriptedLedger

/-- The ledger at slot 0 with block hash `[7; 32]` and nothing else. -/
def initial : ScriptedLedger where
  slot := 0
  slotStep := 0
  accounts := []
  lookupTables := []
  failReads := none
  failBlockhash := none
  sendsToSkip := 0
  sendsToFail := 0
  blockhash := Blockhash.ofBytes (List.replicate 32 7)
  simulation := .ok ⟨none, none, []⟩
  statuses := []
  dropTrailing := 0
  multipleAccountsCalls := 0
  blockhashCalls := 0
  lookupTableCalls := 0
  statusCalls := 0
  sendCalls := 0
  simulatedLimits := []
  sentSizes := []

/-- Sets an account's data. -/
def setAccount (l : ScriptedLedger) (k : Pubkey) (data : List UInt8) : ScriptedLedger :=
  { l with accounts := (l.accounts.filter (·.1 ≠ k)) ++ [(k, data)] }

/-- Removes an account. -/
def removeAccount (l : ScriptedLedger) (k : Pubkey) : ScriptedLedger :=
  { l with accounts := l.accounts.filter (·.1 ≠ k) }

/-- Sets a lookup table. -/
def setLookupTable (l : ScriptedLedger) (t : LookupTable) : ScriptedLedger :=
  { l with lookupTables := (l.lookupTables.filter (·.key ≠ t.key)) ++ [t] }

/-- The data of an account. -/
def account? (l : ScriptedLedger) (k : Pubkey) : Option (List UInt8) :=
  (l.accounts.find? (·.1 = k)).map (·.2)

/-- The failure of a read, if reads fail. -/
def readFailure (l : ScriptedLedger) : Option Failure :=
  l.failReads.map fun f => if f.plain then .foreign f.reason else .client (.rpc f.reason)

end ScriptedLedger

namespace Scripted

variable {σ : Type}

/-- Runs a step on the ledger inside larger surroundings. -/
def onLedger {α : Type} (view : σ → ScriptedLedger) (update : ScriptedLedger → σ → σ)
    (f : ScriptedLedger → ScriptedLedger × Outcome α) : Client σ α := do
  let s ← get
  let (l, r) := f (view s)
  set (update l s)
  match r with
  | .ok a => pure a
  | .error e => throw e

/-- Reads one account. -/
def getAccount (k : Pubkey) (l : ScriptedLedger) : ScriptedLedger × Outcome (Stamped (Option (List UInt8))) :=
  match l.readFailure with
  | some e => (l, .error e)
  | none => (l, .ok ⟨l.account? k, l.slot⟩)

/-- Reads several accounts; the answer misses the trailing ones to drop, and the slot then
grows by its step. -/
def getMultipleAccounts (ks : List Pubkey) (l : ScriptedLedger) :
    ScriptedLedger × Outcome (Stamped (List (Option (List UInt8)))) :=
  let l := { l with multipleAccountsCalls := l.multipleAccountsCalls + 1 }
  match l.readFailure with
  | some e => (l, .error e)
  | none =>
    let data := ks.map l.account?
    let data := data.take (data.length - l.dropTrailing)
    ({ l with slot := l.slot + l.slotStep }, .ok ⟨data, l.slot⟩)

/-- The block hash. -/
def getLatestBlockhash (l : ScriptedLedger) : ScriptedLedger × Outcome Blockhash :=
  let l := { l with blockhashCalls := l.blockhashCalls + 1 }
  match l.failBlockhash with
  | some reason => (l, fail (.rpc reason))
  | none => (l, .ok l.blockhash)

/-- The slot. -/
def getSlot (l : ScriptedLedger) : ScriptedLedger × Outcome UInt64 := (l, .ok l.slot)

/-- A dry run: records the probe's unit limit, then answers the scripted outcome. -/
def simulate (tx : Transaction) (l : ScriptedLedger) : ScriptedLedger × Outcome SimulationOutcome :=
  let l := { l with simulatedLimits := l.simulatedLimits ++ [ComputeBudget.computeUnitLimit tx.message] }
  match l.simulation with
  | .ok o => (l, .ok o)
  | .error reason => (l, fail (.rpc reason))

/-- Sends wire bytes: records them, fails if a failing send is due, else answers the first
signature of the transaction they hold. -/
def sendRawTransaction (wire : List UInt8) (l : ScriptedLedger) : ScriptedLedger × Outcome Signature :=
  let l := { l with sendCalls := l.sendCalls + 1, sentSizes := l.sentSizes ++ [wire.length] }
  if l.sendsToSkip > 0 then
    let l := { l with sendsToSkip := l.sendsToSkip - 1 }
    (l, decodeSignature wire)
  else if l.sendsToFail > 0 then
    ({ l with sendsToFail := l.sendsToFail - 1 }, fail (.rpc "send rejected"))
  else (l, decodeSignature wire)
where
  decodeSignature (wire : List UInt8) : Outcome Signature :=
    match Transaction.decode wire with
    | .ok tx => .ok tx.firstSignature
    | .error e => .error (.foreign e.message)

/-- The next scripted status; unknown once the queue is empty. -/
def getSignatureStatus (l : ScriptedLedger) : ScriptedLedger × Outcome SignatureStatus :=
  let l := { l with statusCalls := l.statusCalls + 1 }
  match l.statuses with
  | [] => (l, .ok .unknown)
  | .status s :: rest => ({ l with statuses := rest }, .ok s)
  | .rpcError r :: rest => ({ l with statuses := rest }, fail (.rpc r))

/-- A lookup table; an unknown one is an account not found. -/
def getAddressLookupTable (k : Pubkey) (l : ScriptedLedger) : ScriptedLedger × Outcome LookupTable :=
  let l := { l with lookupTableCalls := l.lookupTableCalls + 1 }
  match l.readFailure with
  | some e => (l, .error e)
  | none =>
    match l.lookupTables.find? (·.key = k) with
    | some t => (l, .ok t)
    | none => (l, fail (.accountNotFound k))

/-- The scripted ledger as the client's ledger, inside larger surroundings. -/
def ledger (view : σ → ScriptedLedger) (update : ScriptedLedger → σ → σ) : Ledger σ where
  getAccount k := onLedger view update (getAccount k)
  getMultipleAccounts ks := onLedger view update (getMultipleAccounts ks)
  getLatestBlockhash := onLedger view update getLatestBlockhash
  getSlot := onLedger view update getSlot
  simulate tx := onLedger view update (simulate tx)
  sendRawTransaction wire _ := onLedger view update (sendRawTransaction wire)
  getSignatureStatus _ := onLedger view update getSignatureStatus
  getAddressLookupTable k := onLedger view update (getAddressLookupTable k)

end Scripted

end PerpClient
