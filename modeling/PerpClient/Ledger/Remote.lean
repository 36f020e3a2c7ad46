import PerpClient.Ledger.Rpc
import PerpClient.Ledger.TableAccount
import PerpClient.Bytes.Base64
import PerpClient.Bytes.Zstd
/-!
# A ledger behind a request transport

The client talks to a remote ledger in JSON requests: a method name and a list of parameters
go out, a JSON result comes back, or the text of why none came. Every request carries the
commitment the client was set up with.

* Account reads ask for compressed base64 data; data that does not decode (bad base64 or
  base58, a compressed stream this reader cannot read, data already parsed by the ledger, an
  owner that is no address) counts as an absent account.
* A failed account read says which account it was: `AccountNotFound: pubkey=K: <why>`, and
  `AccountNotFound: pubkey=K` when the ledger answers `null`; a reply of the wrong shape is
  reported as it is.
* A block hash that is not 32 bytes of base58 is a parse error; a signature that does not
  parse is a foreign error noted `rpc returned an invalid signature`.
* A signature's status is its error when it failed; otherwise it is confirmed when it reached
  the client's commitment, and pending before that.
* A lookup table is read from its account; one that does not hold a table is a foreign error
  `invalid lookup table K: <why>`.

Failures of the transport and of reading replies are ledger errors with the text they give.
-/

namespace PerpClient

open Json Json.Reading

/-- How requests reach the ledger: a method and its parameters go out; a JSON result, or the
text of why there is none, comes back. -/
abbrev Transport (σ : Type) := String → Value → StateM σ (Except String Value)

namespace Remote

/-! ## Request parameters -/

/-- The commitment parameter of a request. -/
def commitmentParam (c : Commitment) : Value := .obj [("commitment", .str c.name)]

/-- The options of an account read: the whole data, compressed base64, at the commitment. -/
def accountConfig (c : Commitment) : Value :=
  .obj [("commitment", .str c.name), ("dataSlice", .null), ("encoding", .str "base64+zstd"),
    ("minContextSlot", .null)]

/-- The options of a dry run: no signature check, the block hash replaced by a recent one. -/
def simulateConfig (c : Commitment) : Value :=
  .obj [("accounts", .null), ("commitment", .str c.name), ("encoding", .str "base64"),
    ("innerInstructions", .bool false), ("minContextSlot", .null),
    ("replaceRecentBlockhash", .bool true), ("sigVerify", .bool false)]

/-- The options of a send, with the wire bytes in base64. -/
def sendConfig (o : SendConfig) : Value :=
  .obj [("encoding", .str "base64"),
    ("maxRetries", match o.maxRetries with
      | some n => .nat n
      | none => .null),
    ("minContextSlot", match o.minContextSlot with
      | some s => .nat s.toNat
      | none => .null),
    ("preflightCommitment", match o.preflightCommitment with
      | some c => .str c.name
      | none => .null),
    ("skipPreflight", .bool o.skipPreflight)]

/-! ## Replies -/

/-- A reply's value with the slot it was served at. -/
structure Reply (α : Type) where
  slot : UInt64
  value : α

/-- The context of a reply: the slot. -/
def readContext (v : Value) : Reading UInt64 := do
  let fs ← record "RpcResponseContext" [required "slot" u64, optional "apiVersion" string] v
  get fs "slot" u64

/-- A reply whose value is read by `r`. -/
def readReply {α : Type} (r : Value → Reading α) (v : Value) : Reading (Reply α) := do
  let fs ← record "Response" [required "context" readContext, required "value" r] v
  pure ⟨← get fs "context" readContext, ← get fs "value" r⟩

/-- A reply whose value may be missing or `null`. -/
def readOptionalReply {α : Type} (r : Value → Reading α) (v : Value) : Reading (Reply (Option α)) := do
  let fs ← record "Response" [required "context" readContext, optional "value" r] v
  pure ⟨← get fs "context" readContext, ← getOpt fs "value" r⟩

/-! ## Account data -/

/-- How account data is written in a reply. -/
inductive DataEncoding where
  | binary
  | base58
  | base64
  | jsonParsed
  | base64Zstd
  deriving DecidableEq

/-- The names of the encodings, in their order. -/
def encodingNames : List (String × DataEncoding) :=
  [("binary", .binary), ("base58", .base58), ("base64", .base64), ("jsonParsed", .jsonParsed),
    ("base64+zstd", .base64Zstd)]

/-- Reads an encoding by its name. -/
def readEncoding (v : Value) : Reading DataEncoding := do
  let (tag, content) ← variant v
  match encodingNames.lookup tag with
  | some e => unitContent e content
  | none => .error (unknownVariant tag (encodingNames.map (·.1)))

/-- Account data as a reply writes it. -/
inductive EncodedData where
  /-- Base58 text alone. -/
  | legacy (text : String)
  /-- Data the ledger parsed, without its bytes. -/
  | parsed
  /-- Text in the named encoding. -/
  | encoded (text : String) (encoding : DataEncoding)

/-- Whether a value is data the ledger parsed: a record of the program, the parsed value and
the size, as an object or as a sequence of the three. -/
def isParsed (v : Value) : Bool :=
  match v with
  | .arr [p, _, s] => (string p).toOption.isSome && (u64 s).toOption.isSome
  | .obj _ =>
    (record "ParsedAccount" [required "program" string, required "parsed" pure,
      required "space" u64] v).toOption.isSome
  | _ => false

/-- The complaint about data of no known form. -/
def unknownData : String := "data did not match any variant of untagged enum UiAccountData"

/-- Reads account data in any of its forms. -/
def readEncodedData (v : Value) : Reading EncodedData :=
  match v with
  | .str s => .ok (.legacy s)
  | _ =>
    if isParsed v then .ok .parsed
    else
      match v with
      | .arr [.str s, e] =>
        match readEncoding e with
        | .ok enc => .ok (.encoded s enc)
        | .error _ => .error unknownData
      | _ => .error unknownData

/-- The bytes of account data, if they decode. -/
def EncodedData.bytes? : EncodedData → Option (List UInt8)
  | .legacy s => Base58.decode? s
  | .parsed => none
  | .encoded s .base58 => Base58.decode? s
  | .encoded s .base64 => Base64.decode? s
  | .encoded s .base64Zstd => (Base64.decode? s).bind Zstd.decompress?
  | .encoded _ .binary => none
  | .encoded _ .jsonParsed => none

/-- Reads an account of a reply: its data, if the data decodes and the owner is an address. -/
def readAccount (v : Value) : Reading (Option (List UInt8)) := do
  let fs ← record "UiAccount" [required "lamports" u64, required "data" readEncodedData,
    required "owner" string, required "executable" bool, required "rentEpoch" u64,
    optional "space" u64] v
  let data ← get fs "data" readEncodedData
  let owner ← get fs "owner" string
  pure (if (Pubkey.ofBase58? owner).isSome then data.bytes? else none)

/-! ## Block hashes, dry runs and statuses -/

/-- A block hash as text, with the last block height it is valid for. -/
def readBlockhash (v : Value) : Reading (String × UInt64) := do
  let fs ← record "RpcBlockhash" [required "blockhash" string,
    required "lastValidBlockHeight" u64] v
  pure (← get fs "blockhash" string, ← get fs "lastValidBlockHeight" u64)

/-- Reads the outcome of a dry run. -/
def readSimulation (v : Value) : Reading SimulationOutcome := do
  let fs ← record "RpcSimulateTransactionResult" [optional "err" TransactionError.read,
    optional "logs" (seq string), optional "accounts" (seq (option readAccount)),
    optional "unitsConsumed" u64, optional "replacementBlockhash" readBlockhash] v
  let err ← getOpt fs "err" TransactionError.read
  let logs ← getOpt fs "logs" (seq string)
  pure ⟨← getOpt fs "unitsConsumed" u64, err.map TransactionError.message, logs.getD []⟩

/-- Reads a confirmation level by its name. -/
def readConfirmation (v : Value) : Reading Commitment := do
  let (tag, content) ← variant v
  match Commitment.ofName? tag with
  | some c => unitContent c content
  | none => .error (unknownVariant tag ["processed", "confirmed", "finalized"])

/-- The status of a transaction as the ledger reports it. -/
structure LedgerStatus where
  slot : UInt64
  /-- Blocks on top of the transaction's; none once it is final. -/
  confirmations : Option Nat
  err : Option TransactionError
  confirmation : Option Commitment

/-- Reads a transaction status. -/
def readStatus (v : Value) : Reading LedgerStatus := do
  let fs ← record "TransactionStatus" [required "slot" u64, optional "confirmations" usize,
    required "status" readTransactionResult, optional "err" TransactionError.read,
    optional "confirmationStatus" readConfirmation] v
  pure ⟨← get fs "slot" u64, ← getOpt fs "confirmations" usize,
    ← getOpt fs "err" TransactionError.read, ← getOpt fs "confirmationStatus" readConfirmation⟩

/-- Whether a status has reached a commitment. Final means no confirmations are counted any
more; confirmed means past processed, or by the count when the level is not given. -/
def LedgerStatus.reaches (s : LedgerStatus) : Commitment → Bool
  | .finalized => s.confirmations.isNone
  | .confirmed =>
    match s.confirmation, s.confirmations with
    | some c, _ => c != .processed
    | none, none => true
    | none, some n => decide (n > 1)
  | .processed => true

/-- Where a transaction stands for a client at a commitment. -/
def LedgerStatus.toSignatureStatus (c : Commitment) (s : LedgerStatus) : SignatureStatus :=
  match s.err with
  | some e => .failed s.slot e.message
  | none => if s.reaches c then .confirmed s.slot else .pending

/-! ## The ledger -/

variable {σ : Type}

/-- Fails with a ledger error. -/
def fail {α : Type} (text : String) : Client σ α := throw (.client (.rpc text))

/-- Reads a value, failing with the complaint. -/
def readAs {α : Type} (r : Value → Reading α) (v : Value) : Client σ α :=
  match r v with
  | .ok a => pure a
  | .error e => fail e

/-- Sends a request; the answer or the transport's complaint. -/
def request (t : Transport σ) (method : String) (params : Value) : Client σ (Except String Value) :=
  liftM (t method params)

/-- Sends a request and reads its result. -/
def call {α : Type} (t : Transport σ) (method : String) (params : Value) (r : Value → Reading α) :
    Client σ α := do
  match ← request t method params with
  | .error e => fail e
  | .ok v => readAs r v

/-- Reads one account. -/
def getAccount (t : Transport σ) (c : Commitment) (k : Pubkey) :
    Client σ (Stamped (Option (List UInt8))) := do
  let key := k.toBase58
  match ← request t "getAccountInfo" (.arr [.str key, accountConfig c]) with
  | .error e => fail s!"AccountNotFound: pubkey={key}: {e}"
  | .ok .null => fail s!"AccountNotFound: pubkey={key}"
  | .ok v =>
    let r ← readAs (readOptionalReply readAccount) v
    pure ⟨r.value.bind id, r.slot⟩

/-- Reads several accounts in one request. -/
def getMultipleAccounts (t : Transport σ) (c : Commitment) (ks : List Pubkey) :
    Client σ (Stamped (List (Option (List UInt8)))) := do
  let r ← call t "getMultipleAccounts" (.arr [.arr (ks.map fun k => .str k.toBase58), accountConfig c])
    (readReply (seq (option readAccount)))
  pure ⟨r.value.map (·.bind id), r.slot⟩

/-- The latest block hash. -/
def getLatestBlockhash (t : Transport σ) (c : Commitment) : Client σ Blockhash := do
  let r ← call t "getLatestBlockhash" (.arr [commitmentParam c]) (readReply readBlockhash)
  match Blockhash.ofBase58? r.value.1 with
  | some h => pure h
  | none => fail "parse error: expected Hash"

/-- The current slot. -/
def getSlot (t : Transport σ) (c : Commitment) : Client σ UInt64 :=
  call t "getSlot" (.arr [commitmentParam c]) u64

/-- A dry run of a transaction. -/
def simulate (t : Transport σ) (c : Commitment) (tx : Transaction) : Client σ SimulationOutcome := do
  let r ← call t "simulateTransaction" (.arr [.str (Base64.encode tx.encode), simulateConfig c])
    (readReply readSimulation)
  pure r.value

/-- Sends wire bytes; the signature the ledger answers. -/
def sendRawTransaction (t : Transport σ) (wire : List UInt8) (o : SendConfig) : Client σ Signature := do
  let text ← call t "sendTransaction" (.arr [.str (Base64.encode wire), sendConfig o]) string
  match Signature.parse text with
  | .ok s => pure s
  | .error e => throw (.noted "rpc returned an invalid signature" (.foreign e.message))

/-- The status of one signature; unknown when the ledger has none. -/
def getSignatureStatus (t : Transport σ) (c : Commitment) (sig : Signature) :
    Client σ SignatureStatus := do
  let r ← call t "getSignatureStatuses" (.arr [.arr [.str sig.toBase58]])
    (readReply (seq (option readStatus)))
  match r.value with
  | some s :: _ => pure (s.toSignatureStatus c)
  | _ => pure .unknown

/-- The lookup table an account holds. -/
def getAddressLookupTable (t : Transport σ) (c : Commitment) (k : Pubkey) : Client σ LookupTable := do
  let account ← getAccount t c k
  match account.data with
  | none => fail s!"AccountNotFound: pubkey={k.toBase58}"
  | some data =>
    match LookupTable.ofAccountData k data with
    | .ok table => pure table
    | .error e => throw (.foreign s!"invalid lookup table {k.toBase58}: {e.message}")

end Remote

/-- The ledger behind a transport, at a commitment. -/
def Ledger.remote {σ : Type} (t : Transport σ) (c : Commitment) : Ledger σ where
  getAccount := Remote.getAccount t c
  getMultipleAccounts := Remote.getMultipleAccounts t c
  getLatestBlockhash := Remote.getLatestBlockhash t c
  getSlot := Remote.getSlot t c
  simulate := Remote.simulate t c
  sendRawTransaction := Remote.sendRawTransaction t
  getSignatureStatus := Remote.getSignatureStatus t c
  getAddressLookupTable := Remote.getAddressLookupTable t c

/-! ## Scripted replies -/

/-- A scripted reply: a result, or an error the ledger answers with. -/
inductive ScriptedReply where
  | result (v : Value)
  | error (code : Int) (message : String)

/-- A transport that answers from scripted replies, each method from its own queue in order,
and keeps every request it was sent. -/
structure ReplyScript where
  replies : List (String × ScriptedReply)
  requests : List (String × Value)

namespace ReplyScript

/-- The first reply scripted for a method, and the others. -/
def takeReply (method : String) : List (String × ScriptedReply) → Option (ScriptedReply × List (String × ScriptedReply))
  | [] => none
  | (m, r) :: rest =>
    if m = method then some (r, rest)
    else (takeReply method rest).map fun (found, others) => (found, (m, r) :: others)

/-- The transport: records the request, then answers the method's next reply. -/
def transport : Transport ReplyScript := fun method params => do
  modify fun s => { s with requests := s.requests ++ [(method, params)] }
  let s ← get
  match takeReply method s.replies with
  | none => pure (.error s!"no scripted reply for {method}")
  | some (r, rest) =>
    set { s with replies := rest }
    match r with
    | .result v => pure (.ok v)
    | .error code message => pure (.error s!"RPC response error {code}: {message}; ")

end ReplyScript

end PerpClient
