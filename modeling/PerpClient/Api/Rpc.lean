import PerpClient.Api.Loader
import PerpClient.Ledger.Remote
/-!
# The remote ledger request

`rpc {commitment?, replies, calls}` runs the client's ledger calls against a remote ledger
whose transport answers from `replies` (`{method, result}` or `{method, error: {code,
message}}`, each method from its own queue in order). It answers each call's result and every
request the client sent, as `[method, params]`. A call that is malformed is answered
`BadInput` and sends nothing.
-/

namespace PerpClient.Api

open Json

/-- A scripted reply `{method, result}` or `{method, error: {code, message}}`. -/
def readScriptedReply (v : Value) : Option (String × ScriptedReply) := do
  let method ← textReq v "method"
  match v.field? "error" with
  | some e => pure (method, .error (← (e.field? "code").bind Value.int?) (← textReq e "message"))
  | none =>
    let fields ← v.obj?
    pure (method, .result ((fields.lookup "result").getD .null))

/-- Send options `{skip_preflight?, preflight_commitment?, max_retries?, min_context_slot?}`. -/
def readSendConfig (v : Value) : Option SendConfig := do
  let skip ← flag v "skip_preflight"
  let commitment ← match v.field? "preflight_commitment" with
    | none => some none
    | some x => (x.str?.bind Commitment.ofName?).map some
  let retries ← wordOpt v "max_retries" 64
  let minSlot ← wordOpt v "min_context_slot" 64
  pure ⟨skip, commitment, retries, minSlot.map Nat.toUInt64⟩

/-- A dry-run outcome as `{units_consumed, error, logs}`. -/
def simulationOut (o : SimulationOutcome) : Value :=
  .obj [("units_consumed", match o.unitsConsumed with
      | some u => .nat u.toNat
      | none => .null),
    ("error", match o.error with
      | some e => .str e
      | none => .null),
    ("logs", .arr (o.logs.map .str))]

/-- Runs a client call and answers its outcome. -/
def answerWith {σ α : Type} (out : α → Value) (x : Client σ α) : StateM σ Value := do
  pure (outcomeOut out (← x.run))

/-- One call against a ledger, if it is well formed. -/
def readRpcCall {σ : Type} (l : Ledger σ) (c : Value) : Option (StateM σ Value) := do
  match ← textReq c "call" with
  | "get_account" => pure (answerWith loadedOneOut (l.getAccount (← keyReq c "pubkey")))
  | "get_multiple_accounts" => pure (answerWith loadedOut (l.getMultipleAccounts (← keyList c "pubkeys")))
  | "get_latest_blockhash" => pure (answerWith (fun h => .str h.toBase58) l.getLatestBlockhash)
  | "get_slot" => pure (answerWith (fun s => .nat s.toNat) l.getSlot)
  | "simulate" =>
    match Transaction.decode (← hexField c "tx_hex") with
    | .ok tx => pure (answerWith simulationOut (l.simulate tx))
    | .error _ => none
  | "send_raw_transaction" =>
    let wire ← (c.field? "wire_hex").bind hexBytes?
    let config ← match c.field? "config" with
      | none => some SendConfig.default
      | some x => readSendConfig x
    pure (answerWith (fun s => .str s.toBase58) (l.sendRawTransaction wire config))
  | "get_signature_status" =>
    pure (answerWith statusOut (l.getSignatureStatus (← (c.field? "signature").bind signature?)))
  | "get_address_lookup_table" =>
    pure (answerWith lookupTableOut (l.getAddressLookupTable (← keyReq c "pubkey")))
  | _ => none

/-- One call; a malformed one is answered `BadInput`. -/
def rpcCall {σ : Type} (l : Ledger σ) (c : Value) : StateM σ Value :=
  match readRpcCall l c with
  | some act => act
  | none => pure badInput

/-- `rpc {commitment?, replies, calls}` → `{results, requests}`. -/
def rpcOp (v : Value) : Option Value := do
  let commitment ← named v "commitment" Commitment.ofName? .finalized
  let replies ← (← list v "replies").mapM readScriptedReply
  let calls ← list v "calls"
  let ledger := Ledger.remote ReplyScript.transport commitment
  let (results, script) := (calls.mapM (rpcCall ledger)).run ⟨replies, []⟩
  pure (.obj [("results", .arr results),
    ("requests", .arr (script.requests.map fun (m, p) => .arr [.str m, p]))])

end PerpClient.Api
