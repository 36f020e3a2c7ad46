import PerpClient.Api.Records
import PerpClient.Error
import PerpClient.Time.Duration
import PerpClient.Budget
import PerpClient.Transaction.Wire
import PerpClient.Transaction.ComputeBudget
/-!
# Answers without state

The answer to a malformed request is `{"error": "BadInput"}`. A failure of the client is
`{"error": kind, "message": text}`, where the kind names the client error under the notes
(with `retryable`), or is `Other` for a foreign cause.

The operations here keep no state: decoding and encoding accounts, names, addresses, the
constants, back-off delays, compute unit limits, the limit a wire transaction asks for, and the
text of client errors.
-/

namespace PerpClient.Api

open Json

/-- The answer to a malformed request. -/
def badInput : Value := .obj [("error", .str "BadInput")]

/-- A client error with its kind, text and whether to retry. -/
def clientErrorOut (e : ClientError) (text : String) : Value :=
  .obj [("error", .str e.kindName), ("message", .str text), ("retryable", .bool e.isRetryable)]

/-- A foreign error by its text. -/
def foreignOut (text : String) : Value := .obj [("error", .str "Other"), ("message", .str text)]

/-- A failure: its kind and the whole chain of notes. -/
def failureOut (f : Failure) : Value :=
  match f.defect?, f.clientError? with
  | some text, _ => .obj [("error", .str "panic"), ("message", .str text)]
  | none, some e => clientErrorOut e f.message
  | none, none => foreignOut f.message

/-- An outcome: its value, or the failure. -/
def outcomeOut {α : Type} (f : α → Value) : Outcome α → Value
  | .ok a => f a
  | .error e => failureOut e

/-- `decode {kind, data_hex}`. -/
def decodeOp (v : Value) : Option Value := do
  let kind ← kindField v "kind"
  let data ← (v.field? "data_hex").bind hexBytes?
  match decodeAccount kind data with
  | .ok a => pure (accountOut a)
  | .error e => pure (foreignOut e.message)

/-- `encode {record}`. -/
def encodeOp (v : Value) : Option Value := do
  let body ← (v.field? "record").bind readRecordBody
  pure (hexOut (encodeAccount body))

/-- `decode_name {name_hex}`. -/
def decodeNameOp (v : Value) : Option Value := do
  let bs ← (v.field? "name_hex").bind hexBytes?
  if bs.length ≠ 32 then none
  pure (.str (Name.decode bs))

/-- `address {of}`. -/
def addressOp (v : Value) : Option Value := (keyReq v "of").map keyOut

/-- `constants`. -/
def constantsOp : Value :=
  .obj [("PERPS_PROGRAM_ID", keyOut Program.programId),
    ("DEVNET_LOOKUP", keyOut Program.devnetLookupTable),
    ("MAINNET_LOOKUP", keyOut Program.mainnetLookupTable),
    ("STATE_ACCOUNT", keyOut Program.stateAccount), ("NO_ORACLE", keyOut Program.noOracle),
    ("QUOTE_SPOT_MARKET_INDEX", .nat Program.quoteSpotMarketIndex.toNat),
    ("PRICE_PRECISION", .int Program.pricePrecision.toInt),
    ("DEFAULT_COMPUTE_UNITS", .nat Budget.defaultComputeUnits.toNat),
    ("MAX_COMPUTE_UNITS", .nat Budget.maxComputeUnits.toNat),
    ("DISCRIMINATOR_LEN", .nat discriminatorLength)]

/-- A duration object `{secs, nanos}` with `nanos` below a second. -/
def readDuration (v : Value) : Option Duration := do
  let secs ← word v "secs" 64
  let nanos ← word v "nanos" 32
  if nanos ≥ nanosPerSecond then none
  pure (Duration.ofNanos (secs * nanosPerSecond + nanos))

/-- A duration as `{secs, nanos}`. -/
def durationOut (d : Duration) : Value :=
  .obj [("secs", .nat d.secs), ("nanos", .nat d.subsecNanos)]

/-- `backoff {base, attempt, max}`. -/
def backoffOp (v : Value) : Option Value := do
  let base ← (v.field? "base").bind readDuration
  let cap ← (v.field? "max").bind readDuration
  let attempt ← wordReq v "attempt" 32
  pure (durationOut (exponentialBackoff base attempt cap))

/-- `compute_units {consumed, buffer_multiplier, lower_bound?}`. -/
def computeUnitsOp (v : Value) : Option Value := do
  let consumed ← wordReq v "consumed" 64
  let multiplier ← (v.field? "buffer_multiplier").bind Value.float?
  let lower ← wordOpt v "lower_bound" 32
  pure (.nat (Budget.unitsFromSimulation consumed.toUInt64 multiplier
    (lower.map Nat.toUInt32)).toNat)

/-- `cu_limit {tx_hex}`. -/
def cuLimitOp (v : Value) : Option Value := do
  let bs ← (v.field? "tx_hex").bind hexBytes?
  match Transaction.decode bs with
  | .error e => pure (foreignOut e.message)
  | .ok tx =>
    match ComputeBudget.computeUnitLimit tx.message with
    | some u => pure (.nat u.toNat)
    | none => pure .null

/-- One decode failure object. -/
def readDecodeFailure (v : Value) : Option DecodeFailure := do
  pure { pubkey := ← key v "pubkey", kind := ← kindField v "kind", reason := ← text v "reason" }

/-- A client error object by its `variant`. -/
def readClientError (v : Value) : Option ClientError := do
  match ← textReq v "variant" with
  | "Rpc" => pure (.rpc (← text v "text"))
  | "AccountNotFound" => pure (.accountNotFound (← key v "pubkey"))
  | "Decode" => ClientError.ofDecodeFailures (← (← list v "failures").mapM readDecodeFailure)
  | "PerpMarketNotLoaded" => pure (.perpMarketNotLoaded (← word v "index" 16).toUInt16)
  | "SpotMarketNotLoaded" => pure (.spotMarketNotLoaded (← word v "index" 16).toUInt16)
  | "MissingUserAccount" => pure .missingUserAccount
  | "TransactionTooLarge" => pure (.transactionTooLarge (← word v "size" 64) (← word v "limit" 64))
  | "MessageCompile" => pure (.messageCompile (← text v "text"))
  | "Signing" => pure (.signing (← text v "text"))
  | "TransactionFailed" =>
    pure (.transactionFailed (← signatureField v "signature") (← word v "slot" 64).toUInt64
      (← text v "reason"))
  | "ConfirmationTimeout" =>
    pure (.confirmationTimeout (← signatureField v "signature")
      (← word v "timeout_count" 64).toUInt64)
  | _ => none

/-- `error {of}`: the text of a client error and whether to retry it. -/
def errorOp (v : Value) : Option Value := do
  let e ← (v.field? "of").bind readClientError
  pure (.obj [("kind", .str e.kindName), ("message", .str e.message),
    ("retryable", .bool e.isRetryable)])

end PerpClient.Api
