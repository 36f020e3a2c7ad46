import PerpClient.Api.Ledger
import PerpClient.Transaction.Builder
/-!
# The build request

`build {ledger, market_lookup_table?, params, instructions | bulk | map, sign_with?}` scripts a
ledger, builds on it and answers the result, the ledger counters and, with `sign_with`, each
ready transaction signed by the keys of the given seeds.
-/

namespace PerpClient.Api

open Json

/-- An account meta `{pubkey, is_signer, is_writable}`. -/
def readAccountMeta (v : Value) : Option AccountMeta := do
  pure ⟨← key v "pubkey", ← flag v "is_signer", ← flag v "is_writable"⟩

/-- The read-only filler accounts of an instruction: spot market addresses from index 60000 on. -/
def dummyAccounts (n : Nat) : List AccountMeta :=
  (List.range n).map fun i => ⟨Program.spotMarketAddress (60000 + i).toUInt16, false, false⟩

/-- An instruction `{program_id, accounts, data_hex, dummy_accounts?}`. -/
def readInstruction (v : Value) : Option Instruction := do
  let program ← keyReq v "program_id"
  let accounts ← (← list v "accounts").mapM readAccountMeta
  let data ← hexField v "data_hex"
  let extra ← word v "dummy_accounts" 64
  pure ⟨program, accounts ++ dummyAccounts extra, data⟩

/-- A list of instructions. -/
def readInstructions (v : Value) : Option (List Instruction) := do
  (← v.arr?).mapM readInstruction

/-- A budget `{"type": "Fixed" | "Simulated", ...}`. -/
def readBudget (v : Value) : Option Budget.Policy := do
  match ← textReq v "type" with
  | "Fixed" =>
    pure (.fixed (← wordOr v "units" 32 Budget.defaultComputeUnits.toNat).toUInt32
      (← word v "price" 64).toUInt64)
  | "Simulated" =>
    let multiplier ← match v.field? "buffer_multiplier" with
      | none => some Budget.defaultBufferMultiplier
      | some x => x.float?
    pure (.simulated (← word v "price" 64).toUInt64 multiplier
      ((← wordOpt v "lower_bound" 32).map Nat.toUInt32)
      (← wordOr v "fallback_units" 32 Budget.defaultComputeUnits.toNat).toUInt32
      (← flag v "exit_early_on_failure"))
  | _ => none

/-- A format name. -/
def versionOfName? : String → Option TransactionVersion
  | "Legacy" => some .legacy
  | "V0" => some .v0
  | _ => none

/-- The name of a format. -/
def versionName : TransactionVersion → String
  | .legacy => "Legacy"
  | .v0 => "V0"

/-- Build params over defaults: the given fields replace the default's. -/
def readParamsOver (base : BuildParams) (v : Value) : Option BuildParams := do
  let payer ← match v.field? "payer" with
    | none => pure base.payer
    | some x => pubkey? x
  let version ← match v.field? "version" with
    | none => pure base.version
    | some x => x.str?.bind versionOfName?
  let budget ← match v.field? "budget" with
    | none => pure base.budget
    | some x => readBudget x
  let tables ← match v.field? "lookup_tables" with
    | none => pure base.lookupTables
    | some x => do pure (some (← (← x.arr?).mapM readLookupTable))
  let blockhash ← match v.field? "blockhash" with
    | none => pure base.blockhash
    | some x => (blockhash? x).map some
  pure ⟨payer, version, budget, tables, blockhash⟩

/-- The default build params: the zero payer, format 0, a fixed default budget. -/
def defaultBuildParams : BuildParams :=
  ⟨Pubkey.zero, .v0, .fixed Budget.defaultComputeUnits 0, none, none⟩

/-- A transaction as `{version, hex, size, signature, blockhash, cu_limit}`. -/
def txOut (tx : Transaction) : Value :=
  let bytes := tx.encode
  .obj [("version", .str (versionName tx.message.version)), ("hex", hexOut bytes),
    ("size", .nat bytes.length), ("signature", .str tx.firstSignature.toBase58),
    ("blockhash", .str tx.message.body.recentBlockhash.toBase58),
    ("cu_limit", match ComputeBudget.computeUnitLimit tx.message with
      | some u => .nat u.toNat
      | none => .null)]

/-- A build result as `{"ready": tx}` or `{"simulation_failed": {error, logs}}`. -/
def buildResultOut : BuildResult → Value
  | .ready tx => .obj [("ready", txOut tx)]
  | .simulationFailed error logs =>
    .obj [("simulation_failed", .obj [("error", .str error), ("logs", .arr (logs.map .str))])]

/-- Signs a transaction for an answer: the signed transaction or the signing error. -/
def signedOut (tx : Transaction) (keys : List Signing.Keypair) : Value :=
  match tx.sign keys with
  | .ok signed => txOut signed
  | .error e => let ce := ClientError.signing e.message; clientErrorOut ce ce.message

/-- The build a request asks for: `bulk`, else `map`, else `instructions`. -/
def readBuildRequest (v : Value) : Option BuildRequest := do
  if let some b := v.field? "bulk" then
    return .bulk (← (← b.arr?).mapM readInstructions)
  if let some m := v.field? "map" then
    return .named (← (← m.obj?).mapM fun (name, x) => do pure (name, ← readInstructions x))
  .single <$> readInstructions (← v.field? "instructions")

/-- The surroundings of a build request: the ledger and the kept market lookup table. -/
structure BuildWorld where
  ledger : ScriptedLedger
  table : Option LookupTable

/-- The builder over a build request's surroundings. -/
def buildEnv (marketTable : Pubkey) : BuilderEnv BuildWorld :=
  ⟨Scripted.ledger (·.ledger) (fun l w => { w with ledger := l }), marketTable, (·.table),
    fun t w => { w with table := some t }⟩

/-- A build answer as in the build request: a result, a list of them, or named pairs. -/
def buildAnswerOut : BuildAnswer → Value
  | .single r => buildResultOut r
  | .bulk rs => .arr (rs.map buildResultOut)
  | .named rs => .arr (rs.map fun (n, r) => .arr [.str n, buildResultOut r])

/-- `build {ledger, market_lookup_table?, params, instructions | bulk | map, sign_with?}`. -/
def buildOp (v : Value) : Option Value := do
  let steps ← list v "ledger"
  let ledger ← steps.foldlM (fun l s => do
    let (l', _) ← (← ledgerStep l s)
    pure l') ScriptedLedger.initial
  let marketTable ← match v.field? "market_lookup_table" with
    | none => pure Program.mainnetLookupTable
    | some x => pubkey? x
  let params ← readParamsOver defaultBuildParams (← v.field? "params" <|> some (.obj []))
  let signers ← match v.field? "sign_with" with
    | none => pure none
    | some x => do pure (some (← (← x.arr?).mapM fun s => (s.word? 8).map fun n => seededKeypair n.toUInt8))
  let world : BuildWorld := ⟨ledger, none⟩
  match readBuildRequest v with
  | none => pure (.obj [("result", badInput), ("ledger", ledgerOut ledger)])
  | some req =>
    let (r, world') := (Builder.run (buildEnv marketTable) req params).run.run world
    match r with
    | .error f =>
      if (f.defect?).isSome then pure (failureOut f)
      else pure (.obj [("result", failureOut f), ("ledger", ledgerOut world'.ledger)])
    | .ok answer =>
      let ready := answer.ready.map (·.2)
      let base := [("result", buildAnswerOut answer), ("ledger", ledgerOut world'.ledger)]
      match signers with
      | none => pure (.obj base)
      | some keys => pure (.obj (base ++ [("signed", .arr (ready.map (signedOut · keys)))]))

end PerpClient.Api
