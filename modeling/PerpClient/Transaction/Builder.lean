import PerpClient.Transaction.Compile
import PerpClient.Transaction.Sign
import PerpClient.Transaction.ComputeBudget
import PerpClient.Ledger.Rpc
import PerpClient.Budget
/-!
# Building transactions

A transaction is built on a block hash (given, or the latest one), compiled in the legacy
format or in format 0 with lookup tables (given, or the market lookup table, fetched once and
kept), and prefixed with compute budget instructions: the unit limit, then the unit price when
it is not zero.

With a simulated budget, a probe asking for the most units is dry-run first and the limit is
sized from what it consumed. A failed dry run either ends the build (the policy says so) or
falls back to the policy's units; so does a dry run that reports no consumption. A built
transaction is unsigned and must fit one packet.

A legacy message whose counts do not fit a byte stops the builder (a defect); a format-0
message that does not compile is a client error. The builder is written over its message
compilers (`MessageCompiler`, `buildWith`); the client builds with the Solana ones (`build`).

* `withComputeBudget_head`: the unit limit is always the first instruction.
-/

namespace PerpClient

/-- How to build a transaction. -/
structure BuildParams where
  payer : Pubkey
  version : TransactionVersion
  budget : Budget.Policy
  /-- Format 0 only; the market lookup table stands in when absent. -/
  lookupTables : Option (List LookupTable)
  blockhash : Option Blockhash
  deriving Inhabited

/-- A built transaction, or the dry run's failure when the policy ends the build on it. -/
inductive BuildResult where
  | ready (tx : Transaction)
  | simulationFailed (error : String) (logs : List String)
  deriving Inhabited

/-- The transaction of a result, if it is ready. -/
def BuildResult.ready? : BuildResult → Option Transaction
  | .ready tx => some tx
  | .simulationFailed _ _ => none

/-- The most bytes a transaction may take on the wire. -/
def packetDataSize : Nat := 1232

/-- The message compilers a build uses: the legacy one, and the format-0 one with lookup
tables. -/
structure MessageCompiler where
  legacy : List Instruction → Pubkey → Blockhash → Except CompileError Message
  v0 : List Instruction → Pubkey → List LookupTable → Blockhash → Except CompileError Message

/-- The compilers of the Solana SDK. -/
def MessageCompiler.solana : MessageCompiler := ⟨Compile.legacy, Compile.v0⟩

/-- What the builder needs of its surroundings: the ledger, the market lookup table's address,
and a cell that keeps the table once fetched. -/
structure BuilderEnv (σ : Type) where
  ledger : Ledger σ
  marketLookupTable : Pubkey
  cachedTable : σ → Option LookupTable
  cacheTable : LookupTable → σ → σ

namespace Builder

variable {σ : Type}

/-- Fails the client computation with a failure. -/
def liftOutcome {α : Type} (o : Outcome α) : Client σ α :=
  match o with
  | .ok a => pure a
  | .error e => throw e

/-- The market lookup table: the kept one, or fetched and kept (a failed fetch keeps nothing). -/
def fetchMarketLookupTable (env : BuilderEnv σ) : Client σ LookupTable := do
  match env.cachedTable (← get) with
  | some t => pure t
  | none =>
    let t ← env.ledger.getAddressLookupTable env.marketLookupTable
    modify (env.cacheTable t)
    pure t

/-- The lookup tables of a build: none for legacy, else the given ones or the market's. -/
def lookupTablesFor (env : BuilderEnv σ) (params : BuildParams) : Client σ (List LookupTable) :=
  match params.version, params.lookupTables with
  | .legacy, _ => pure []
  | .v0, some tables => pure tables
  | .v0, none => do pure [← fetchMarketLookupTable env]

/-- The instructions behind the compute budget instructions. -/
def withComputeBudget (instructions : List Instruction) (units : UInt32) (price : UInt64) :
    List Instruction :=
  ComputeBudget.setComputeUnitLimit units ::
    ((if price > 0 then [ComputeBudget.setComputeUnitPrice price] else []) ++ instructions)

/-- The unit limit is always the first instruction. -/
theorem withComputeBudget_head (instructions : List Instruction) (units : UInt32) (price : UInt64) :
    (withComputeBudget instructions units price).head? = some (ComputeBudget.setComputeUnitLimit units) :=
  rfl

/-- An unsigned transaction of the instructions in the format asked for, compiled by `mc`. -/
def compileWith (mc : MessageCompiler) (instructions : List Instruction) (params : BuildParams)
    (tables : List LookupTable) (blockhash : Blockhash) : Outcome Transaction :=
  match params.version with
  | .legacy =>
    match mc.legacy instructions params.payer blockhash with
    | .ok m => .ok (Transaction.unsigned m)
    | .error e => .error (.defect ("overflow when compiling message keys: " ++ e.name))
  | .v0 =>
    match mc.v0 instructions params.payer tables blockhash with
    | .ok m => .ok (Transaction.unsigned m)
    | .error e => fail (.messageCompile e.message)

/-- An unsigned transaction of the instructions in the format asked for. -/
def compile (instructions : List Instruction) (params : BuildParams) (tables : List LookupTable)
    (blockhash : Blockhash) : Outcome Transaction :=
  compileWith .solana instructions params tables blockhash

/-- The units and price to build with, or the dry run's failure when it ends the build; the
probe is compiled by `mc`. -/
def chooseBudgetWith (mc : MessageCompiler) (env : BuilderEnv σ) (instructions : List Instruction)
    (params : BuildParams) (tables : List LookupTable) (blockhash : Blockhash) :
    Client σ (Except (String × List String) (UInt32 × UInt64)) := do
  match params.budget with
  | .fixed units price => pure (.ok (units, price))
  | .simulated price multiplier lowerBound fallbackUnits exitEarly =>
    let probe ← liftOutcome
      (compileWith mc (withComputeBudget instructions Budget.maxComputeUnits price) params tables
        blockhash)
    let outcome ← env.ledger.simulate probe
    match outcome.error, outcome.unitsConsumed with
    | some error, _ =>
      if exitEarly then pure (.error (error, outcome.logs)) else pure (.ok (fallbackUnits, price))
    | none, some consumed => pure (.ok (Budget.unitsFromSimulation consumed multiplier lowerBound, price))
    | none, none => pure (.ok (fallbackUnits, price))

/-- The units and price to build with, or the dry run's failure when it ends the build. -/
def chooseBudget (env : BuilderEnv σ) (instructions : List Instruction) (params : BuildParams)
    (tables : List LookupTable) (blockhash : Blockhash) :
    Client σ (Except (String × List String) (UInt32 × UInt64)) :=
  chooseBudgetWith .solana env instructions params tables blockhash

/-- Builds one unsigned transaction, compiled by `mc`. -/
def buildWith (mc : MessageCompiler) (env : BuilderEnv σ) (instructions : List Instruction)
    (params : BuildParams) : Client σ BuildResult := do
  let blockhash ← match params.blockhash with
    | some b => pure b
    | none => env.ledger.getLatestBlockhash
  let tables ← lookupTablesFor env params
  match ← chooseBudgetWith mc env instructions params tables blockhash with
  | .error (error, logs) => pure (.simulationFailed error logs)
  | .ok (units, price) =>
    let tx ← liftOutcome
      (compileWith mc (withComputeBudget instructions units price) params tables blockhash)
    let size := tx.wireSize
    if size > packetDataSize then throw (.client (.transactionTooLarge size packetDataSize))
    pure (.ready tx)

/-- Builds one unsigned transaction. -/
def build (env : BuilderEnv σ) (instructions : List Instruction) (params : BuildParams) :
    Client σ BuildResult :=
  buildWith .solana env instructions params

/-- The params with a block hash: the given one, or the latest. -/
def withSharedBlockhash (env : BuilderEnv σ) (params : BuildParams) : Client σ BuildParams := do
  match params.blockhash with
  | some _ => pure params
  | none => pure { params with blockhash := some (← env.ledger.getLatestBlockhash) }

/-- Builds one transaction per instruction set, all on one block hash; the first failure ends
the whole. -/
def buildBulk (env : BuilderEnv σ) (sets : List (List Instruction)) (params : BuildParams) :
    Client σ (List BuildResult) := do
  let params ← withSharedBlockhash env params
  sets.mapM fun ixs => build env ixs params

/-- Builds named transactions on one block hash, by ascending name (of two sets with one name
the later stays); the first failure ends the whole. -/
def buildMap (env : BuilderEnv σ) (sets : List (String × List Instruction)) (params : BuildParams) :
    Client σ (List (String × BuildResult)) := do
  let params ← withSharedBlockhash env params
  (Ordered.ofList compare sets).mapM fun (name, ixs) => do pure (name, ← build env ixs params)

end Builder

/-- What to build: one instruction set, a bulk of sets, or named sets. -/
inductive BuildRequest where
  | single (ixs : List Instruction)
  | bulk (sets : List (List Instruction))
  | named (sets : List (String × List Instruction))

/-- What a build request gives: one result, one per set, or one per name. -/
inductive BuildAnswer where
  | single (r : BuildResult)
  | bulk (rs : List BuildResult)
  | named (rs : List (String × BuildResult))

/-- The ready transactions of an answer by name, in result order: a single one is named `0`,
those of a bulk by their position. -/
def BuildAnswer.ready : BuildAnswer → List (String × Transaction)
  | .single r => (r.ready?.map ("0", ·)).toList
  | .bulk rs => (rs.zipIdx.filterMap fun (r, i) => r.ready?.map (toString i, ·))
  | .named rs => rs.filterMap fun (n, r) => r.ready?.map (n, ·)

namespace Builder

variable {σ : Type}

/-- Builds what a request asks for. -/
def run (env : BuilderEnv σ) (req : BuildRequest) (params : BuildParams) : Client σ BuildAnswer :=
  match req with
  | .single ixs => BuildAnswer.single <$> build env ixs params
  | .bulk sets => BuildAnswer.bulk <$> buildBulk env sets params
  | .named sets => BuildAnswer.named <$> buildMap env sets params

end Builder

end PerpClient
