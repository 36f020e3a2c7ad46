import PerpClient.Api.Tracked
import PerpClient.Api.Resolver
import PerpClient.Api.Cache
import PerpClient.Store.AccountStore
/-!
# The store request

`store {tracked, oracle_writable_perp_markets?, steps}` drives one account store, with a
resolver and a last-active slot table as in the resolver request; the store is the resolver's
market lookup.
-/

namespace PerpClient.Api

open Json

/-- A decode failure as `{pubkey, kind, reason}`. -/
def decodeFailureOut (f : DecodeFailure) : Value :=
  .obj [("pubkey", keyOut f.pubkey), ("kind", .str (kindText f.kind)), ("reason", .str f.reason)]

/-- A result without a value: `"ok"` or the error. -/
def unitResultOut (r : Except ClientError Unit) : Value :=
  match r with
  | .ok () => .str "ok"
  | .error e => clientErrorOut e e.message

/-- A batch outcome with its result. -/
def batchOutcomeOut (o : BatchOutcome) : Value :=
  .obj [("applied", .nat o.applied), ("missing", .arr (o.missing.map keyOut)),
    ("failures", .arr (o.failures.map decodeFailureOut)),
    ("discovered_oracles", .arr (o.discoveredOracles.map oracleInfoOut)),
    ("result", unitResultOut o.result)]

/-- One raw account `{pubkey, kind, data_hex? | record?}`. -/
def readRawAccount (v : Value) : Option (Pubkey × AccountKind × Option (List UInt8)) := do
  pure (← key v "pubkey", ← kindField v "kind", ← readAccountData v)

/-- One step on the store itself. -/
def storeOwnStep (s : AccountStore) (v : Value) : Option (AccountStore × Value) := do
  match ← stepName v with
  | "apply_batch" =>
    let accounts ← (← list v "accounts").mapM readRawAccount
    let (s', outcome) := s.applyBatch accounts (← word v "slot" 64).toUInt64
    pure (s', batchOutcomeOut outcome)
  | "track" =>
    let (s', added) := s.track (← (v.field? "tracked").bind readTracked)
    pure (s', targetsOut added)
  | "track_oracles" =>
    let oracles ← (← list v "oracles").mapM readOracleInfo
    let (s', added) := s.track (AccountStore.oraclesToTrack oracles)
    pure (s', targetsOut added)
  | "clear" => pure (s.clear, .nat s.clear.cache.size)
  | "tracked" => pure (s, trackedOut s.tracked)
  | "targets" => pure (s, targetsOut s.targets)
  | "has_required_accounts" => pure (s, .bool s.hasRequiredAccounts)
  | "state" => pure (s, stampedOpt (fun a => .obj (stateFields a)) s.state)
  | "perp_market" =>
    pure (s, stampedOpt (fun m => .obj (perpMarketFields m)) (s.perpMarket (← word v "index" 16).toUInt16))
  | "spot_market" =>
    pure (s, stampedOpt (fun m => .obj (spotMarketFields m)) (s.spotMarket (← word v "index" 16).toUInt16))
  | "perp_markets" => pure (s, .arr (s.perpMarkets.map (stampedOut fun m => .obj (perpMarketFields m))))
  | "spot_markets" => pure (s, .arr (s.spotMarkets.map (stampedOut fun m => .obj (spotMarketFields m))))
  | "oracle" => pure (s, stampedOpt (fun p => .obj (oracleFields p)) (s.oracle (← keyReq v "pubkey")))
  | "user" => pure (s, stampedOpt (fun u => .obj (userFields u)) (s.user (← keyReq v "pubkey")))
  | "cache_len" => pure (s, .nat s.cache.size)
  | "cached" =>
    let sorted := s.cache.toList.mergeSort fun a b => Pubkey.compareBytes a.1 b.1 ≠ .gt
    pure (s, .arr (sorted.map fun (k, e) =>
      .obj [("pubkey", keyOut k), ("slot", .nat e.slot.toNat), ("data", accountOut e.data)]))
  | _ => none

/-- One step of the store request. -/
def storeStep (r : Resolver) (st : AccountStore × SlotTable) (v : Value) :
    Option ((AccountStore × SlotTable) × Value) := do
  let (s, t) := st
  if let some (t', out) ← tableStep "clear_table" t v then return ((s, t'), out)
  if (← stepName v) = "resolve" then
    let (t', out) ← resolveStep r s.markets t v
    return ((s, t'), out)
  let (s', out) ← storeOwnStep s v
  pure ((s', t), out)

/-- `store {tracked, oracle_writable_perp_markets?, steps}`. -/
def storeOp (v : Value) : Option Value := do
  let tracked ← match v.field? "tracked" with
    | some t => readTracked t
    | none => some TrackedAccounts.empty
  let r ← readResolver v
  runSteps (storeStep r) (AccountStore.new tracked AccountDecoder.borsh, SlotTable.empty) v

end PerpClient.Api
