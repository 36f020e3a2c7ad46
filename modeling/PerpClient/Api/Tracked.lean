import PerpClient.Api.Steps
import PerpClient.Store.Tracked
/-!
# Tracked accounts in requests

A tracked set is written either as `{"for_markets": {perp, spot, oracles}}` or by its parts
`{state, perp_markets: [[index, key]], spot_markets, oracles: [[key, source]], users}`; either
form may add `with_users`. Answers write it by its parts, and targets as `[[key, kind]]`.

`tracked {tracked, merge?}` answers the set with its targets, then each merge in turn.
-/

namespace PerpClient.Api

open Json

/-- An oracle `{pubkey, source}`. -/
def readOracleInfo (v : Value) : Option OracleInfo := do
  pure ⟨← key v "pubkey", ← named v "source" OracleSource.ofName? .pyth⟩

/-- A market `[index, key]`. -/
def readMarketPair (v : Value) : Option (UInt16 × Pubkey) := do
  match ← v.arr? with
  | [i, k] => pure ((← i.word? 16).toUInt16, ← pubkey? k)
  | _ => none

/-- An oracle `[key, source]`. -/
def readOraclePair (v : Value) : Option (Pubkey × OracleSource) := do
  match ← v.arr? with
  | [k, s] => pure (← pubkey? k, ← s.str?.bind OracleSource.ofName?)
  | _ => none

/-- A tracked set in either form, with its extra users. -/
def readTracked (v : Value) : Option TrackedAccounts := do
  let base ← match v.field? "for_markets" with
    | some m => do
      let oracles ← (← list m "oracles").mapM readOracleInfo
      pure (TrackedAccounts.forMarkets (← indexList m "perp") (← indexList m "spot") oracles)
    | none => do
      let state ← match v.field? "state" with
        | none => pure none
        | some x => (pubkey? x).map some
      let perps ← (← list v "perp_markets").mapM readMarketPair
      let spots ← (← list v "spot_markets").mapM readMarketPair
      let oracles ← (← list v "oracles").mapM readOraclePair
      pure (TrackedAccounts.ofParts state perps spots oracles (← keyList v "users"))
  pure (base.withUsers (← keyList v "with_users"))

/-- An oracle as `{pubkey, source}`. -/
def oracleInfoOut (o : OracleInfo) : Value :=
  .obj [("pubkey", keyOut o.pubkey), ("source", .str o.source.name)]

/-- A tracked set by its parts. -/
def trackedOut (t : TrackedAccounts) : Value :=
  let market := fun (ip : UInt16 × Pubkey) => Value.arr [.nat ip.1.toNat, keyOut ip.2]
  .obj [("state", (t.state.map keyOut).getD .null),
    ("perp_markets", .arr (t.perpMarkets.map market)),
    ("spot_markets", .arr (t.spotMarkets.map market)),
    ("oracles", .arr (t.oracles.map fun (k, s) => .arr [keyOut k, .str s.name])),
    ("users", .arr (t.users.map keyOut))]

/-- Targets as `[[key, kind]]`. -/
def targetsOut (ts : List (Pubkey × AccountKind)) : Value :=
  .arr (ts.map fun (k, kind) => .arr [keyOut k, .str (kindText kind)])

/-- `tracked {tracked, merge?}`. -/
def trackedOp (v : Value) : Option Value := do
  let t ← (v.field? "tracked").bind readTracked
  let others ← (← list v "merge").mapM readTracked
  let first := Value.obj [("tracked", trackedOut t), ("targets", targetsOut t.targets)]
  let (_, answers) := others.foldl (fun (acc : TrackedAccounts × List Value) o =>
    let (t', added) := acc.1.merge o
    (t', acc.2 ++ [.obj [("added", targetsOut added), ("tracked", trackedOut t')]])) (t, [first])
  pure (.arr answers)

end PerpClient.Api
