import PerpClient.Api.Steps
import PerpClient.Remaining.Resolver
/-!
# The resolver request

`resolver {perp_markets, spot_markets, oracle_writable_perp_markets?, steps}` drives one
resolver and one last-active slot table over markets given as records; of two records with one
index the later is the one looked up. Without `oracle_writable_perp_markets` the resolver has
the prelaunch rule; with it, an oracle is writable for exactly the listed markets.
-/

namespace PerpClient.Api

open Json

/-- A slot table as `{perp, spot, is_empty}`. -/
def slotTableOut (t : SlotTable) : Value :=
  let side := fun (xs : List (UInt16 × UInt64)) =>
    Value.arr (xs.map fun (i, s) => .arr [.nat i.toNat, .nat s.toNat])
  .obj [("perp", side t.perp), ("spot", side t.spot), ("is_empty", .bool t.isEmpty)]

/-- Forced markets as `{perp, spot}`. -/
def mustIncludeOut (m : MustInclude) : Value :=
  .obj [("perp", .arr (m.perp.map fun i => .nat i.toNat)),
    ("spot", .arr (m.spot.map fun i => .nat i.toNat))]

/-- An account meta as `{pubkey, is_writable, is_signer}`. -/
def metaOut (m : AccountMeta) : Value :=
  .obj [("pubkey", keyOut m.pubkey), ("is_writable", .bool m.isWritable),
    ("is_signer", .bool m.isSigner)]

/-- The params of one resolution. -/
def readParams (v : Value) : Option RemainingParams := do
  pure {
    userAccounts := ← (← list v "user_accounts").mapM readUser
    writablePerp := ← indexList v "writable_perp_market_indexes"
    writableSpot := ← indexList v "writable_spot_market_indexes"
    readablePerp := ← indexList v "readable_perp_market_indexes"
    readableSpot := ← indexList v "readable_spot_market_indexes"
    useSlotTable := ← flag v "use_market_last_slot_cache"
    userNotAvailable := ← flag v "user_account_not_available" }

/-- A step on the slot table alone, with `clear` named `clearName`. -/
def tableStep (clearName : String) (t : SlotTable) (v : Value) :
    Option (Option (SlotTable × Value)) := do
  let name ← stepName v
  if name = clearName then return some (SlotTable.empty, slotTableOut SlotTable.empty)
  match name with
  | "record_perp" =>
    let t' := t.recordPerp (← word v "index" 16).toUInt16 (← word v "slot" 64).toUInt64
    pure (some (t', slotTableOut t'))
  | "record_spot" =>
    let t' := t.recordSpot (← word v "index" 16).toUInt16 (← word v "slot" 64).toUInt64
    pure (some (t', slotTableOut t'))
  | "perp_slot" =>
    pure (some (t, ((t.perpSlot (← word v "index" 16).toUInt16).map fun s => .nat s.toNat).getD .null))
  | "spot_slot" =>
    pure (some (t, ((t.spotSlot (← word v "index" 16).toUInt16).map fun s => .nat s.toNat).getD .null))
  | "is_empty" => pure (some (t, .bool t.isEmpty))
  | "table" => pure (some (t, slotTableOut t))
  | _ => pure none

/-- A `resolve {params, user_slot?}` step against a market lookup. -/
def resolveStep (r : Resolver) (markets : MarketLookup) (t : SlotTable) (v : Value) :
    Option (SlotTable × Value) := do
  let params ← match v.field? "params" with
    | some p => readParams p
    | none => readParams (.obj [])
  let userSlot ← wordOpt v "user_slot" 64
  let (t', result) := r.resolve params markets t (userSlot.map Nat.toUInt64)
  match result with
  | .ok metas => pure (t', .arr (metas.map metaOut))
  | .error e => pure (t', clientErrorOut e e.message)

/-- A step on the resolver's forced markets. -/
def mustIncludeStep (r : Resolver) (v : Value) : Option (Option (Resolver × Value)) := do
  match ← stepName v with
  | "must_include" =>
    let r' := r.mustIncludeMarkets (← indexList v "perp") (← indexList v "spot")
    pure (some (r', mustIncludeOut r'.mustInclude))
  | "get_must_include" => pure (some (r, mustIncludeOut r.mustInclude))
  | "debug" => pure (some (r, .str r.describe))
  | _ => pure none

/-- One step of the resolver request. -/
def resolverStep (markets : MarketLookup) (s : Resolver × SlotTable) (v : Value) :
    Option ((Resolver × SlotTable) × Value) := do
  let (r, t) := s
  if let some (t', out) ← tableStep "clear" t v then return ((r, t'), out)
  if let some (r', out) ← mustIncludeStep r v then return ((r', t), out)
  if (← stepName v) = "resolve" then
    let (t', out) ← resolveStep r markets t v
    return ((r, t'), out)
  none

/-- The lookup of markets given as records; the later of two records with one index wins. -/
def recordLookup (perps : List PerpMarket) (spots : List SpotMarket) : MarketLookup :=
  ⟨fun i => perps.reverse.find? (·.marketIndex = i), fun i => spots.reverse.find? (·.marketIndex = i)⟩

/-- The resolver a request asks for. -/
def readResolver (v : Value) : Option Resolver :=
  match v.field? "oracle_writable_perp_markets" with
  | none => some Resolver.default
  | some _ => do
    let writable ← indexList v "oracle_writable_perp_markets"
    pure (Resolver.new fun m => m.marketIndex ∈ writable)

/-- `resolver {perp_markets, spot_markets, oracle_writable_perp_markets?, steps}`. -/
def resolverOp (v : Value) : Option Value := do
  let perps ← (← list v "perp_markets").mapM readPerpMarket
  let spots ← (← list v "spot_markets").mapM readSpotMarket
  let r ← readResolver v
  runSteps (resolverStep (recordLookup perps spots)) (r, SlotTable.empty) v

end PerpClient.Api
