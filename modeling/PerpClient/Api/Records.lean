import PerpClient.Api.Input
import PerpClient.Account.Decoded
import PerpClient.Text.Name
/-!
# Records in JSON

Records are read from objects with the field names of their layout (`admin`,
`number_of_markets`, …) and every field defaulting to zero; a name is `name_hex` (32 raw bytes)
or `name` (UTF-8 text of at most 32 bytes, NUL-padded); a user lists at most eight positions of
each kind, the missing ones being empty.

Records are written with every field: addresses in base58, raw bytes in hex, a name also as its
text (`name_text`), positions with whether they are available, and a user with the markets of
its active positions. A decoded account adds its `type` and its `kind`.
-/

namespace PerpClient.Api

open Json

/-- A name: `name_hex` as 32 raw bytes, or `name` as UTF-8 text padded with NULs. -/
def nameField (v : Value) : Option (FixedBytes 32) :=
  match v.field? "name_hex" with
  | some x => do
    let bs ← hexBytes? x
    if h : bs.length = 32 then some ⟨bs, h⟩ else none
  | none =>
    match v.field? "name" with
    | none => some (FixedBytes.zeros 32)
    | some x => do
      let bs := (← x.str?).toUTF8.toList
      if bs.length ≤ 32 then some (FixedBytes.ofList 32 bs) else none

/-- A program state object. -/
def readState (v : Value) : Option ProgramState := do
  pure {
    admin := ← key v "admin", whitelistMint := ← key v "whitelist_mint",
    discountMint := ← key v "discount_mint", signer := ← key v "signer",
    numberOfAuthorities := (← word v "number_of_authorities" 64).toUInt64,
    numberOfSubAccounts := (← word v "number_of_sub_accounts" 64).toUInt64,
    numberOfMarkets := (← word v "number_of_markets" 16).toUInt16,
    numberOfSpotMarkets := (← word v "number_of_spot_markets" 16).toUInt16,
    minPerpAuctionDuration := (← word v "min_perp_auction_duration" 8).toUInt8,
    defaultMarketOrderTimeInForce := (← word v "default_market_order_time_in_force" 8).toUInt8,
    exchangeStatus := (← word v "exchange_status" 8).toUInt8,
    padding := ← fixedHex v "padding" 9 }

/-- A perp market object. -/
def readPerpMarket (v : Value) : Option PerpMarket := do
  pure {
    pubkey := ← key v "pubkey", oracle := ← key v "oracle",
    oracleSource := ← named v "oracle_source" OracleSource.ofName? .pyth,
    name := ← nameField v,
    marketIndex := (← word v "market_index" 16).toUInt16,
    quoteSpotMarketIndex := (← word v "quote_spot_market_index" 16).toUInt16,
    status := ← named v "status" MarketStatus.ofName? .initialized,
    marginRatioInitial := (← word v "margin_ratio_initial" 32).toUInt32,
    marginRatioMaintenance := (← word v "margin_ratio_maintenance" 32).toUInt32,
    padding := ← fixedHex v "padding" 16 }

/-- A spot market object. -/
def readSpotMarket (v : Value) : Option SpotMarket := do
  pure {
    pubkey := ← key v "pubkey", oracle := ← key v "oracle",
    oracleSource := ← named v "oracle_source" OracleSource.ofName? .pyth,
    mint := ← key v "mint", vault := ← key v "vault",
    name := ← nameField v,
    marketIndex := (← word v "market_index" 16).toUInt16,
    decimals := (← word v "decimals" 32).toUInt32,
    status := ← named v "status" MarketStatus.ofName? .initialized,
    padding := ← fixedHex v "padding" 16 }

/-- A spot position object. -/
def readSpotPosition (v : Value) : Option SpotPosition := do
  pure {
    scaledBalance := (← word v "scaled_balance" 64).toUInt64,
    openBids := ← int64 v "open_bids", openAsks := ← int64 v "open_asks",
    cumulativeDeposits := ← int64 v "cumulative_deposits",
    marketIndex := (← word v "market_index" 16).toUInt16,
    balanceType := ← named v "balance_type" SpotBalanceType.ofName? .deposit,
    openOrders := (← word v "open_orders" 8).toUInt8,
    padding := ← fixedHex v "padding" 4 }

/-- A perp position object. -/
def readPerpPosition (v : Value) : Option PerpPosition := do
  pure {
    lastCumulativeFundingRate := ← int64 v "last_cumulative_funding_rate",
    baseAssetAmount := ← int64 v "base_asset_amount",
    quoteAssetAmount := ← int64 v "quote_asset_amount",
    quoteBreakEvenAmount := ← int64 v "quote_break_even_amount",
    quoteEntryAmount := ← int64 v "quote_entry_amount",
    openBids := ← int64 v "open_bids", openAsks := ← int64 v "open_asks",
    settledPnl := ← int64 v "settled_pnl",
    lpShares := (← word v "lp_shares" 64).toUInt64,
    marketIndex := (← word v "market_index" 16).toUInt16,
    openOrders := (← word v "open_orders" 8).toUInt8,
    padding := ← fixedHex v "padding" 5 }

/-- A user object with at most eight positions of each kind. -/
def readUser (v : Value) : Option UserAccount := do
  let spot ← (← list v "spot_positions").mapM readSpotPosition
  let perp ← (← list v "perp_positions").mapM readPerpPosition
  if spot.length > positionSlots ∨ perp.length > positionSlots then none
  pure {
    authority := ← key v "authority", delegate := ← key v "delegate",
    name := ← nameField v,
    spotPositions := fitSlots spot, length_spotPositions := length_fitSlots spot,
    perpPositions := fitSlots perp, length_perpPositions := length_fitSlots perp,
    nextOrderId := (← word v "next_order_id" 32).toUInt32,
    subAccountId := (← word v "sub_account_id" 16).toUInt16,
    status := (← word v "status" 8).toUInt8,
    isMarginTradingEnabled := ← flag v "is_margin_trading_enabled",
    padding := ← fixedHex v "padding" 8 }

/-- An oracle feed object. -/
def readFeed (v : Value) : Option OracleFeed := do
  pure {
    price := ← int64 v "price", confidence := (← word v "confidence" 64).toUInt64,
    slot := (← word v "slot" 64).toUInt64,
    hasSufficientNumberOfDataPoints := ← flag v "has_sufficient_number_of_data_points" }

/-- The body bytes of a record object, by its `type`. -/
def readRecordBody (v : Value) : Option (List UInt8) := do
  match ← textReq v "type" with
  | "State" => pure (← readState v).write
  | "PerpMarket" => pure (← readPerpMarket v).write
  | "SpotMarket" => pure (← readSpotMarket v).write
  | "User" => pure (← readUser v).write
  | "OracleFeed" => pure (← readFeed v).write
  | _ => none

/-- Account bytes: `data_hex`, or a `record` object encoded with its discriminator. -/
def readAccountData (v : Value) : Option (Option (List UInt8)) :=
  match v.field? "data_hex" with
  | some x => (hexBytes? x).map some
  | none =>
    match v.field? "record" with
    | some r => (readRecordBody r).map fun body => some (encodeAccount body)
    | none => some none

/-- An account kind: `State`, `PerpMarket`, `SpotMarket`, `User` or `Oracle:<source>`. -/
def kindOfText? (s : String) : Option AccountKind :=
  match s with
  | "State" => some .state
  | "PerpMarket" => some .perpMarket
  | "SpotMarket" => some .spotMarket
  | "User" => some .user
  | _ =>
    if s.startsWith "Oracle:" then (OracleSource.ofName? (s.drop 7).toString).map .oracle
    else none

/-- An account kind field. -/
def kindField (v : Value) (k : String) : Option AccountKind := (textReq v k).bind kindOfText?

/-- The text of an account kind. -/
def kindText : AccountKind → String
  | .state => "State"
  | .perpMarket => "PerpMarket"
  | .spotMarket => "SpotMarket"
  | .user => "User"
  | .oracle s => "Oracle:" ++ s.name

/-- An address in base58. -/
def keyOut (k : Pubkey) : Value := .str k.toBase58

/-- Bytes in hex. -/
def hexOut (bs : List UInt8) : Value := .str (Hex.encode bs)

/-- A signed 64-bit integer. -/
def int64Out (x : Int64) : Value := .int x.toInt

/-- A list of values. -/
def listOut {α : Type} (f : α → Value) (xs : List α) : Value := .arr (xs.map f)

/-- A name as hex and as text. -/
def nameOut (name : FixedBytes 32) : List (String × Value) :=
  [("name", hexOut name.bytes), ("name_text", .str (Name.decode name.bytes))]

/-- The fields of a program state. -/
def stateFields (s : ProgramState) : List (String × Value) :=
  [("admin", keyOut s.admin), ("whitelist_mint", keyOut s.whitelistMint),
   ("discount_mint", keyOut s.discountMint), ("signer", keyOut s.signer),
   ("number_of_authorities", .nat s.numberOfAuthorities.toNat),
   ("number_of_sub_accounts", .nat s.numberOfSubAccounts.toNat),
   ("number_of_markets", .nat s.numberOfMarkets.toNat),
   ("number_of_spot_markets", .nat s.numberOfSpotMarkets.toNat),
   ("min_perp_auction_duration", .nat s.minPerpAuctionDuration.toNat),
   ("default_market_order_time_in_force", .nat s.defaultMarketOrderTimeInForce.toNat),
   ("exchange_status", .nat s.exchangeStatus.toNat), ("padding", hexOut s.padding.bytes)]

/-- The fields of a perp market. -/
def perpMarketFields (m : PerpMarket) : List (String × Value) :=
  [("pubkey", keyOut m.pubkey), ("oracle", keyOut m.oracle),
   ("oracle_source", .str m.oracleSource.name)] ++ nameOut m.name ++
  [("market_index", .nat m.marketIndex.toNat),
   ("quote_spot_market_index", .nat m.quoteSpotMarketIndex.toNat),
   ("status", .str m.status.name), ("margin_ratio_initial", .nat m.marginRatioInitial.toNat),
   ("margin_ratio_maintenance", .nat m.marginRatioMaintenance.toNat),
   ("padding", hexOut m.padding.bytes)]

/-- The fields of a spot market. -/
def spotMarketFields (m : SpotMarket) : List (String × Value) :=
  [("pubkey", keyOut m.pubkey), ("oracle", keyOut m.oracle),
   ("oracle_source", .str m.oracleSource.name), ("mint", keyOut m.mint),
   ("vault", keyOut m.vault)] ++ nameOut m.name ++
  [("market_index", .nat m.marketIndex.toNat), ("decimals", .nat m.decimals.toNat),
   ("status", .str m.status.name), ("padding", hexOut m.padding.bytes)]

/-- A spot position with its availability. -/
def spotPositionOut (p : SpotPosition) : Value :=
  .obj [("scaled_balance", .nat p.scaledBalance.toNat), ("open_bids", int64Out p.openBids),
   ("open_asks", int64Out p.openAsks), ("cumulative_deposits", int64Out p.cumulativeDeposits),
   ("market_index", .nat p.marketIndex.toNat), ("balance_type", .str p.balanceType.name),
   ("open_orders", .nat p.openOrders.toNat), ("padding", hexOut p.padding.bytes),
   ("is_available", .bool p.isAvailable), ("has_open_bid_or_ask", .bool p.hasOpenBidOrAsk)]

/-- A perp position with its availability. -/
def perpPositionOut (p : PerpPosition) : Value :=
  .obj [("last_cumulative_funding_rate", int64Out p.lastCumulativeFundingRate),
   ("base_asset_amount", int64Out p.baseAssetAmount),
   ("quote_asset_amount", int64Out p.quoteAssetAmount),
   ("quote_break_even_amount", int64Out p.quoteBreakEvenAmount),
   ("quote_entry_amount", int64Out p.quoteEntryAmount), ("open_bids", int64Out p.openBids),
   ("open_asks", int64Out p.openAsks), ("settled_pnl", int64Out p.settledPnl),
   ("lp_shares", .nat p.lpShares.toNat), ("market_index", .nat p.marketIndex.toNat),
   ("open_orders", .nat p.openOrders.toNat), ("padding", hexOut p.padding.bytes),
   ("is_available", .bool p.isAvailable)]

/-- The fields of a user, with the markets of its active positions. -/
def userFields (u : UserAccount) : List (String × Value) :=
  [("authority", keyOut u.authority), ("delegate", keyOut u.delegate)] ++ nameOut u.name ++
  [("spot_positions", listOut spotPositionOut u.spotPositions),
   ("perp_positions", listOut perpPositionOut u.perpPositions),
   ("next_order_id", .nat u.nextOrderId.toNat), ("sub_account_id", .nat u.subAccountId.toNat),
   ("status", .nat u.status.toNat), ("is_margin_trading_enabled", .bool u.isMarginTradingEnabled),
   ("padding", hexOut u.padding.bytes),
   ("active_perp_markets", listOut (fun p => .nat p.marketIndex.toNat) u.activePerpPositions),
   ("active_spot_markets", listOut (fun p => .nat p.marketIndex.toNat) u.activeSpotPositions)]

/-- The fields of an oracle price. -/
def oracleFields (p : OraclePrice) : List (String × Value) :=
  [("price", int64Out p.price), ("confidence", .nat p.confidence.toNat),
   ("slot", .nat p.slot.toNat),
   ("has_sufficient_number_of_data_points", .bool p.hasSufficientNumberOfDataPoints),
   ("source", .str p.source.name)]

/-- A decoded account with its `type` and `kind`. -/
def accountOut (a : DecodedAccount) : Value :=
  let (ty, fields) := match a with
    | .state s => ("State", stateFields s)
    | .perpMarket m => ("PerpMarket", perpMarketFields m)
    | .spotMarket m => ("SpotMarket", spotMarketFields m)
    | .oracle p => ("Oracle", oracleFields p)
    | .user u => ("User", userFields u)
  .obj (fields ++ [("type", .str ty), ("kind", .str (kindText a.kind))])

end PerpClient.Api
