import PerpClient.Account.Records
/-!
# Reading and writing account records

Each record is read field by field in declaration order (`read`) and written the same way
(`write`). The body sizes follow from the field widths: the program state is 160 bytes, a perp
market 126, a spot market 184, a user 1072 (with 40 bytes per spot position and 80 per perp
position) and an oracle feed 25.
-/

namespace PerpClient

open Layout

/-- An address: 32 raw bytes. -/
def Layout.readPubkey : Reader Pubkey := do
  let b ← readBytes 32
  pure ⟨b.bytes, b.length_bytes⟩

namespace ProgramState

/-- The state fields in order. -/
def read : Reader ProgramState := do
  let admin ← readPubkey
  let whitelistMint ← readPubkey
  let discountMint ← readPubkey
  let signer ← readPubkey
  let numberOfAuthorities ← readU64
  let numberOfSubAccounts ← readU64
  let numberOfMarkets ← readU16
  let numberOfSpotMarkets ← readU16
  let minPerpAuctionDuration ← readU8
  let defaultMarketOrderTimeInForce ← readU8
  let exchangeStatus ← readU8
  let padding ← readBytes 9
  pure {
    admin := admin, whitelistMint := whitelistMint, discountMint := discountMint,
    signer := signer, numberOfAuthorities := numberOfAuthorities,
    numberOfSubAccounts := numberOfSubAccounts, numberOfMarkets := numberOfMarkets,
    numberOfSpotMarkets := numberOfSpotMarkets, minPerpAuctionDuration := minPerpAuctionDuration,
    defaultMarketOrderTimeInForce := defaultMarketOrderTimeInForce,
    exchangeStatus := exchangeStatus, padding := padding }

/-- The state bytes. -/
def write (s : ProgramState) : List UInt8 :=
  s.admin.bytes ++ s.whitelistMint.bytes ++ s.discountMint.bytes ++ s.signer.bytes ++
    writeU64 s.numberOfAuthorities ++ writeU64 s.numberOfSubAccounts ++
    writeU16 s.numberOfMarkets ++ writeU16 s.numberOfSpotMarkets ++
    [s.minPerpAuctionDuration, s.defaultMarketOrderTimeInForce, s.exchangeStatus] ++
    s.padding.bytes

end ProgramState

namespace PerpMarket

/-- The perp market fields in order. -/
def read : Reader PerpMarket := do
  let pubkey ← readPubkey
  let oracle ← readPubkey
  let oracleSource ← readTag OracleSource.ofTag?
  let name ← readBytes 32
  let marketIndex ← readU16
  let quoteSpotMarketIndex ← readU16
  let status ← readTag MarketStatus.ofTag?
  let marginRatioInitial ← readU32
  let marginRatioMaintenance ← readU32
  let padding ← readBytes 16
  pure {
    pubkey := pubkey, oracle := oracle, oracleSource := oracleSource, name := name,
    marketIndex := marketIndex, quoteSpotMarketIndex := quoteSpotMarketIndex, status := status,
    marginRatioInitial := marginRatioInitial, marginRatioMaintenance := marginRatioMaintenance,
    padding := padding }

/-- The perp market bytes. -/
def write (m : PerpMarket) : List UInt8 :=
  m.pubkey.bytes ++ m.oracle.bytes ++ [m.oracleSource.tag] ++ m.name.bytes ++
    writeU16 m.marketIndex ++ writeU16 m.quoteSpotMarketIndex ++ [m.status.tag] ++
    writeU32 m.marginRatioInitial ++ writeU32 m.marginRatioMaintenance ++ m.padding.bytes

end PerpMarket

namespace SpotMarket

/-- The spot market fields in order. -/
def read : Reader SpotMarket := do
  let pubkey ← readPubkey
  let oracle ← readPubkey
  let oracleSource ← readTag OracleSource.ofTag?
  let mint ← readPubkey
  let vault ← readPubkey
  let name ← readBytes 32
  let marketIndex ← readU16
  let decimals ← readU32
  let status ← readTag MarketStatus.ofTag?
  let padding ← readBytes 16
  pure {
    pubkey := pubkey, oracle := oracle, oracleSource := oracleSource, mint := mint,
    vault := vault, name := name, marketIndex := marketIndex, decimals := decimals,
    status := status, padding := padding }

/-- The spot market bytes. -/
def write (m : SpotMarket) : List UInt8 :=
  m.pubkey.bytes ++ m.oracle.bytes ++ [m.oracleSource.tag] ++ m.mint.bytes ++ m.vault.bytes ++
    m.name.bytes ++ writeU16 m.marketIndex ++ writeU32 m.decimals ++ [m.status.tag] ++
    m.padding.bytes

end SpotMarket

namespace SpotPosition

/-- The spot position fields in order. -/
def read : Reader SpotPosition := do
  let scaledBalance ← readU64
  let openBids ← readI64
  let openAsks ← readI64
  let cumulativeDeposits ← readI64
  let marketIndex ← readU16
  let balanceType ← readTag SpotBalanceType.ofTag?
  let openOrders ← readU8
  let padding ← readBytes 4
  pure {
    scaledBalance := scaledBalance, openBids := openBids, openAsks := openAsks,
    cumulativeDeposits := cumulativeDeposits, marketIndex := marketIndex,
    balanceType := balanceType, openOrders := openOrders, padding := padding }

/-- The spot position bytes. -/
def write (p : SpotPosition) : List UInt8 :=
  writeU64 p.scaledBalance ++ writeI64 p.openBids ++ writeI64 p.openAsks ++
    writeI64 p.cumulativeDeposits ++ writeU16 p.marketIndex ++ [p.balanceType.tag] ++
    [p.openOrders] ++ p.padding.bytes

end SpotPosition

namespace PerpPosition

/-- The perp position fields in order. -/
def read : Reader PerpPosition := do
  let lastCumulativeFundingRate ← readI64
  let baseAssetAmount ← readI64
  let quoteAssetAmount ← readI64
  let quoteBreakEvenAmount ← readI64
  let quoteEntryAmount ← readI64
  let openBids ← readI64
  let openAsks ← readI64
  let settledPnl ← readI64
  let lpShares ← readU64
  let marketIndex ← readU16
  let openOrders ← readU8
  let padding ← readBytes 5
  pure {
    lastCumulativeFundingRate := lastCumulativeFundingRate,
    baseAssetAmount := baseAssetAmount, quoteAssetAmount := quoteAssetAmount,
    quoteBreakEvenAmount := quoteBreakEvenAmount, quoteEntryAmount := quoteEntryAmount,
    openBids := openBids, openAsks := openAsks, settledPnl := settledPnl, lpShares := lpShares,
    marketIndex := marketIndex, openOrders := openOrders, padding := padding }

/-- The perp position bytes. -/
def write (p : PerpPosition) : List UInt8 :=
  writeI64 p.lastCumulativeFundingRate ++ writeI64 p.baseAssetAmount ++
    writeI64 p.quoteAssetAmount ++ writeI64 p.quoteBreakEvenAmount ++
    writeI64 p.quoteEntryAmount ++ writeI64 p.openBids ++ writeI64 p.openAsks ++
    writeI64 p.settledPnl ++ writeU64 p.lpShares ++ writeU16 p.marketIndex ++ [p.openOrders] ++
    p.padding.bytes

end PerpPosition

namespace UserAccount

/-- The user fields in order, the positions slot by slot. -/
def read : Reader UserAccount := do
  let authority ← readPubkey
  let delegate ← readPubkey
  let name ← readBytes 32
  let spot ← readList SpotPosition.read positionSlots
  let perp ← readList PerpPosition.read positionSlots
  let nextOrderId ← readU32
  let subAccountId ← readU16
  let status ← readU8
  let isMarginTradingEnabled ← readBool
  let padding ← readBytes 8
  pure {
    authority := authority, delegate := delegate, name := name, spotPositions := spot.val,
    length_spotPositions := spot.property, perpPositions := perp.val,
    length_perpPositions := perp.property, nextOrderId := nextOrderId,
    subAccountId := subAccountId, status := status,
    isMarginTradingEnabled := isMarginTradingEnabled, padding := padding }

/-- The user bytes. -/
def write (u : UserAccount) : List UInt8 :=
  u.authority.bytes ++ u.delegate.bytes ++ u.name.bytes ++
    u.spotPositions.flatMap SpotPosition.write ++ u.perpPositions.flatMap PerpPosition.write ++
    writeU32 u.nextOrderId ++ writeU16 u.subAccountId ++ [u.status] ++
    writeBool u.isMarginTradingEnabled ++ u.padding.bytes

end UserAccount

namespace OracleFeed

/-- The feed fields in order. -/
def read : Reader OracleFeed := do
  let price ← readI64
  let confidence ← readU64
  let slot ← readU64
  let hasSufficientNumberOfDataPoints ← readBool
  pure {
    price := price, confidence := confidence, slot := slot,
    hasSufficientNumberOfDataPoints := hasSufficientNumberOfDataPoints }

/-- The feed bytes. -/
def write (f : OracleFeed) : List UInt8 :=
  writeI64 f.price ++ writeU64 f.confidence ++ writeU64 f.slot ++
    writeBool f.hasSufficientNumberOfDataPoints

end OracleFeed

end PerpClient
