import PerpClient.Address.Basic
import PerpClient.Account.Layout
import PerpClient.Account.OracleSource
import PerpClient.Account.Status
/-!
# Account records

The records the program keeps on chain, field for field: the program state, perp and spot
markets, user accounts with their eight spot and eight perp positions, and oracle price feeds.
Fixed arrays carry their length in their type (`FixedBytes`, and the length fields of the
position lists), so every record has exactly one byte layout.

A position is *available* when it no longer refers to its market: a spot position with no
balance and no open orders, a perp position with no base or quote amount, no open orders and no
liquidity shares. The active positions of a user are the others, in slot order.
-/

namespace PerpClient

/-- The program's global state account. -/
structure ProgramState where
  admin : Pubkey
  whitelistMint : Pubkey
  discountMint : Pubkey
  signer : Pubkey
  numberOfAuthorities : UInt64
  numberOfSubAccounts : UInt64
  numberOfMarkets : UInt16
  numberOfSpotMarkets : UInt16
  minPerpAuctionDuration : UInt8
  defaultMarketOrderTimeInForce : UInt8
  /-- Bit flags; zero is fully active. -/
  exchangeStatus : UInt8
  padding : FixedBytes 9
  deriving DecidableEq, Inhabited

/-- A perpetual futures market. -/
structure PerpMarket where
  pubkey : Pubkey
  oracle : Pubkey
  oracleSource : OracleSource
  name : FixedBytes 32
  marketIndex : UInt16
  quoteSpotMarketIndex : UInt16
  status : MarketStatus
  /-- In units of 10^4 = 100%. -/
  marginRatioInitial : UInt32
  marginRatioMaintenance : UInt32
  padding : FixedBytes 16
  deriving DecidableEq, Inhabited

/-- A spot market. -/
structure SpotMarket where
  pubkey : Pubkey
  oracle : Pubkey
  oracleSource : OracleSource
  mint : Pubkey
  vault : Pubkey
  name : FixedBytes 32
  marketIndex : UInt16
  decimals : UInt32
  status : MarketStatus
  padding : FixedBytes 16
  deriving DecidableEq, Inhabited

/-- One spot position slot of a user. -/
structure SpotPosition where
  scaledBalance : UInt64
  openBids : Int64
  openAsks : Int64
  cumulativeDeposits : Int64
  marketIndex : UInt16
  balanceType : SpotBalanceType
  openOrders : UInt8
  padding : FixedBytes 4
  deriving DecidableEq, Inhabited

/-- One perp position slot of a user. -/
structure PerpPosition where
  lastCumulativeFundingRate : Int64
  baseAssetAmount : Int64
  quoteAssetAmount : Int64
  quoteBreakEvenAmount : Int64
  quoteEntryAmount : Int64
  openBids : Int64
  openAsks : Int64
  settledPnl : Int64
  lpShares : UInt64
  marketIndex : UInt16
  openOrders : UInt8
  padding : FixedBytes 5
  deriving DecidableEq, Inhabited

/-- The number of position slots of each kind in a user account. -/
def positionSlots : Nat := 8

/-- The first eight entries of a list, filled up with the default. -/
def fitSlots {α : Type} [Inhabited α] (xs : List α) : List α :=
  (xs ++ List.replicate positionSlots default).take positionSlots

theorem length_fitSlots {α : Type} [Inhabited α] (xs : List α) :
    (fitSlots xs).length = positionSlots := by
  simp [fitSlots, positionSlots]

/-- A user (sub-)account with its position slots. -/
structure UserAccount where
  authority : Pubkey
  delegate : Pubkey
  name : FixedBytes 32
  spotPositions : List SpotPosition
  length_spotPositions : spotPositions.length = positionSlots
  perpPositions : List PerpPosition
  length_perpPositions : perpPositions.length = positionSlots
  nextOrderId : UInt32
  subAccountId : UInt16
  status : UInt8
  isMarginTradingEnabled : Bool
  padding : FixedBytes 8
  deriving DecidableEq

instance : Inhabited UserAccount :=
  ⟨{ authority := default, delegate := default, name := default,
     spotPositions := fitSlots [], length_spotPositions := length_fitSlots [],
     perpPositions := fitSlots [], length_perpPositions := length_fitSlots [],
     nextOrderId := 0, subAccountId := 0, status := 0, isMarginTradingEnabled := false,
     padding := default }⟩

/-- The body of an oracle feed account. -/
structure OracleFeed where
  price : Int64
  confidence : UInt64
  /-- The slot the feed was last updated at. -/
  slot : UInt64
  hasSufficientNumberOfDataPoints : Bool
  deriving DecidableEq, Inhabited

/-- A price read from an oracle, with the source it was read as. -/
structure OraclePrice where
  price : Int64
  confidence : UInt64
  slot : UInt64
  hasSufficientNumberOfDataPoints : Bool
  source : OracleSource
  deriving DecidableEq, Inhabited

/-- The price a feed reports, read as `source`. -/
def OraclePrice.ofFeed (feed : OracleFeed) (source : OracleSource) : OraclePrice :=
  { price := feed.price, confidence := feed.confidence, slot := feed.slot,
    hasSufficientNumberOfDataPoints := feed.hasSufficientNumberOfDataPoints, source }

/-- The feed fields of a price. -/
def OraclePrice.feed (p : OraclePrice) : OracleFeed :=
  { price := p.price, confidence := p.confidence, slot := p.slot,
    hasSufficientNumberOfDataPoints := p.hasSufficientNumberOfDataPoints }

namespace SpotPosition

/-- The slot is free: no balance and no resting orders. -/
def isAvailable (p : SpotPosition) : Bool :=
  p.scaledBalance == 0 && p.openOrders == 0

/-- The position has an open bid or ask, which needs the quote market too. -/
def hasOpenBidOrAsk (p : SpotPosition) : Bool :=
  p.openBids != 0 || p.openAsks != 0

end SpotPosition

/-- The slot is free: no base or quote amount, no open orders, no liquidity shares. -/
def PerpPosition.isAvailable (p : PerpPosition) : Bool :=
  p.baseAssetAmount == 0 && p.quoteAssetAmount == 0 && p.openOrders == 0 && p.lpShares == 0

namespace UserAccount

/-- The spot positions that still refer to a market, in slot order. -/
def activeSpotPositions (u : UserAccount) : List SpotPosition :=
  u.spotPositions.filter (fun p => !p.isAvailable)

/-- The perp positions that still refer to a market, in slot order. -/
def activePerpPositions (u : UserAccount) : List PerpPosition :=
  u.perpPositions.filter (fun p => !p.isAvailable)

end UserAccount

end PerpClient
