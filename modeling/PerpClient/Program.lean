import PerpClient.Address.Derive
/-!
# The perpetuals program

The program's id, the lookup tables its team publishes, the constants its accounts are built
on, and the addresses of its accounts, each derived from a seed text and, for markets and users,
the little-endian bytes of an index.
-/

namespace PerpClient.Program

/-- An address written in base58 (the zero address if the text is not one). -/
def addressOfText (s : String) : Pubkey :=
  Pubkey.ofBytes ((Base58.decode? s).getD [])

/-- The program that owns every account of this library. -/
def programId : Pubkey := addressOfText "dRiftyHA39MWEi3m9aunc5MzRF1JYuBsbn6VPcn33UH"

/-- The market lookup table published for devnet. -/
def devnetLookupTable : Pubkey := addressOfText "FaMS3U4uBojvGn5FSDEPimddcXsCfwkKsFgMVVnDdxGb"

/-- The market lookup table published for mainnet. -/
def mainnetLookupTable : Pubkey := addressOfText "D9cnvzswDikQDf53k4HpQ3KJ9y1Fv3HGGDFYMXnK5T6c"

/-- The spot market every perp market settles in. -/
def quoteSpotMarketIndex : UInt16 := 0

/-- The oracle address of a market that has no oracle: all zeros. -/
def noOracle : Pubkey := Pubkey.zero

/-- One unit of price: quote asset oracles always report it. -/
def pricePrecision : Int64 := 1000000

/-- The little-endian bytes of an index. -/
def indexBytes (i : UInt16) : List UInt8 := [i.toUInt8, (i >>> 8).toUInt8]

/-- The seed text of the state account. -/
def stateSeed : List UInt8 := "drift_state".toUTF8.toList

/-- The seed text of perp market accounts. -/
def perpMarketSeed : List UInt8 := "perp_market".toUTF8.toList

/-- The seed text of spot market accounts. -/
def spotMarketSeed : List UInt8 := "spot_market".toUTF8.toList

/-- The seed text of user accounts. -/
def userSeed : List UInt8 := "user".toUTF8.toList

/-- The program's state account. -/
def stateAccount : Pubkey := Derive.derive [stateSeed] programId

/-- The account of the perp market with an index. -/
def perpMarketAddress (i : UInt16) : Pubkey :=
  Derive.derive [perpMarketSeed, indexBytes i] programId

/-- The account of the spot market with an index. -/
def spotMarketAddress (i : UInt16) : Pubkey :=
  Derive.derive [spotMarketSeed, indexBytes i] programId

/-- The user account of an authority's sub-account. -/
def userAccountAddress (authority : Pubkey) (subAccount : UInt16) : Pubkey :=
  Derive.derive [userSeed, authority.bytes, indexBytes subAccount] programId

end PerpClient.Program
