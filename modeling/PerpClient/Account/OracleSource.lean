/-!
# Oracle sources

The feed model an oracle account is read with. Each case has a tag byte (its position in
`OracleSource.all`) and a name; `ofTag?` and `ofName?` read them back.
-/

namespace PerpClient

/-- The feed model of an oracle. -/
inductive OracleSource where
  | pyth
  | switchboard
  /-- The quote asset, priced at one unit without any feed account. -/
  | quoteAsset
  | pyth1K
  | pyth1M
  | pythStableCoin
  /-- A price written by the program itself, so the oracle account is writable. -/
  | prelaunch
  | pythPull
  | pyth1KPull
  | pyth1MPull
  | pythStableCoinPull
  | switchboardOnDemand
  | pythLazer
  deriving DecidableEq, Repr, Inhabited

namespace OracleSource

/-- Every source, in tag order. -/
def all : List OracleSource :=
  [pyth, switchboard, quoteAsset, pyth1K, pyth1M, pythStableCoin, prelaunch, pythPull,
    pyth1KPull, pyth1MPull, pythStableCoinPull, switchboardOnDemand, pythLazer]

/-- The tag byte of a source. -/
def tag : OracleSource → UInt8
  | pyth => 0 | switchboard => 1 | quoteAsset => 2 | pyth1K => 3 | pyth1M => 4
  | pythStableCoin => 5 | prelaunch => 6 | pythPull => 7 | pyth1KPull => 8 | pyth1MPull => 9
  | pythStableCoinPull => 10 | switchboardOnDemand => 11 | pythLazer => 12

/-- The source of a tag byte, if it is below 13. -/
def ofTag? (b : UInt8) : Option OracleSource := all[b.toNat]?

/-- The name of a source. -/
def name : OracleSource → String
  | pyth => "Pyth" | switchboard => "Switchboard" | quoteAsset => "QuoteAsset"
  | pyth1K => "Pyth1K" | pyth1M => "Pyth1M" | pythStableCoin => "PythStableCoin"
  | prelaunch => "Prelaunch" | pythPull => "PythPull" | pyth1KPull => "Pyth1KPull"
  | pyth1MPull => "Pyth1MPull" | pythStableCoinPull => "PythStableCoinPull"
  | switchboardOnDemand => "SwitchboardOnDemand" | pythLazer => "PythLazer"

/-- The source of a name. -/
def ofName? (s : String) : Option OracleSource := all.find? (·.name == s)

@[simp] theorem ofTag?_tag (s : OracleSource) : ofTag? s.tag = some s := by
  cases s <;> rfl

end OracleSource

end PerpClient
