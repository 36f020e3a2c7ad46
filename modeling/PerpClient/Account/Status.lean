/-!
# Market statuses and balance types

The status of a market and the side of a spot balance, each with a tag byte (its position in
`all`) and a name.
-/

namespace PerpClient

/-- The trading status of a market. -/
inductive MarketStatus where
  | initialized
  | active
  | fundingPaused
  | ammPaused
  | fillPaused
  | withdrawPaused
  | reduceOnly
  | settlement
  | delisted
  deriving DecidableEq, Repr, Inhabited

namespace MarketStatus

/-- Every status, in tag order. -/
def all : List MarketStatus :=
  [initialized, active, fundingPaused, ammPaused, fillPaused, withdrawPaused, reduceOnly,
    settlement, delisted]

/-- The tag byte of a status. -/
def tag : MarketStatus → UInt8
  | initialized => 0 | active => 1 | fundingPaused => 2 | ammPaused => 3 | fillPaused => 4
  | withdrawPaused => 5 | reduceOnly => 6 | settlement => 7 | delisted => 8

/-- The status of a tag byte, if it is below 9. -/
def ofTag? (b : UInt8) : Option MarketStatus := all[b.toNat]?

/-- The name of a status. -/
def name : MarketStatus → String
  | initialized => "Initialized" | active => "Active" | fundingPaused => "FundingPaused"
  | ammPaused => "AmmPaused" | fillPaused => "FillPaused" | withdrawPaused => "WithdrawPaused"
  | reduceOnly => "ReduceOnly" | settlement => "Settlement" | delisted => "Delisted"

/-- The status of a name. -/
def ofName? (s : String) : Option MarketStatus := all.find? (·.name == s)

@[simp] theorem ofTag?_tag (s : MarketStatus) : ofTag? s.tag = some s := by
  cases s <;> rfl

end MarketStatus

/-- The side of a spot balance. -/
inductive SpotBalanceType where
  | deposit
  | borrow
  deriving DecidableEq, Repr, Inhabited

namespace SpotBalanceType

/-- Both sides, in tag order. -/
def all : List SpotBalanceType := [deposit, borrow]

/-- The tag byte of a side. -/
def tag : SpotBalanceType → UInt8
  | deposit => 0 | borrow => 1

/-- The side of a tag byte, if it is below 2. -/
def ofTag? (b : UInt8) : Option SpotBalanceType := all[b.toNat]?

/-- The name of a side. -/
def name : SpotBalanceType → String
  | deposit => "Deposit" | borrow => "Borrow"

/-- The side of a name. -/
def ofName? (s : String) : Option SpotBalanceType := all.find? (·.name == s)

@[simp] theorem ofTag?_tag (s : SpotBalanceType) : ofTag? s.tag = some s := by
  cases s <;> rfl

end SpotBalanceType

end PerpClient
