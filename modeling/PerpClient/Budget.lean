/-!
# Compute budgets

A transaction asks for a number of compute units. Either the number is fixed, or a dry run
measures what the instructions consume and the limit is that consumption times a buffer
multiplier, at least a lower bound and at most `maxComputeUnits`.

The multiplier is applied in basis points so that the limit does not hang on float rounding:
`basisPoints` rounds `multiplier · 10000` half away from zero (negative and undefined results
read as zero, results past the 64-bit range as the largest word), and `unitsFromSimulation`
then computes `min (max ⌈min(c·b, 2^64-1) / 10000⌉ l) 1400000` exactly in integers.
-/

namespace PerpClient.Budget

/-- The limit when nothing else is asked for. -/
def defaultComputeUnits : UInt32 := 600000

/-- The most units a transaction may ask for. -/
def maxComputeUnits : UInt32 := 1400000

/-- The buffer multiplier when nothing else is asked for. -/
def defaultBufferMultiplier : Float := 1.2

/-- The multiplier in basis points, rounded half away from zero and saturated to a word. -/
def basisPoints (multiplier : Float) : Nat :=
  let r := (multiplier * 10000.0).round
  if r > 0.0 then r.toUInt64.toNat else 0

/-- The limit for a measured consumption, given the multiplier in basis points. -/
def unitsFromBasisPoints (consumed : Nat) (bps : Nat) (lowerBound : Option UInt32) : Nat :=
  let product := Nat.min (consumed * bps) 18446744073709551615
  let buffered := (product + 9999) / 10000
  Nat.min (Nat.max buffered (lowerBound.map UInt32.toNat |>.getD 0)) maxComputeUnits.toNat

/-- The limit for a measured consumption and a buffer multiplier. -/
def unitsFromSimulation (consumed : UInt64) (multiplier : Float) (lowerBound : Option UInt32) :
    UInt32 :=
  (unitsFromBasisPoints consumed.toNat (basisPoints multiplier) lowerBound).toUInt32

/-- How the compute unit limit of a transaction is chosen. -/
inductive Policy where
  /-- A fixed limit and price (micro-lamports per unit). -/
  | fixed (units : UInt32) (price : UInt64)
  /-- Dry-run first and size the limit from what was consumed; `fallbackUnits` stands in
  when the dry run reports no consumption or fails, unless a failure ends the build. -/
  | simulated (price : UInt64) (multiplier : Float) (lowerBound : Option UInt32)
      (fallbackUnits : UInt32) (exitEarlyOnFailure : Bool)

instance : Inhabited Policy := ⟨.fixed defaultComputeUnits 0⟩

/-- The price a policy pays per unit. -/
def Policy.price : Policy → UInt64
  | .fixed _ p => p
  | .simulated p _ _ _ _ => p

end PerpClient.Budget
