import PerpClient.Remaining.SlotTable
import PerpClient.Transaction.Message
import PerpClient.Account.Records
import PerpClient.Program
import PerpClient.Error
/-!
# Remaining accounts

An instruction on the program lists, after its own accounts, every oracle and market the
program will read: the markets of the user's open positions, markets recently touched by
confirmed transactions, markets the caller asks for, and markets always included. The program
locates them by offset, so they come in three buckets: oracles, then spot markets, then perp
markets.

Each bucket lists an address once, where it was first asked for, and keeps the place of each
address it lists; a later writable request makes that entry writable in place, found through its
recorded place (`Bucket.add`). Adding a perp market adds its oracle and its quote spot market;
adding a spot market adds its oracle. The no-oracle address is never added. A perp market's
oracle is written only when the market is and the oracle-writable rule holds.
-/

namespace PerpClient

/-- Read access to market records by index. -/
structure MarketLookup where
  perp : UInt16 → Option PerpMarket
  spot : UInt16 → Option SpotMarket

/-- Market indexes forced into every instruction, each listed once in the order first asked. -/
structure MustInclude where
  perp : List UInt16
  spot : List UInt16
  deriving DecidableEq, Inhabited

/-- Appends the indexes not listed yet. -/
def appendNew {α : Type} [DecidableEq α] (xs ys : List α) : List α :=
  ys.foldl (fun acc y => if y ∈ acc then acc else acc ++ [y]) xs

/-- Adds perp and spot indexes to the forced markets. -/
def MustInclude.add (m : MustInclude) (perp spot : List UInt16) : MustInclude :=
  ⟨appendNew m.perp perp, appendNew m.spot spot⟩

/-- One bucket of remaining accounts: each address once, in the order first added, and the place
of each address in that list (a map kept as pairs in the order added). -/
structure Bucket where
  metas : List AccountMeta
  positions : List (Pubkey × Nat)
  deriving DecidableEq, Inhabited

/-- The bucket with nothing in it. -/
def Bucket.empty : Bucket := ⟨[], []⟩

/-- The recorded place of an address. -/
def Bucket.position? (b : Bucket) (k : Pubkey) : Option Nat :=
  (b.positions.find? (·.1 = k)).map (·.2)

/-- Adds an address. An address with a recorded place only becomes writable there, if asked to; a
new one is appended, writable as asked, and its place recorded. -/
def Bucket.add (b : Bucket) (k : Pubkey) (writable : Bool) : Bucket :=
  match b.position? k with
  | some i =>
    if writable then { b with metas := b.metas.modify i fun m => { m with isWritable := true } }
    else b
  | none => ⟨b.metas ++ [⟨k, false, writable⟩], b.positions ++ [(k, b.metas.length)]⟩

/-- The three buckets, filled in resolution order. -/
structure Buckets where
  oracles : Bucket
  spotMarkets : Bucket
  perpMarkets : Bucket
  deriving Inhabited

/-- Three empty buckets. -/
def Buckets.empty : Buckets := ⟨.empty, .empty, .empty⟩

/-- The remaining accounts: oracles, then spot markets, then perp markets. -/
def Buckets.metas (b : Buckets) : List AccountMeta :=
  b.oracles.metas ++ b.spotMarkets.metas ++ b.perpMarkets.metas

/-- What one instruction needs resolved. -/
structure RemainingParams where
  /-- Snapshots whose open positions the program must see. -/
  userAccounts : List UserAccount
  writablePerp : List UInt16
  writableSpot : List UInt16
  readablePerp : List UInt16
  readableSpot : List UInt16
  /-- Fold in markets recently touched by confirmed transactions. -/
  useSlotTable : Bool
  /-- The instruction creates the user, so no snapshot exists yet. -/
  userNotAvailable : Bool

/-- The remaining-accounts resolver: the forced markets and the oracle-writable rule. -/
structure Resolver where
  mustInclude : MustInclude
  oracleWritable : PerpMarket → Bool

namespace Resolver

/-- Only a prelaunch market keeps its price in an oracle the program writes. -/
def defaultOracleWritable (m : PerpMarket) : Bool := m.oracleSource = .prelaunch

/-- A resolver with nothing forced and the given oracle-writable rule. -/
def new (oracleWritable : PerpMarket → Bool) : Resolver := ⟨⟨[], []⟩, oracleWritable⟩

/-- The resolver with nothing forced and the prelaunch rule. -/
def default : Resolver := new defaultOracleWritable

/-- Forces more markets into every instruction. -/
def mustIncludeMarkets (r : Resolver) (perp spot : List UInt16) : Resolver :=
  { r with mustInclude := r.mustInclude.add perp spot }

/-- A list of indexes as a debugging text shows it. -/
def indexesText (xs : List UInt16) : String :=
  "[" ++ ", ".intercalate (xs.map fun i => toString i.toNat) ++ "]"

/-- The resolver as a debugging text shows it; the rule is not shown. -/
def describe (r : Resolver) : String :=
  "RemainingAccountsResolver \x7b must_include: MustIncludeMarkets \x7b perp: " ++
    indexesText r.mustInclude.perp ++ ", spot: " ++ indexesText r.mustInclude.spot ++
    " \x7d, .. \x7d"

/-- Adds a spot market and its oracle. -/
def addSpot (markets : MarketLookup) (b : Buckets) (i : UInt16) (writable : Bool) :
    Except ClientError Buckets :=
  match markets.spot i with
  | none => .error (.spotMarketNotLoaded i)
  | some m =>
    let b := { b with spotMarkets := b.spotMarkets.add m.pubkey writable }
    .ok (if m.oracle = Program.noOracle then b else { b with oracles := b.oracles.add m.oracle false })

/-- Adds a perp market, its oracle and its quote spot market. -/
def addPerp (r : Resolver) (markets : MarketLookup) (b : Buckets) (i : UInt16) (writable : Bool) :
    Except ClientError Buckets :=
  match markets.perp i with
  | none => .error (.perpMarketNotLoaded i)
  | some m =>
    let b := { b with perpMarkets := b.perpMarkets.add m.pubkey writable }
    let b := if m.oracle = Program.noOracle then b
      else { b with oracles := b.oracles.add m.oracle (writable && r.oracleWritable m) }
    addSpot markets b m.quoteSpotMarketIndex false

/-- Adds several perp markets. -/
def addPerps (r : Resolver) (markets : MarketLookup) (writable : Bool) (b : Buckets)
    (is : List UInt16) : Except ClientError Buckets :=
  is.foldlM (fun b i => r.addPerp markets b i writable) b

/-- Adds several spot markets. -/
def addSpots (markets : MarketLookup) (writable : Bool) (b : Buckets) (is : List UInt16) :
    Except ClientError Buckets :=
  is.foldlM (fun b i => addSpot markets b i writable) b

/-- Adds the markets of one user's open positions: each spot position's market (and the quote
market when it has open orders), then each perp position's market. -/
def addUser (r : Resolver) (markets : MarketLookup) (b : Buckets) (u : UserAccount) :
    Except ClientError Buckets := do
  let b ← u.activeSpotPositions.foldlM (fun b p => do
    let b ← addSpot markets b p.marketIndex false
    if p.hasOpenBidOrAsk then addSpot markets b Program.quoteSpotMarketIndex false else pure b) b
  r.addPerps markets false b (u.activePerpPositions.map (·.marketIndex))

/-- The markets the params ask for after the users' and the table's: readable perps, forced
perps, readable spots, forced spots, writable perps, writable spots. -/
def addRequested (r : Resolver) (markets : MarketLookup) (p : RemainingParams) (b : Buckets) :
    Except ClientError Buckets := do
  let b ← r.addPerps markets false b p.readablePerp
  let b ← r.addPerps markets false b r.mustInclude.perp
  let b ← addSpots markets false b p.readableSpot
  let b ← addSpots markets false b r.mustInclude.spot
  let b ← r.addPerps markets true b p.writablePerp
  addSpots markets true b p.writableSpot

/-- Resolves the remaining accounts of one instruction into their three buckets. Table entries
the user's snapshot has caught up with are evicted, and stay evicted even when a later market is
missing. -/
def resolveBuckets (r : Resolver) (p : RemainingParams) (markets : MarketLookup)
    (table : SlotTable) (userSlot : Option UInt64) : SlotTable × Except ClientError Buckets :=
  if p.userAccounts.isEmpty && !p.userNotAvailable then (table, .error .missingUserAccount)
  else
    match p.userAccounts.foldlM (r.addUser markets) Buckets.empty with
    | .error e => (table, .error e)
    | .ok b =>
      if p.useSlotTable then
        let slot? : Option UInt64 := if p.userNotAvailable then some 0 else userSlot
        match slot? with
        | none => (table, .error .missingUserAccount)
        | some slot =>
          let (table', perps, spots) := table.retainNewerThan slot
          (table', (do
            let b ← r.addPerps markets false b perps
            let b ← addSpots markets false b spots
            r.addRequested markets p b))
      else (table, r.addRequested markets p b)

/-- Resolves the remaining accounts of one instruction: oracles, then spot markets, then perp
markets. -/
def resolve (r : Resolver) (p : RemainingParams) (markets : MarketLookup) (table : SlotTable)
    (userSlot : Option UInt64) : SlotTable × Except ClientError (List AccountMeta) :=
  let (table', result) := r.resolveBuckets p markets table userSlot
  (table', result.map Buckets.metas)

end Resolver

end PerpClient
