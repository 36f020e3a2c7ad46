import PerpClient.Store.Tracked
import PerpClient.Cache
import PerpClient.Error
import PerpClient.Remaining.Resolver
/-!
# The account store

The decoded-account cache of a subscriber together with the set of accounts it tracks. A batch
of raw accounts read at one slot is decoded account by account and everything that decoded is
written in one batch at that slot; an account that does not decode keeps its cached value and
is reported, an account with no data is reported missing (except the quote asset's oracle,
which is priced without a feed account). Decoded markets may name oracles not tracked yet; the
batch reports those, each pair of address and feed model once.

Readers find a record through the tracked set (markets by index) and answer it only when the
cached account has the expected layout.

* `applyBatch_tracked`: applying a batch never changes what is tracked.
-/

namespace PerpClient

/-- The outcome of decoding and applying one batch. -/
structure BatchOutcome where
  applied : Nat
  missing : List Pubkey
  failures : List DecodeFailure
  /-- Oracles named by freshly decoded markets and not tracked yet. -/
  discoveredOracles : List OracleInfo

/-- The batch as a result: a decode error when some account did not decode. -/
def BatchOutcome.result (o : BatchOutcome) : Except ClientError Unit :=
  match ClientError.ofDecodeFailures o.failures with
  | some e => .error e
  | none => .ok ()

/-- Turns the raw bytes of an account of a kind into a record, or says why it cannot. Decoding is
a function, so the same bytes always decode the same way. -/
structure AccountDecoder where
  decode : AccountKind → List UInt8 → Except String DecodedAccount

/-- The default decoder: the zero discriminator, then the Borsh body. -/
def AccountDecoder.borsh : AccountDecoder :=
  ⟨fun kind data => (decodeAccount kind data).mapError DecodeError.message⟩

/-- Decoded accounts by address, the accounts tracked, and the decoder of raw accounts. -/
structure AccountStore where
  cache : SlotCache Pubkey DecodedAccount
  tracked : TrackedAccounts
  decoder : AccountDecoder

namespace AccountStore

/-- A store with an empty cache. -/
def new (tracked : TrackedAccounts) (decoder : AccountDecoder) : AccountStore :=
  ⟨SlotCache.empty, tracked, decoder⟩

/-- Starts tracking more accounts; answers the additions. -/
def track (s : AccountStore) (more : TrackedAccounts) :
    AccountStore × List (Pubkey × AccountKind) :=
  let (t, added) := s.tracked.merge more
  ({ s with tracked := t }, added)

/-- Every tracked account with its layout. -/
def targets (s : AccountStore) : List (Pubkey × AccountKind) := s.tracked.targets

/-- The bytes an account of a batch is decoded from: its own, or none at all for the quote
asset's oracle, which is priced without a feed account. An account with neither is missing. -/
def entryBytes (kind : AccountKind) : Option (List UInt8) → Option (List UInt8)
  | some d => some d
  | none => if kind = .oracle .quoteAsset then some [] else none

/-- One account of a batch, added to the decoded accounts, the missing ones or the failures. -/
def decodeStep (dec : AccountDecoder)
    (acc : List (Pubkey × DecodedAccount) × List Pubkey × List DecodeFailure)
    (a : Pubkey × AccountKind × Option (List UInt8)) :
    List (Pubkey × DecodedAccount) × List Pubkey × List DecodeFailure :=
  let (k, kind, data?) := a
  match entryBytes kind data? with
  | none => (acc.1, acc.2.1 ++ [k], acc.2.2)
  | some data =>
    match dec.decode kind data with
    | .ok d => (acc.1 ++ [(k, d)], acc.2.1, acc.2.2)
    | .error e => (acc.1, acc.2.1, acc.2.2 ++ [⟨k, kind, e⟩])

/-- Decodes a batch: the decoded accounts, the missing ones and the failures, in batch order. -/
def decodeBatch (dec : AccountDecoder)
    (accounts : List (Pubkey × AccountKind × Option (List UInt8))) :
    List (Pubkey × DecodedAccount) × List Pubkey × List DecodeFailure :=
  accounts.foldl (decodeStep dec) ([], [], [])

/-- The oracle a decoded market reads its price from. -/
def marketOracle : DecodedAccount → Option OracleInfo
  | .perpMarket m => some ⟨m.oracle, m.oracleSource⟩
  | .spotMarket m => some ⟨m.oracle, m.oracleSource⟩
  | _ => none

/-- Adds the oracle of a decoded market to those found, unless it is the no-oracle address, is
tracked, or was found already. -/
def addUntracked (s : AccountStore) (found : List OracleInfo) (e : Pubkey × DecodedAccount) :
    List OracleInfo :=
  match marketOracle e.2 with
  | some o =>
    if o.pubkey ≠ Program.noOracle ∧
        !Ordered.contains Pubkey.compareBytes o.pubkey s.tracked.oracles ∧ o ∉ found
      then found ++ [o] else found
  | none => found

/-- The oracles of decoded markets that are neither the no-oracle address nor tracked, each
once, in batch order. -/
def untrackedOracles (s : AccountStore) (decoded : List (Pubkey × DecodedAccount)) :
    List OracleInfo :=
  decoded.foldl s.addUntracked []

/-- Decodes a batch read at `slot` and applies everything that decoded in one write. -/
def applyBatch (s : AccountStore) (accounts : List (Pubkey × AccountKind × Option (List UInt8)))
    (slot : UInt64) : AccountStore × BatchOutcome :=
  let (decoded, missing, failures) := decodeBatch s.decoder accounts
  let discovered := s.untrackedOracles decoded
  let (cache, applied) := s.cache.putBatch decoded slot
  ({ s with cache := cache }, ⟨applied, missing, failures, discovered⟩)

/-- Applying a batch never changes what is tracked. -/
theorem applyBatch_tracked (s : AccountStore)
    (accounts : List (Pubkey × AccountKind × Option (List UInt8))) (slot : UInt64) :
    (s.applyBatch accounts slot).1.tracked = s.tracked := rfl

/-- Tracks only the given oracles. -/
def oraclesToTrack (oracles : List OracleInfo) : TrackedAccounts := TrackedAccounts.ofOracles oracles

/-- Whether the state account (if tracked) and every tracked market are cached. -/
def hasRequiredAccounts (s : AccountStore) : Bool :=
  (match s.tracked.state with
    | some k => s.cache.contains k
    | none => true) &&
  s.tracked.perpMarkets.all (fun (_, k) => s.cache.contains k) &&
  s.tracked.spotMarkets.all (fun (_, k) => s.cache.contains k)

/-- Forgets every cached account. -/
def clear (s : AccountStore) : AccountStore := { s with cache := SlotCache.empty }

/-- The cached account at an address, if it has the layout `pick` accepts. -/
def cachedAs {α : Type} (s : AccountStore) (pick : DecodedAccount → Option α) (k : Pubkey) :
    Option (Stamped α) := do
  let e ← s.cache.get? k
  let a ← pick e.data
  pure ⟨a, e.slot⟩

/-- The program state, if tracked and cached. -/
def state (s : AccountStore) : Option (Stamped ProgramState) := do
  s.cachedAs (fun | .state a => some a | _ => none) (← s.tracked.state)

/-- A perp market at an address. -/
def perpMarketAt (s : AccountStore) (k : Pubkey) : Option (Stamped PerpMarket) :=
  s.cachedAs (fun | .perpMarket m => some m | _ => none) k

/-- A spot market at an address. -/
def spotMarketAt (s : AccountStore) (k : Pubkey) : Option (Stamped SpotMarket) :=
  s.cachedAs (fun | .spotMarket m => some m | _ => none) k

/-- A tracked perp market by index. -/
def perpMarket (s : AccountStore) (i : UInt16) : Option (Stamped PerpMarket) := do
  s.perpMarketAt (← Ordered.find? compareIndex i s.tracked.perpMarkets)

/-- A tracked spot market by index. -/
def spotMarket (s : AccountStore) (i : UInt16) : Option (Stamped SpotMarket) := do
  s.spotMarketAt (← Ordered.find? compareIndex i s.tracked.spotMarkets)

/-- Every tracked perp market that is cached, by index. -/
def perpMarkets (s : AccountStore) : List (Stamped PerpMarket) :=
  s.tracked.perpMarkets.filterMap fun (_, k) => s.perpMarketAt k

/-- Every tracked spot market that is cached, by index. -/
def spotMarkets (s : AccountStore) : List (Stamped SpotMarket) :=
  s.tracked.spotMarkets.filterMap fun (_, k) => s.spotMarketAt k

/-- An oracle price at an address. -/
def oracle (s : AccountStore) (k : Pubkey) : Option (Stamped OraclePrice) :=
  s.cachedAs (fun | .oracle p => some p | _ => none) k

/-- A user account at an address. -/
def user (s : AccountStore) (k : Pubkey) : Option (Stamped UserAccount) :=
  s.cachedAs (fun | .user u => some u | _ => none) k

/-- The store as a lookup of market records by index. -/
def markets (s : AccountStore) : MarketLookup :=
  ⟨fun i => (s.perpMarket i).map (·.data), fun i => (s.spotMarket i).map (·.data)⟩

end AccountStore

end PerpClient
