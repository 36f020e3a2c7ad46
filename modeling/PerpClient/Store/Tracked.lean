import PerpClient.Account.Decoded
import PerpClient.Ordered
/-!
# Tracked accounts

The set of accounts a subscriber keeps cached: the program state, perp and spot markets by
index, oracles by address with the feed model they are read with, and user accounts. Markets
are listed by ascending index and oracles by ascending address bytes, so the targets of a set
come out in one stable order: state, perps, spots, oracles, users.

Merging another set adds only what is not tracked yet, by index for markets and by address for
oracles and users, never the no-oracle address, and answers exactly the additions.

* `mergeUsers_fst`: merging users appends exactly the users it answers as added.
-/

namespace PerpClient

/-- An oracle address with the feed model it is read with. -/
structure OracleInfo where
  pubkey : Pubkey
  source : OracleSource
  deriving DecidableEq, Inhabited

/-- Accounts a subscriber keeps in its cache. -/
structure TrackedAccounts where
  state : Option Pubkey
  /-- Perp markets, by ascending index. -/
  perpMarkets : List (UInt16 × Pubkey)
  /-- Spot markets, by ascending index. -/
  spotMarkets : List (UInt16 × Pubkey)
  /-- Oracles, by ascending address bytes. -/
  oracles : List (Pubkey × OracleSource)
  /-- Users, in the order they were added. -/
  users : List Pubkey
  deriving DecidableEq, Inhabited

namespace TrackedAccounts

/-- Nothing tracked. -/
def empty : TrackedAccounts := ⟨none, [], [], [], []⟩

/-- A set given by its parts; of two markets with one index, or two oracles with one address,
the later stays. Users are kept as given. -/
def ofParts (state : Option Pubkey) (perps spots : List (UInt16 × Pubkey))
    (oracles : List (Pubkey × OracleSource)) (users : List Pubkey) : TrackedAccounts :=
  ⟨state, Ordered.ofList compareIndex perps, Ordered.ofList compareIndex spots,
    Ordered.ofList Pubkey.compareBytes oracles, users⟩

/-- The program state and the given markets at their program addresses, with the oracles. -/
def forMarkets (perps spots : List UInt16) (oracles : List OracleInfo) : TrackedAccounts :=
  ofParts (some Program.stateAccount) (perps.map fun i => (i, Program.perpMarketAddress i))
    (spots.map fun i => (i, Program.spotMarketAddress i)) (oracles.map fun o => (o.pubkey, o.source))
    []

/-- Only the given oracles. -/
def ofOracles (oracles : List OracleInfo) : TrackedAccounts :=
  ofParts none [] [] (oracles.map fun o => (o.pubkey, o.source)) []

/-- Adds the users not tracked yet, in order. -/
def withUsers (t : TrackedAccounts) (users : List Pubkey) : TrackedAccounts :=
  { t with users := users.foldl (fun us u => if u ∈ us then us else us ++ [u]) t.users }

/-- Every tracked account with the layout it holds: state, perps, spots, oracles, users. -/
def targets (t : TrackedAccounts) : List (Pubkey × AccountKind) :=
  (t.state.map fun s => (s, AccountKind.state)).toList ++
    t.perpMarkets.map (fun (_, p) => (p, .perpMarket)) ++
    t.spotMarkets.map (fun (_, p) => (p, .spotMarket)) ++
    t.oracles.map (fun (p, s) => (p, .oracle s)) ++
    t.users.map (fun u => (u, .user))

/-- Adds the markets of `other` whose index is not tracked yet; answers the additions. -/
def mergeMarkets (mine : List (UInt16 × Pubkey)) (other : List (UInt16 × Pubkey)) :
    List (UInt16 × Pubkey) × List Pubkey :=
  other.foldl (fun (acc : List (UInt16 × Pubkey) × List Pubkey) (ip : UInt16 × Pubkey) =>
    if Ordered.contains compareIndex ip.1 acc.1 then acc
    else (Ordered.insert compareIndex ip.1 ip.2 acc.1, acc.2 ++ [ip.2])) (mine, [])

/-- Adds the oracles of `other` not tracked yet, never the no-oracle address; answers the
additions. -/
def mergeOracles (mine other : List (Pubkey × OracleSource)) :
    List (Pubkey × OracleSource) × List (Pubkey × OracleSource) :=
  other.foldl (fun (acc : List (Pubkey × OracleSource) × List (Pubkey × OracleSource))
      (ps : Pubkey × OracleSource) =>
    if ps.1 = Program.noOracle ∨ Ordered.contains Pubkey.compareBytes ps.1 acc.1 then acc
    else (Ordered.insert Pubkey.compareBytes ps.1 ps.2 acc.1, acc.2 ++ [ps])) (mine, [])

/-- Adds the users of `other` not tracked yet; answers the additions. -/
def mergeUsers (mine other : List Pubkey) : List Pubkey × List Pubkey :=
  other.foldl (fun (acc : List Pubkey × List Pubkey) u =>
    if u ∈ acc.1 then acc else (acc.1 ++ [u], acc.2 ++ [u])) (mine, [])

/-- Adds what `other` tracks and `t` does not; answers the new set and the additions, in
target order. -/
def merge (t other : TrackedAccounts) : TrackedAccounts × List (Pubkey × AccountKind) :=
  let (state, addedState) :=
    match t.state, other.state with
    | none, some s => (some s, [(s, AccountKind.state)])
    | s, _ => (s, [])
  let (perps, addedPerps) := mergeMarkets t.perpMarkets other.perpMarkets
  let (spots, addedSpots) := mergeMarkets t.spotMarkets other.spotMarkets
  let (oracles, addedOracles) := mergeOracles t.oracles other.oracles
  let (users, addedUsers) := mergeUsers t.users other.users
  (⟨state, perps, spots, oracles, users⟩,
    addedState ++ addedPerps.map (fun p => (p, .perpMarket)) ++
      addedSpots.map (fun p => (p, .spotMarket)) ++
      addedOracles.map (fun (p, s) => (p, .oracle s)) ++ addedUsers.map (fun u => (u, .user)))

/-- The users merged in are exactly the new ones, and they are appended. -/
theorem mergeUsers_fst (mine other : List Pubkey) :
    (mergeUsers mine other).1 = mine ++ (mergeUsers mine other).2 := by
  suffices h : ∀ acc : List Pubkey × List Pubkey, acc.1 = mine ++ acc.2 →
      (other.foldl (fun (acc : List Pubkey × List Pubkey) u =>
        if u ∈ acc.1 then acc else (acc.1 ++ [u], acc.2 ++ [u])) acc).1 =
      mine ++ (other.foldl (fun (acc : List Pubkey × List Pubkey) u =>
        if u ∈ acc.1 then acc else (acc.1 ++ [u], acc.2 ++ [u])) acc).2 by
    exact h (mine, []) (by simp)
  induction other with
  | nil => intro acc h; simpa using h
  | cons u rest ih =>
    intro acc h
    simp only [List.foldl_cons]
    apply ih
    split
    · exact h
    · simp [h]

end TrackedAccounts

end PerpClient
