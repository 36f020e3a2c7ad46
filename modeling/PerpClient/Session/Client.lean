import PerpClient.Session.Subscriber
import PerpClient.Session.Sender
/-!
# A client session: the client's operations

A session starts from its configuration: the accounts it tracks (the program state, the
configured markets and oracles, then the users; the first user is the active one), how the cache
is kept fresh, the transaction format and budget, and how transactions are confirmed.

* The force getters fetch until the account is cached: a perp market is tracked first if it is
  not, then fetched at most ten times.
* Adding a user tracks it (and loads it while subscribed); the first user added becomes active.
* Remaining accounts are resolved against the store, with the active user's snapshot slot for
  last-active eviction.
* A build starts from the configured format and budget; its ready transactions become the last
  built ones, which signing and sending use.
* Sending for markets stamps each named market with the confirmed slot.

A session that cannot reach its endpoints fails at start when it needs a notification
connection.
-/

namespace PerpClient

/-- How a session is set up. -/
structure SessionConfig where
  /-- The endpoint is not an absolute address: no request reaches a ledger. -/
  offline : Bool
  /-- The notification endpoint, to report a failed connection. -/
  notifierEndpoint : String
  mode : SubscriptionMode
  isDevnet : Bool
  txVersion : TransactionVersion
  budget : Budget.Policy
  marketLookupTable : Option Pubkey
  perpMarkets : List UInt16
  spotMarkets : List UInt16
  oracles : List OracleInfo
  users : List Pubkey
  batchDelay : Nat
  sender : SenderConfig
  signatureNotifier : Option SignatureNotifier
  recording : Bool

namespace Session

/-- The session a configuration describes, before it has done anything. -/
def start (c : SessionConfig) : Session where
  now := 0
  nextOrder := 0
  queue := []
  nextTaskId := 0
  ledger := ScriptedLedger.initial
  offline := c.offline
  store := AccountStore.new
    ((TrackedAccounts.forMarkets c.perpMarkets c.spotMarkets c.oracles).withUsers c.users)
    AccountDecoder.borsh
  batchDelay := c.batchDelay
  batch := none
  mainAnswers := none
  sub := ⟨c.mode, false, none, [], [], none, none, 0⟩
  notifier := ⟨[], [], [], 0, none⟩
  resolver := Resolver.default
  slotTable := SlotTable.empty
  activeUser := c.users.head?
  marketLookupTable := c.marketLookupTable.getD
    (if c.isDevnet then Program.devnetLookupTable else Program.mainnetLookupTable)
  cachedTable := none
  txVersion := c.txVersion
  budget := c.budget
  sender := c.sender
  signatureNotifier := c.signatureNotifier
  pollingFirstAt := fun _ => true
  timeoutCount := 0
  recording := c.recording
  events := []
  lastBuilt := []

/-- Why a notification connection to an endpoint that is not an address cannot be opened, for a
given purpose. -/
def connectFailure (purpose endpoint : String) : Failure :=
  .noted s!"{purpose} needs a websocket connection"
    (.noted s!"failed to connect to {endpoint}" (.client (.rpc "url parse error")))

/-- Opens a session. Offline, a session that needs notifications (for accounts, or for
signatures) fails to connect, and no signature notifier is used. -/
def connect (c : SessionConfig) : Outcome Session :=
  if c.offline then
    if let .notifications _ := c.mode then
      .error (connectFailure "account subscription" c.notifierEndpoint)
    else if c.sender.strategy ≠ .polling then
      .error (connectFailure "signature confirmation" c.notifierEndpoint)
    else .ok (start { c with signatureNotifier := none })
  else .ok (start c)

/-! ## Accounts -/

/-- How often a force getter fetches at most. -/
def forceRetries : Nat := 10

/-- Fetches until the perp market is cached, at most `n` times; failed fetches are ignored. -/
def fetchUntilPerpMarket (i : UInt16) : Nat → Sim Unit
  | 0 => pure ()
  | n + 1 => do
    if ((← get).store.perpMarket i).isSome then return
    let _ ← fetch
    fetchUntilPerpMarket i n

/-- The perp market, fetched until cached; tracked first if it is not. -/
def forcePerpMarket (i : UInt16) : Sim (Outcome PerpMarket) := do
  if !Ordered.contains compareIndex i (← get).store.tracked.perpMarkets then
    if let .error f ← extend (TrackedAccounts.forMarkets [i] [] []) then return .error f
  fetchUntilPerpMarket i forceRetries
  pure (match (← get).store.perpMarket i with
    | some m => .ok m.data
    | none => .error (.client (.perpMarketNotLoaded i)))

/-- The program state after one fetch. -/
def forceState : Sim (Outcome ProgramState) := do
  if let .error f ← fetch then return .error f
  pure (match (← get).store.state with
    | some st => .ok st.data
    | none => .error (.client (.accountNotFound Program.stateAccount)))

/-- Starts tracking a user; the first user added becomes the active one. -/
def addUser (k : Pubkey) : Sim (Outcome Unit) := do
  if let .error f ← extend (TrackedAccounts.empty.withUsers [k]) then return .error f
  modify fun s => if s.activeUser.isNone then { s with activeUser := some k } else s
  pure (.ok ())

/-- A user account: tracked and loaded if it is not tracked, fetched otherwise. -/
def forceUser (k : Pubkey) : Sim (Outcome UserAccount) := do
  let r ← if k ∈ (← get).store.tracked.users then fetch else addUser k
  if let .error f := r then return .error f
  pure (match (← get).store.user k with
    | some u => .ok u.data
    | none => .error (.client (.accountNotFound k)))

/-- Makes a user the active one, tracking it first if needed. -/
def switchActiveUser (k : Pubkey) : Sim (Outcome Unit) := do
  if !(k ∈ (← get).store.tracked.users) then
    if let .error f ← addUser k then return .error f
  modify fun s => { s with activeUser := some k }
  pure (.ok ())

/-- The active user's cached account. -/
def activeUserAccount (s : Session) : Option (Stamped UserAccount) := s.activeUser.bind s.store.user

/-- Resolves remaining accounts against the store, evicting by the active user's slot. -/
def remainingAccounts (p : RemainingParams) : Sim (Except ClientError (List AccountMeta)) := do
  let s ← get
  let (table, r) := s.resolver.resolve p s.store.markets s.slotTable ((activeUserAccount s).map (·.slot))
  set { s with slotTable := table }
  pure r

/-! ## Transactions -/

/-- The builder of the session: its ledger and its market lookup table, kept once fetched. -/
def builderEnv (s : Session) : BuilderEnv Session :=
  ⟨ledgerOf, s.marketLookupTable, (·.cachedTable), fun t s => { s with cachedTable := some t }⟩

/-- The market lookup table, fetched once and kept. -/
def lookupTable : Sim (Outcome LookupTable) := do
  attempt (Builder.fetchMarketLookupTable (builderEnv (← get)))

/-- Build params in the configured format and budget. -/
def buildParams (s : Session) (payer : Pubkey) : BuildParams := ⟨payer, s.txVersion, s.budget, none, none⟩

/-- Builds; the ready transactions become the last built ones (none after a failure). -/
def build (req : BuildRequest) (params : BuildParams) : Sim (Outcome BuildAnswer) := do
  modify fun s => { s with lastBuilt := [] }
  let r ← attempt (Builder.run (builderEnv (← get)) req params)
  if let .ok answer := r then modify fun s => { s with lastBuilt := answer.ready }
  pure r

/-- Signs named transactions in order; the first failure, noted with its name, ends all. -/
def signEach (keys : List Signing.Keypair) :
    List (String × Transaction) → Sim (Outcome (List (String × Transaction)))
  | [] => pure (.ok [])
  | (name, tx) :: rest => do
    match ← signTx tx keys with
    | .error f => pure (.error (.noted s!"failed to sign {name}" f))
    | .ok signed =>
      match ← signEach keys rest with
      | .error f => pure (.error f)
      | .ok more => pure (.ok ((name, signed) :: more))

/-- Signs every last built transaction, by ascending name. -/
def signLastBuilt (keys : List Signing.Keypair) : Sim (Outcome (List (String × Transaction))) := do
  signEach keys ((← get).lastBuilt.mergeSort fun a b => compare a.1 b.1 != .gt)

/-- Sends a transaction and stamps the given markets with the slot it was confirmed at. -/
def sendForMarkets (tx : Transaction) (keys : List Signing.Keypair) (perps spots : List UInt16) :
    Sim (Outcome (Signature × UInt64)) := do
  let r ← send tx keys none false
  if let .ok (_, slot) := r then
    modify fun s => { s with slotTable := s.slotTable.stamp perps spots slot }
  pure r

end Session

end PerpClient
