import PerpClient.Session.Tasks
/-!
# A client session: subscribing

What the main task does to keep the store fresh, in either mode:

* `poll` reads every tracked account, then loads the oracles the markets name that were not
  tracked yet; a decode error of the read wins over the result of that load;
* `subscribe` polls once and subscribes only when the state account and every tracked market are
  cached; polling then starts the ticker, notifications start the supervisor and one watcher per
  tracked account;
* `unsubscribe` stops the ticker at once, or signals shutdown and waits until every remembered
  watcher and the supervisor have ended; either way the cache is emptied;
* `extend` tracks more accounts and, while subscribed, loads (and watches) only the additions.
-/

namespace PerpClient

namespace Session

/-- What a poll answers: a decode error of the read wins over the result of loading the
discovered oracles. -/
def pollOutcome (o : BatchOutcome) (loaded : Except ClientError Unit) : Outcome Unit :=
  match o.result, loaded with
  | .error e, _ => .error (.client e)
  | .ok (), .error e => .error (.client e)
  | .ok (), .ok () => .ok ()

/-- Reads every tracked account, then loads the newly discovered oracles. -/
def poll : Sim (Outcome Unit) := do
  match ← readTracked with
  | .error f => pure (.error f)
  | .ok o => pollOutcome o <$> mainLoadAdded (← trackDiscovered o)

/-- Starts a watcher for every tracked account without one, while subscribed. -/
def ensureWatchers : Sim Unit := do
  let s ← get
  if let some ctx := s.sub.context then startWatchers ctx s.store.targets

/-- Sets the subscriber. -/
def setSub (f : Subscriber → Subscriber) : Sim Unit := modify fun s => { s with sub := f s.sub }

/-- Starts keeping a populated cache fresh; false when the state account or a tracked market is
not cached. -/
def startKeepingFresh : Sim Bool := do
  if !(← get).store.hasRequiredAccounts then return false
  match (← get).sub.mode with
  | .polling period =>
    let id ← freshId
    setSub fun sub => { sub with ticker := some ⟨id, period, .fresh⟩ }
    wake (.task id)
  | .notifications _ =>
    setSub fun sub => { sub with shutdown := sub.shutdown + 1 }
    let seen := (← get).sub.shutdown
    let id ← freshId
    setSub fun sub => { sub with supervisor := some ⟨id, [], none, seen⟩, context := some ⟨seen, id⟩ }
    wake (.task id)
    ensureWatchers
  setSub fun sub => { sub with subscribed := true }
  pure true

/-- Populates the cache and starts keeping it fresh; false when the state account or a tracked
market could not be loaded. -/
def subscribe : Sim Bool := do
  if (← get).sub.subscribed then return true
  let _ ← poll
  startKeepingFresh

/-- Refreshes every tracked account once; with notifications, also watches what is not watched. -/
def fetch : Sim (Outcome Unit) := do
  match (← get).sub.mode with
  | .polling _ => poll
  | .notifications _ =>
    match ← poll with
    | .error f => pure (.error f)
    | .ok () =>
      ensureWatchers
      pure (.ok ())

/-- Whether none of these tasks runs any more. -/
def allEnded (ids : List Nat) (s : Session) : Bool := ids.all fun id => !s.alive id

/-- Stops the ticker at once. -/
def stopTicker : Sim Unit := do
  let s ← get
  let stopped := (s.sub.ticker.map (TaskRef.task ·.id)).toList
  set { s with queue := s.queue.filter (· ∉ stopped), sub := { s.sub with ticker := none } }

/-- Signals shutdown to the watchers and the supervisor, wakes them and forgets the watcher map;
answers the tasks to wait for: the remembered watchers and the supervisor. -/
def signalShutdown : Sim (List Nat) := do
  setSub fun sub => { sub with shutdown := sub.shutdown + 1, context := none }
  let s ← get
  s.sub.watchers.forM fun w => wake (.task w.id)
  if let some sp := s.sub.supervisor then wake (.task sp.id)
  setSub fun sub => { sub with watcherMap := [] }
  pure (s.sub.watcherMap.map (·.2) ++ (s.sub.supervisor.map (·.id)).toList)

/-- Marks the subscription ended and empties the cache. -/
def endSubscription : Sim Unit :=
  modify fun s => { s with store := s.store.clear, sub := { s.sub with subscribed := false } }

/-- Stops keeping the cache fresh and empties it. -/
def unsubscribe : Sim Unit := do
  match (← get).sub.mode with
  | .polling _ => stopTicker
  | .notifications _ =>
    let awaited ← signalShutdown
    runUntil (allEnded awaited) clockFuel
  endSubscription

/-- Tracks more accounts; while subscribed, loads (and watches) only the additions. -/
def extend (more : TrackedAccounts) : Sim (Outcome Unit) := do
  let added ← track more
  if added.isEmpty || !(← get).sub.subscribed then return .ok ()
  let loaded ← mainLoadAdded added
  if let .notifications _ := (← get).sub.mode then ensureWatchers
  pure (match loaded with
    | .ok () => .ok ()
    | .error e => .error (.client e))

end Session

end PerpClient
