import PerpClient.Session.State
import PerpClient.Ledger.Unreachable
/-!
# A client session: the background tasks and the clock

Each background task runs from one wait to the next (`runTask`); `runReady` runs the ready
queue until it is empty. The clock moves only when the main task waits and nothing is ready:

* `runUntil` lets the session run, moving the clock from timer to timer, until the main task's
  condition holds (its loads are answered, or the tasks it waits for have ended);
* `sleepUntil` lets it run up to a time. Timers that fire exactly then wake their tasks, but the
  main task goes on first.

The tasks:

* the *flush* takes every pending load once its delay has passed, reads each address once and
  hands each waiter the answers of its own loads;
* the *ticker* reads every tracked account at each tick; a tick more than 5 ms late starts the
  period afresh from the moment it ran, and a tick already due when awaited runs at once;
* a *watcher* applies queued updates first, then resubscribes when its silence timer fires; a
  shutdown ends it and closes its subscription;
* the *supervisor* loads each batch of discovered oracles, then starts watchers for them.

`applyLoaded` is the shared tail of loading freshly tracked accounts: the first failed load fails
the whole; otherwise the accounts are applied grouped by slot, lowest slot first.
-/

namespace PerpClient

namespace Session

/-! ## 1. The ledger and the store -/

/-- The session's ledger: the scripted one, or none at all when offline. -/
def ledgerOf : Ledger Session :=
  Ledger.choose (·.offline) Ledger.unreachable
    (Scripted.ledger (·.ledger) fun l s => { s with ledger := l })

/-- Runs a request of the session for its outcome. -/
def attempt {α : Type} (c : Client Session α) : Sim (Outcome α) := c.run

/-- Applies a batch of raw accounts read at `slot`. -/
def applyBatch (accounts : List (Pubkey × AccountKind × Option (List UInt8))) (slot : UInt64) :
    Sim BatchOutcome := do
  let s ← get
  let (store, o) := s.store.applyBatch accounts slot
  set { s with store := store }
  pure o

/-- Starts tracking more accounts; answers the additions. -/
def track (more : TrackedAccounts) : Sim (List (Pubkey × AccountKind)) := do
  let s ← get
  let (store, added) := s.store.track more
  set { s with store := store }
  pure added

/-- Tracks the oracles a batch discovered; answers the additions. -/
def trackDiscovered (o : BatchOutcome) : Sim (List (Pubkey × AccountKind)) :=
  if o.discoveredOracles.isEmpty then pure [] else track (AccountStore.oraclesToTrack o.discoveredOracles)

/-- Reads every tracked account once and applies what decoded. -/
def readTracked : Sim (Outcome BatchOutcome) := do
  let targets := (← get).store.targets
  match ← attempt (Loader.loadMany ledgerOf (targets.map (·.1))) with
  | .error f => pure (.error f)
  | .ok loaded =>
    let batch := (targets.zip loaded.data).map fun ((k, kind), d) => (k, kind, d)
    pure (.ok (← applyBatch batch loaded.slot))

/-- Each slot once, lowest first. -/
def ascendingSlots (slots : List UInt64) : List UInt64 :=
  (slots.foldl (fun acc x => if x ∈ acc then acc else acc ++ [x]) []).mergeSort
    fun a b => decide (a ≤ b)

/-- Applies freshly tracked accounts from their loads: the first failed load fails the whole;
otherwise each slot's accounts are applied together, lowest slot first, and every decode failure
is reported. -/
def applyLoaded (added : List (Pubkey × AccountKind)) (answers : List Loader.LoadAnswer) :
    Sim (Except ClientError Unit) := do
  match (added.zip answers).mapM (fun ((k, kind), a) => a.map fun st => (k, kind, st)) with
  | .error e => pure (.error e)
  | .ok entries =>
    let failures ← (ascendingSlots (entries.map (·.2.2.slot))).foldlM (fun acc slot => do
      let batch := (entries.filter (·.2.2.slot = slot)).map fun (k, kind, st) => (k, kind, st.data)
      let o ← applyBatch batch slot
      pure (acc ++ o.failures)) []
    pure (match ClientError.ofDecodeFailures failures with
      | some e => .error e
      | none => .ok ())

/-! ## 2. The batch loader -/

/-- Asks for accounts on behalf of a waiter: the loads join the pending batch, and the first
load of a batch starts its flush. -/
def requestLoads (w : Waiter) (keys : List Pubkey) : Sim Unit := do
  let s ← get
  match s.batch with
  | some b => set { s with batch := some { b with loads := b.loads ++ keys.map (·, w) } }
  | none =>
    set { s with batch := some ⟨none, keys.map (·, w)⟩ }
    wake .flush

/-- Hands a waiter the answers of its loads and wakes it; a task that ended gets nothing. -/
def handOver (w : Waiter) (answers : List Loader.LoadAnswer) : Sim Unit := do
  let s ← get
  match w with
  | .main => set { s with mainAnswers := some answers }
  | .task id =>
    match s.sub.ticker with
    | some ⟨tid, period, .loading load next⟩ =>
      if tid = id then
        set { s with sub := { s.sub with
          ticker := some ⟨tid, period, .loading { load with answers := some answers } next⟩ } }
        wake (.task id)
    | _ => pure ()
    match (← get).sub.supervisor with
    | some sp =>
      if sp.id = id then
        if let some load := sp.loading then
          modify fun s => { s with sub := { s.sub with
            supervisor := some { sp with loading := some { load with answers := some answers } } } }
          wake (.task id)
    | none => pure ()

/-- The flush's timer: set when the flush first runs; once it is due, the whole pending batch is
taken and nothing is pending any more. Answers the loads taken. -/
def takeBatch : Sim (Option (List (Pubkey × Waiter))) := do
  let s ← get
  match s.batch with
  | none => pure none
  | some b =>
    let t ← match b.timer with
      | some t => pure t
      | none => do
        let t ← newTimer s.batchDelay
        modify fun s => { s with batch := some { b with timer := some t } }
        pure t
    let s ← get
    if t.deadline ≤ s.now then
      set { s with batch := none }
      pure (some b.loads)
    else pure none

/-- The answers to a waiter's own loads of a batch, in the order asked. -/
def answersFor (loads : List (Pubkey × Waiter)) (answers : List Loader.LoadAnswer) (w : Waiter) :
    List Loader.LoadAnswer :=
  (loads.zip answers).filterMap fun ((_, w'), a) => if w' = w then some a else none

/-- Each waiter of a batch, once and in the order it first asked, with the answers to its own
loads. -/
def handOvers (loads : List (Pubkey × Waiter)) (answers : List Loader.LoadAnswer) :
    List (Waiter × List Loader.LoadAnswer) :=
  (appendNew [] (loads.map (·.2))).map fun w => (w, answersFor loads answers w)

/-- Flushes a taken batch: reads every address once and hands each waiter its answers. -/
def flushLoads (loads : List (Pubkey × Waiter)) : Sim Unit := do
  let answers ← Loader.flush ledgerOf (loads.map (·.1))
  (handOvers loads answers).forM fun (w, as) => handOver w as

/-- The flush: takes the batch once its timer is due, and flushes it. -/
def runFlush : Sim Unit := do
  if let some loads ← takeBatch then flushLoads loads

/-! ## 3. The ticker -/

/-- When the tick after one due at `due` is due, the tick running at `now`. -/
def nextTick (period due now : Nat) : Nat := if now > due + 5 then now + period else due + period

/-- Sets the ticker's phase. -/
def setTickerPhase (id : Nat) (p : TickerPhase) : Sim Unit :=
  modify fun s => { s with sub := { s.sub with
    ticker := s.sub.ticker.map fun tk => if tk.id = id then { tk with phase := p } else tk } }

/-- The ticker from awaiting the tick due at `due` on: a due tick reads every tracked account
and goes on to the next, unless discovered oracles have to be loaded first; a tick not due yet
is waited for. -/
def tickFrom (id period : Nat) : Nat → Nat → Sim Unit
  | 0, due => do setTickerPhase id (.waiting (← newTimerAt due))
  | fuel + 1, due => do
    let now := (← get).now
    if due ≤ now then
      let next := nextTick period due now
      let added ← match ← readTracked with
        | .error _ => pure []
        | .ok o => trackDiscovered o
      if added.isEmpty then tickFrom id period fuel next
      else
        requestLoads (.task id) (added.map (·.1))
        setTickerPhase id (.loading ⟨added, none⟩ next)
    else setTickerPhase id (.waiting (← newTimerAt due))

/-- How many ticks already due the ticker runs at once before it waits. -/
def tickFuel : Nat := 64

/-- Runs the ticker: a fresh ticker ticks at once (a zero period stops it) and waits one period;
a due timer ticks; a finished load is applied before the next tick is awaited. -/
def runTicker (id : Nat) : Sim Unit := do
  let s ← get
  match s.sub.ticker with
  | none => pure ()
  | some tk =>
    if tk.id ≠ id then return
    match tk.phase with
    | .fresh =>
      if tk.period = 0 then set { s with sub := { s.sub with ticker := none } }
      else tickFrom id tk.period tickFuel (s.now + tk.period)
    | .waiting t => if t.deadline ≤ s.now then tickFrom id tk.period tickFuel t.deadline
    | .loading load next =>
      if let some answers := load.answers then
        let _ ← applyLoaded load.added answers
        tickFrom id tk.period tickFuel next

/-! ## 4. Watchers and their notifier -/

/-- Asks the notifier for a subscription of a watcher's account; every attempt is counted, and
a successful one becomes where the account's updates go. -/
def subscribeAccount (w : Watcher) : Sim (Option Nat) := do
  let s ← get
  let n := s.notifier
  let calls := Ordered.alter Pubkey.compareBytes w.pubkey (fun c => c.getD 0 + 1) n.subscribeCalls
  match n.failReason with
  | some _ =>
    set { s with notifier := { n with subscribeCalls := calls } }
    pure none
  | none =>
    set { s with notifier := { n with
      subscribeCalls := calls
      sinks := Ordered.insert Pubkey.compareBytes w.pubkey w.id n.sinks
      openHandles := n.openHandles ++ [(n.nextHandle, w.pubkey)]
      nextHandle := n.nextHandle + 1 } }
    pure (some n.nextHandle)

/-- Closes a subscription. -/
def closeHandle (h : Nat) : Sim Unit :=
  modify fun s => { s with notifier := { s.notifier with
    openHandles := s.notifier.openHandles.filter (·.1 ≠ h) } }

/-- Ends a watcher and closes its subscription. -/
def stopWatcher (w : Watcher) : Sim Unit := do
  if let some h := w.handle then closeHandle h
  dropWatcher w.id

/-- Sends discovered accounts to a supervisor, if it still runs. -/
def sendToSupervisor (id : Nat) (added : List (Pubkey × AccountKind)) : Sim Unit := do
  let s ← get
  match s.sub.supervisor with
  | some sp =>
    if sp.id = id then
      set { s with sub := { s.sub with supervisor := some { sp with inbox := sp.inbox ++ [added] } } }
      wake (.task id)
  | none => pure ()

/-- Applies one pushed update; oracles it makes newly tracked go to the supervisor. -/
def applyUpdate (w : Watcher) (data : List UInt8) (slot : UInt64) : Sim Unit := do
  let o ← applyBatch [(w.pubkey, w.kind, some data)] slot
  let added ← trackDiscovered o
  if !added.isEmpty then sendToSupervisor w.supervisor added

/-- The silence after which a watcher resubscribes. -/
def resubTimeout (s : Session) : Nat :=
  match s.sub.mode with
  | .notifications r => r
  | .polling _ => 0

/-- A watcher from one wait on: queued updates first, then a due silence timer resubscribes;
each of them starts a new wait with a fresh timer. -/
def watchFrom : Nat → Watcher → Sim Unit
  | 0, w => saveWatcher w
  | fuel + 1, w => do
    let s ← get
    if w.seen ≠ s.sub.shutdown then stopWatcher w
    else match w.inbox with
      | (data, slot) :: rest =>
        let w := { w with inbox := rest, timer := none }
        saveWatcher w
        applyUpdate w data slot
        watchFrom fuel w
      | [] =>
        match w.timer with
        | none => watchFrom fuel { w with timer := some (← newTimer (resubTimeout s)) }
        | some t =>
          if t.deadline ≤ s.now then
            if let some h := w.handle then closeHandle h
            let h ← subscribeAccount w
            watchFrom fuel { w with handle := h, timer := none }
          else saveWatcher w

/-- How many waits a watcher goes through in one run at most. -/
def watchFuel : Nat := 1024

/-- Runs a watcher: a new one subscribes first, even when shutdown was signalled before it ever
ran; then a shutdown ends it and closes that subscription. -/
def runWatcher (id : Nat) : Sim Unit := do
  let s ← get
  match s.watcher? id with
  | none => pure ()
  | some w =>
    if w.started then watchFrom watchFuel w
    else
      let h ← subscribeAccount w
      watchFrom watchFuel { w with started := true, handle := h }

/-- Starts a watcher for every account that has none yet. -/
def startWatchers (ctx : WatchContext) (targets : List (Pubkey × AccountKind)) : Sim Unit :=
  targets.forM fun (k, kind) => do
    if ((← get).sub.watcherMap.find? (·.1 = k)).isNone then
      let id ← freshId
      modify fun s => { s with sub := { s.sub with
        watchers := s.sub.watchers ++ [⟨id, k, kind, false, none, none, [], ctx.seen, ctx.supervisor⟩]
        watcherMap := s.sub.watcherMap ++ [(k, id)] } }
      wake (.task id)

/-! ## 5. The supervisor -/

/-- Sets the supervisor. -/
def setSupervisor (sp : Option Supervisor) : Sim Unit :=
  modify fun s => { s with sub := { s.sub with supervisor := sp } }

/-- The supervisor from one wait on: a shutdown ends it; otherwise it takes the next batch of
discovered accounts and loads it (an empty one is watched at once). -/
def superviseFrom : Nat → Sim Unit
  | 0 => pure ()
  | fuel + 1 => do
    let s ← get
    match s.sub.supervisor with
    | none => pure ()
    | some sp =>
      if sp.seen ≠ s.sub.shutdown then setSupervisor none
      else match sp.inbox with
        | [] => pure ()
        | targets :: rest =>
          if targets.isEmpty then
            setSupervisor (some { sp with inbox := rest })
            superviseFrom fuel
          else
            setSupervisor (some { sp with inbox := rest, loading := some ⟨targets, none⟩ })
            requestLoads (.task sp.id) (targets.map (·.1))

/-- Runs the supervisor: a finished load is applied and its accounts watched, then it waits for
the next batch. -/
def runSupervisor (id : Nat) : Sim Unit := do
  match (← get).sub.supervisor with
  | none => pure ()
  | some sp =>
    if sp.id ≠ id then return
    match sp.loading with
    | some ⟨added, some answers⟩ =>
      let _ ← applyLoaded added answers
      setSupervisor (some { sp with loading := none })
      startWatchers ⟨sp.seen, sp.id⟩ added
      superviseFrom watchFuel
    | some ⟨_, none⟩ => pure ()
    | none => superviseFrom watchFuel

/-! ## 6. Scheduling -/

/-- Runs one task to its next wait. -/
def runTask : TaskRef → Sim Unit
  | .flush => runFlush
  | .task id => do
    let s ← get
    if s.sub.ticker.any (·.id = id) then runTicker id
    else if s.sub.supervisor.any (·.id = id) then runSupervisor id
    else runWatcher id

/-- Runs ready tasks, oldest first, until none is ready (or `fuel` runs are done). -/
def runReady : Nat → Sim Unit
  | 0 => pure ()
  | fuel + 1 => do
    let s ← get
    match s.queue with
    | [] => pure ()
    | t :: rest =>
      set { s with queue := rest }
      runTask t
      runReady fuel

/-- How many task runs settle the session at most. -/
def readyFuel : Nat := 100000

/-- Every timer set, with the task it wakes. -/
def timers (s : Session) : List (Timer × TaskRef) :=
  (match s.batch with
    | some ⟨some t, _⟩ => [(t, .flush)]
    | _ => []) ++
  (match s.sub.ticker with
    | some ⟨id, _, .waiting t⟩ => [(t, .task id)]
    | _ => []) ++
  s.sub.watchers.filterMap fun w => w.timer.map (·, .task w.id)

/-- The earliest deadline of any timer. -/
def nextDeadline (s : Session) : Option Nat :=
  (timers s).foldl (fun acc (t, _) => some (match acc with
    | some d => min d t.deadline
    | none => t.deadline)) none

/-- Moves the clock to `t` (never back) and wakes the tasks whose timers are due, in the order
the timers were set. -/
def advanceTo (t : Nat) : Sim Unit := do
  modify fun s => { s with now := max s.now t }
  let s ← get
  let due := ((timers s).filter (·.1.deadline ≤ s.now)).mergeSort fun a b => decide (a.1.order ≤ b.1.order)
  due.forM fun (_, task) => wake task

/-- How many times the clock moves for one wait of the main task at most. -/
def clockFuel : Nat := 1000000

/-- Lets the session run until `done` holds, moving the clock from timer to timer; stops when
no timer is left. -/
def runUntil (done : Session → Bool) : Nat → Sim Unit
  | 0 => pure ()
  | fuel + 1 => do
    runReady readyFuel
    let s ← get
    if done s then return
    match nextDeadline s with
    | none => pure ()
    | some t =>
      advanceTo t
      runUntil done fuel

/-- The main task sleeps until `t`: the session runs, the clock moving from timer to timer, and
then stands at `t`; tasks due exactly then are woken but run after the main task. A time already
passed returns at once. -/
def sleepUntil (t : Nat) : Sim Unit := do
  if t ≤ (← get).now then return
  go clockFuel
where
  go : Nat → Sim Unit
    | 0 => advanceTo t
    | fuel + 1 => do
      runReady readyFuel
      match nextDeadline (← get) with
      | some d =>
        if d < t then
          advanceTo d
          go fuel
        else advanceTo t
      | none => advanceTo t

/-- Settles the session: every ready task runs, the clock stands still. -/
def settle : Sim Unit := runReady readyFuel

/-! ## 7. Loads of the main task -/

/-- What a load answers when its flush never comes. -/
def droppedLoad : Loader.LoadAnswer := .error (.rpc "batch loader dropped the request")

/-- The main task asks for loads: answers it has not taken are dropped, and the loads join the
pending batch. -/
def askMainLoads (keys : List Pubkey) : Sim Unit := do
  modify fun s => { s with mainAnswers := none }
  requestLoads .main keys

/-- The main task takes the answers of its loads, once their flush has handed them over. -/
def takeMainAnswers (keys : List Pubkey) : Sim (List Loader.LoadAnswer) := do
  let s ← get
  set { s with mainAnswers := none }
  pure (s.mainAnswers.getD (keys.map fun _ => droppedLoad))

/-- Loads accounts through the batch loader and waits for their flush. -/
def mainLoad (keys : List Pubkey) : Sim (List Loader.LoadAnswer) := do
  askMainLoads keys
  runUntil (·.mainAnswers.isSome) clockFuel
  takeMainAnswers keys

/-- Loads freshly tracked accounts and applies them; nothing to load succeeds at once. -/
def mainLoadAdded (added : List (Pubkey × AccountKind)) : Sim (Except ClientError Unit) := do
  if added.isEmpty then return .ok ()
  applyLoaded added (← mainLoad (added.map (·.1)))

end Session

end PerpClient
