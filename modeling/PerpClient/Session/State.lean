import PerpClient.Store.AccountStore
import PerpClient.Ledger.Scripted
import PerpClient.Loader
import PerpClient.Transaction.Builder
import PerpClient.Remaining.Resolver
/-!
# A client session: its state

A session is one client at work: the ledger it talks to, its account store, and the tasks that
keep the store fresh and send transactions. The tasks run cooperatively on one thread and a
clock that only moves when every task waits: the caller's task (the *main* task) and background
tasks, each a small state machine named by an id.

* the loader's *flush*: loads asked for close together wait for one timer and one read;
* the *ticker* of a polling session: it reads every tracked account once per period;
* one *watcher* per watched account of a notification session: it applies pushed updates and
  resubscribes after a silence;
* the *supervisor* of a notification session: it loads the oracles watchers discover and
  starts watching them.

A task that can run sits in the ready queue, oldest first. Times are milliseconds since the
session started.
-/

namespace PerpClient

/-- A timer: when it fires and when it was set; timers firing together wake their tasks in the
order they were set. -/
structure Timer where
  deadline : Nat
  order : Nat
  deriving DecidableEq, Inhabited

/-- Who waits for the answers of a flush: the main task or a background task by its id. -/
inductive Waiter where
  | main
  | task (id : Nat)
  deriving DecidableEq, Inhabited

/-- A task that can be in the ready queue: the loader's flush or a background task by id. -/
inductive TaskRef where
  | flush
  | task (id : Nat)
  deriving DecidableEq, Inhabited

/-- Loads waiting for one flush, in the order they were asked for; the flush sets its timer
when it first runs. -/
structure PendingBatch where
  timer : Option Timer
  loads : List (Pubkey × Waiter)
  deriving Inhabited

/-- Freshly tracked accounts being loaded through the loader, with the answers once flushed. -/
structure AddedLoad where
  added : List (Pubkey × AccountKind)
  answers : Option (List Loader.LoadAnswer)
  deriving Inhabited

/-- Where the ticker is: not run yet, waiting for a tick, or loading discovered oracles before
waiting for the tick at `next`. -/
inductive TickerPhase where
  | fresh
  | waiting (timer : Timer)
  | loading (load : AddedLoad) (next : Nat)
  deriving Inhabited

/-- The polling task. -/
structure Ticker where
  id : Nat
  period : Nat
  phase : TickerPhase
  deriving Inhabited

/-- A watcher task of one account. -/
structure Watcher where
  id : Nat
  pubkey : Pubkey
  kind : AccountKind
  /-- Whether it has run and tried its first subscription. -/
  started : Bool
  /-- The open subscription, by handle. -/
  handle : Option Nat
  /-- When silence makes it resubscribe; none before it first waits. -/
  timer : Option Timer
  /-- Updates delivered and not read yet: data and slot. -/
  inbox : List (List UInt8 × UInt64)
  /-- The shutdown count it has seen. -/
  seen : Nat
  /-- The supervisor its discoveries go to. -/
  supervisor : Nat
  deriving Inhabited

/-- The supervisor task: batches of discovered oracles sent to it, and the batch it loads. -/
structure Supervisor where
  id : Nat
  inbox : List (List (Pubkey × AccountKind))
  loading : Option AddedLoad
  /-- The shutdown count it has seen; the watchers it starts see the same. -/
  seen : Nat
  deriving Inhabited

/-- How the cache is kept fresh: read every `frequency`, or push notifications with a new
subscription after `resubTimeout` of silence. -/
inductive SubscriptionMode where
  | polling (frequency : Nat)
  | notifications (resubTimeout : Nat)
  deriving DecidableEq, Inhabited

/-- What watchers started while subscribed share: the shutdown count they start from and the
supervisor their discoveries go to. -/
structure WatchContext where
  seen : Nat
  supervisor : Nat
  deriving Inhabited

/-- The subscriber's side of a session. -/
structure Subscriber where
  mode : SubscriptionMode
  subscribed : Bool
  ticker : Option Ticker
  /-- The watcher started for each account, as the subscriber remembers them. -/
  watcherMap : List (Pubkey × Nat)
  /-- The watchers still running. -/
  watchers : List Watcher
  supervisor : Option Supervisor
  /-- While subscribed, what new watchers start from. -/
  context : Option WatchContext
  /-- How often shutdown has been signalled (or cleared); a task that has seen fewer stops. -/
  shutdown : Nat
  deriving Inhabited

/-- The account notifier: subscriptions asked for and open, and where updates go. -/
structure Notifier where
  /-- Subscription attempts per account, failed ones included. -/
  subscribeCalls : List (Pubkey × Nat)
  /-- Open subscriptions: handle and account. -/
  openHandles : List (Nat × Pubkey)
  /-- The watcher the latest subscription of an account delivers to. -/
  sinks : List (Pubkey × Nat)
  nextHandle : Nat
  /-- While set, every subscription fails with this transport error. -/
  failReason : Option String
  deriving Inhabited

/-- How signature subscriptions are answered. -/
inductive SignatureNotifier where
  /-- After `delay` milliseconds, with this status. -/
  | answering (s : SignatureStatus) (delay : Nat)
  /-- Never. -/
  | silent
  /-- The subscription fails with a transport error. -/
  | failing (reason : String)
  deriving DecidableEq, Inhabited

/-- How a sent transaction is confirmed. -/
inductive ConfirmationStrategy where
  | notifications
  | polling
  | both
  deriving DecidableEq, Inhabited

/-- What a timed out confirmation round leads to. -/
inductive TimeoutPolicy where
  /-- Send the same bytes again, at most `max` times. -/
  | rebroadcast (max : Nat)
  | fail
  deriving DecidableEq, Inhabited

/-- How the sender confirms; times in milliseconds. -/
structure SenderConfig where
  strategy : ConfirmationStrategy
  /-- The bound on one confirmation round. -/
  timeout : Nat
  /-- The first polling delay, doubled after every miss. -/
  pollInterval : Nat
  maxPollRetries : Nat
  timeoutPolicy : TimeoutPolicy
  /-- The send options used when a send is given none. -/
  sendConfig : SendConfig
  deriving Inhabited

/-- The default sender: polling, 30 s rounds, 400 ms first delay, ten polls, three resends, the
default send options. -/
def SenderConfig.default : SenderConfig :=
  ⟨.polling, 30000, 400, 10, .rebroadcast 3, SendConfig.default⟩

/-- A hook of the sender, as an observer records it. -/
inductive SenderEvent where
  | preSign (version : TransactionVersion) (signature : Signature)
  | onSigned (version : TransactionVersion) (signature : Signature)
  | onSent (signature : Signature) (wireSize : Nat)
  deriving Inhabited

/-- A session. -/
structure Session where
  now : Nat
  nextOrder : Nat
  /-- Tasks that can run, oldest first. -/
  queue : List TaskRef
  nextTaskId : Nat
  ledger : ScriptedLedger
  /-- The session's connection reaches no ledger: every request fails. -/
  offline : Bool
  store : AccountStore
  batchDelay : Nat
  batch : Option PendingBatch
  /-- The main task's answers from the latest flush, until it takes them. -/
  mainAnswers : Option (List Loader.LoadAnswer)
  sub : Subscriber
  notifier : Notifier
  resolver : Resolver
  slotTable : SlotTable
  activeUser : Option Pubkey
  marketLookupTable : Pubkey
  cachedTable : Option LookupTable
  txVersion : TransactionVersion
  budget : Budget.Policy
  sender : SenderConfig
  signatureNotifier : Option SignatureNotifier
  /-- The scheduler's choice at an instant where both sides of a round by both means are ready:
  whether it takes the polling side first. -/
  pollingFirstAt : Nat → Bool
  timeoutCount : Nat
  /-- Whether sender hooks are recorded. -/
  recording : Bool
  events : List SenderEvent
  /-- The ready transactions of the latest build, by name, in result order. -/
  lastBuilt : List (String × Transaction)

/-- A step of the main task. -/
abbrev Sim := StateM Session

namespace Session

/-- Appends a task to the ready queue unless it is already there. -/
def wake (t : TaskRef) : Sim Unit :=
  modify fun s => if s.queue.contains t then s else { s with queue := s.queue ++ [t] }

/-- A timer firing at `deadline`, set after every timer set so far. -/
def newTimerAt (deadline : Nat) : Sim Timer := do
  let s ← get
  set { s with nextOrder := s.nextOrder + 1 }
  pure ⟨deadline, s.nextOrder⟩

/-- A timer `delay` from now. -/
def newTimer (delay : Nat) : Sim Timer := do newTimerAt ((← get).now + delay)

/-- A fresh task id. -/
def freshId : Sim Nat := do
  let s ← get
  set { s with nextTaskId := s.nextTaskId + 1 }
  pure s.nextTaskId

/-- The running watcher with this id. -/
def watcher? (s : Session) (id : Nat) : Option Watcher := s.sub.watchers.find? (·.id = id)

/-- Replaces the running watcher of the same id. -/
def saveWatcher (w : Watcher) : Sim Unit :=
  modify fun s => { s with sub := { s.sub with
    watchers := s.sub.watchers.map fun x => if x.id = w.id then w else x } }

/-- Ends a watcher. -/
def dropWatcher (id : Nat) : Sim Unit :=
  modify fun s => { s with sub := { s.sub with watchers := s.sub.watchers.filter (·.id ≠ id) } }

/-- Whether a background task is still running. -/
def alive (s : Session) (id : Nat) : Bool :=
  (s.watcher? id).isSome || s.sub.supervisor.any (·.id = id) || s.sub.ticker.any (·.id = id)

end Session

end PerpClient
