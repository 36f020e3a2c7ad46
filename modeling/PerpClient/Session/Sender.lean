import PerpClient.Session.Tasks
import PerpClient.Transaction.Sign
import PerpClient.Time.Duration
/-!
# A client session: sending transactions

Sending writes the transaction's bytes to the ledger, then confirms it in rounds:

* by polling: up to `maxPollRetries` status queries, each miss followed by a delay that doubles
  from `pollInterval` (never above the round's bound), all within `timeout`; a delay ending
  exactly at the bound still gets its query;
* by notifications: one signature subscription, answered after a delay, never, or failing in
  transport; without a notifier this is polling;
* by both: both sides at once; whichever side decides first (a confirmation or a rejection) wins,
  and a side that timed out or failed in transport leaves the decision to the other. At an
  instant where both are ready the scheduler's choice (`pollingFirstAt`) says which goes first.

A round without a decision is sent again (`rebroadcast`, skipping the preflight checks, a failed
resend ignored) as often as the policy allows, then counted as a timeout. The loop of sends and
rounds (`sendLoop`) is written over any surroundings; the session runs it against its ledger,
its rounds and its timeout counter. A recording observer notes the hooks: before signing, after
signing, after the first send.
-/

namespace PerpClient

/-- How many resends the policy allows. -/
def TimeoutPolicy.resends : TimeoutPolicy → Nat
  | .rebroadcast n => n
  | .fail => 0

namespace Session

/-- Records a sender hook when an observer records. -/
def record (e : SenderEvent) : Sim Unit :=
  modify fun s => if s.recording then { s with events := s.events ++ [e] } else s

/-- Signs a transaction in its own format, between the two signing hooks. -/
def signTx (tx : Transaction) (keys : List Signing.Keypair) : Sim (Outcome Transaction) := do
  record (.preSign tx.message.version tx.firstSignature)
  match tx.sign keys with
  | .error e => pure (.error (.client (.signing e.message)))
  | .ok signed =>
    record (.onSigned signed.message.version signed.firstSignature)
    pure (.ok signed)

/-- The delay after the miss at `attempt`, in milliseconds. -/
def missDelay (c : SenderConfig) (attempt : Nat) : Nat :=
  (exponentialBackoff (Duration.ofMillis c.pollInterval) attempt (Duration.ofMillis c.timeout)).millisCeil

/-- The outcome of a confirmation round: the slot it was confirmed at, or none when undecided. -/
abbrev RoundOutcome := Outcome (Option UInt64)

/-- The status of a signature as a round's outcome, or none for a miss. -/
def statusOutcome (sig : Signature) : SignatureStatus → Option RoundOutcome
  | .confirmed slot => some (.ok (some slot))
  | .failed slot reason => some (.error (.client (.transactionFailed sig slot reason)))
  | .pending => none
  | .unknown => none

/-- Sleeps until `wake`, then goes on; a wake past the round's `deadline` ends the round there,
undecided. -/
def sleepThen (deadline wake : Nat) (k : Sim RoundOutcome) : Sim RoundOutcome := do
  if wake > deadline then
    sleepUntil deadline
    pure (.ok none)
  else
    sleepUntil wake
    k

/-- Polling from query `attempt` on, with `remaining` queries left, within `deadline`. -/
def pollFrom (sig : Signature) (deadline : Nat) : Nat → Nat → Sim RoundOutcome
  | _, 0 => pure (.ok none)
  | attempt, remaining + 1 => do
    match ← attempt' with
    | .error f => pure (.error f)
    | .ok status =>
      match statusOutcome sig status with
      | some r => pure r
      | none =>
        let wake := (← get).now + missDelay (← get).sender attempt
        sleepThen deadline wake (pollFrom sig deadline (attempt + 1) remaining)
where
  attempt' : Sim (Outcome SignatureStatus) := attempt (ledgerOf.getSignatureStatus sig)

/-- One round of confirmation by polling. -/
def confirmByPolling (sig : Signature) : Sim RoundOutcome := do
  let s ← get
  pollFrom sig (s.now + s.sender.timeout) 0 s.sender.maxPollRetries

/-- The notification side of a round begun at `now`: the instant it completes and its outcome.
A notifier that answers within the round completes then, with the status as the outcome (a status
that decides nothing leaves the round open); a failing subscription completes at once with the
transport error; a silent notifier, or one answering after the deadline, completes at the
deadline with no decision. -/
def notification (sig : Signature) (now deadline : Nat) : SignatureNotifier → Nat × RoundOutcome
  | .answering status delay =>
    if now + delay ≤ deadline then (now + delay, (statusOutcome sig status).getD (.ok none))
    else (deadline, .ok none)
  | .silent => (deadline, .ok none)
  | .failing reason => (now, .error (.client (.rpc reason)))

/-- One round of confirmation by notification: it waits for the notification side. -/
def confirmByNotification (sig : Signature) : Sim RoundOutcome := do
  let s ← get
  match s.signatureNotifier with
  | none => confirmByPolling sig
  | some n =>
    let (due, r) := notification sig s.now (s.now + s.sender.timeout) n
    sleepUntil due
    pure r

/-- Whether a round's outcome leaves the decision open: undecided, or a transport failure. -/
def undecided (r : RoundOutcome) : Bool :=
  match r with
  | .ok slot => slot.isNone
  | .error f =>
    match f.clientError? with
    | some (.rpc _) => true
    | _ => false

/-- Whether the notification side, due at `due`, completes before an event of the polling side
at `now`: it fell due earlier, or it falls due then and the scheduler takes it first. -/
def notifiedBefore (due now : Nat) (pollingFirst : Bool) : Bool :=
  due < now || (due == now && !pollingFirst)

section Race

/-! Both sides of a round at once. The polling side yields at each of its sleeps, however short;
the notification side is due at `due` with `notified`. Each step answers the round's outcome and
whether the polling side completed first. -/

variable (sig : Signature) (deadline due : Nat) (notified : RoundOutcome)

/-- The notification side completes while the polling side is still going: a decision ends the
round, an open outcome leaves the polling side to go on alone with `rest`. -/
def notifiedFirst (rest : Sim RoundOutcome) : Sim (RoundOutcome × Bool) :=
  if undecided notified then (·, false) <$> rest else pure (notified, false)

/-- The polling side completes now with `r`. After the notification side, an open notification
leaves `r`; before it, an open `r` waits for the notification side. -/
def polledNow (r : RoundOutcome) : Sim (RoundOutcome × Bool) := do
  let s ← get
  if notifiedBefore due s.now (s.pollingFirstAt s.now) then
    pure (if undecided notified then r else notified, false)
  else if undecided r then
    sleepUntil due
    pure (notified, true)
  else pure (r, true)

/-- Polling from query `attempt` on, with `remaining` queries left, against the notification
side. A notification that decides the round ends it when it falls due; one that leaves the round
open changes nothing for the polling side. -/
def pollRacing : Nat → Nat → Sim (RoundOutcome × Bool)
  | _, 0 => polledNow due notified (.ok none)
  | attempt, remaining + 1 => do
    let s ← get
    if notifiedBefore due s.now (s.pollingFirstAt s.now) then
      notifiedFirst notified (pollFrom sig deadline attempt (remaining + 1))
    else
      match ← pollFrom.attempt' sig with
      | .error f => polledNow due notified (.error f)
      | .ok status =>
        match statusOutcome sig status with
        | some r => polledNow due notified r
        | none =>
          let s ← get
          let wake := s.now + missDelay s.sender attempt
          -- the polling side yields: a notification due by now completes first
          if due ≤ s.now then
            notifiedFirst notified
              (sleepThen deadline wake (pollFrom sig deadline (attempt + 1) remaining))
          -- a decision due before the polling side's next event ends the round then
          else if undecided notified = false ∧ due < min wake deadline then
            sleepUntil due
            pure (notified, false)
          else if wake > deadline then
            sleepUntil deadline
            polledNow due notified (.ok none)
          else
            sleepUntil wake
            pollRacing (attempt + 1) remaining

end Race

/-- One round of confirmation by both means at once. -/
def confirmByBoth (sig : Signature) : Sim RoundOutcome := do
  let s ← get
  match s.signatureNotifier with
  | none => confirmByPolling sig
  | some n =>
    let deadline := s.now + s.sender.timeout
    let (due, notified) := notification sig s.now deadline n
    let (r, _) ← pollRacing sig deadline due notified 0 s.sender.maxPollRetries
    pure r

/-- One confirmation round by the configured means. -/
def confirm (sig : Signature) : Sim RoundOutcome := do
  match (← get).sender.strategy with
  | .polling => confirmByPolling sig
  | .notifications => confirmByNotification sig
  | .both => confirmByBoth sig

/-- Confirmation rounds with `resends` resends left, over any surroundings: a round that
confirms or fails ends them; a round without a decision is followed by a resend while resends
are left, and is otherwise counted as a timeout (`countTimeout` counts it and answers the new
count). -/
def confirmLoop {m : Type → Type} [Monad m] (round : m RoundOutcome) (resend : m Unit)
    (countTimeout : m Nat) (sig : Signature) (resends : Nat) :
    m (Outcome (Signature × UInt64)) := do
  match ← round with
  | .error f => pure (.error f)
  | .ok (some slot) => pure (.ok (sig, slot))
  | .ok none =>
    match resends with
    | n + 1 =>
      resend
      confirmLoop round resend countTimeout sig n
    | 0 =>
      let count ← countTimeout
      pure (.error (.client (.confirmationTimeout sig count.toUInt64)))

/-- Sends wire bytes with `config` and, once sent, confirms them in rounds; a failed first send
ends it, a resend skips the preflight checks and its failure is ignored. -/
def sendLoop {m : Type → Type} [Monad m] (send : List UInt8 → SendConfig → m (Outcome Signature))
    (round : m RoundOutcome) (onSent : m Unit) (countTimeout : m Nat) (wire : List UInt8)
    (sig : Signature) (config : SendConfig) (resends : Nat) : m (Outcome (Signature × UInt64)) := do
  match ← send wire config with
  | .error f => pure (.error f)
  | .ok _ =>
    onSent
    confirmLoop round (do let _ ← send wire { config with skipPreflight := true }) countTimeout
      sig resends

/-- Counts a confirmation timeout; answers the new count. -/
def countTimeout : Sim Nat := do
  let s ← get
  set { s with timeoutCount := s.timeoutCount + 1 }
  pure (s.timeoutCount + 1)

/-- Sends wire bytes to the session's ledger. -/
def sendWire (wire : List UInt8) (config : SendConfig) : Sim (Outcome Signature) :=
  attempt (ledgerOf.sendRawTransaction wire config)

/-- Sends a signed transaction and waits until it is confirmed: its signature and the slot.
The send options are the given ones, else the sender's own. -/
def sendSigned (tx : Transaction) (config : Option SendConfig) :
    Sim (Outcome (Signature × UInt64)) := do
  let s ← get
  sendLoop sendWire (confirm tx.firstSignature) (record (.onSent tx.firstSignature tx.encode.length))
    countTimeout tx.encode tx.firstSignature (config.getD s.sender.sendConfig)
    s.sender.timeoutPolicy.resends

/-- Signs (unless already signed) and sends a transaction, then waits for its confirmation. -/
def send (tx : Transaction) (keys : List Signing.Keypair) (config : Option SendConfig)
    (preSigned : Bool) : Sim (Outcome (Signature × UInt64)) := do
  if preSigned then sendSigned tx config
  else
    match ← signTx tx keys with
    | .error f => pure (.error f)
    | .ok signed => sendSigned signed config

end Session

end PerpClient
