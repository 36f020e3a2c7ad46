import PerpClient.Api.Build
import PerpClient.Api.Store
import PerpClient.Session.Client
/-!
# The session request

`sdk {construct?, config, steps}` opens a session and drives it step by step. The ledger steps
script the session's ledger; every other step is a call of the client. After every step the
session settles: every ready task runs, the clock stands still.

A malformed configuration or construction answers as a whole; so does a client defect in any
step. A failing step answers its error in its own slot.
-/

namespace PerpClient.Api

open Json

/-- A confirmation strategy by name. -/
def strategyOfName? : String → Option ConfirmationStrategy
  | "Polling" => some .polling
  | "WebSocket" => some .notifications
  | "Combo" => some .both
  | _ => none

/-- A timeout policy: `"fail"` or `{"rebroadcast": n}` (three resends by default). -/
def readTimeoutPolicy (v : Value) : Option TimeoutPolicy :=
  match v.str? with
  | some "fail" => some .fail
  | some _ => none
  | none => do pure (.rebroadcast (← wordOr v "rebroadcast" 32 3))

/-- The sender's configuration `{strategy, timeout_ms, poll_interval_ms, max_poll_retries,
timeout_policy}`. -/
def readSenderConfig (v : Value) : Option SenderConfig := do
  let d := SenderConfig.default
  pure {
    strategy := ← named v "strategy" strategyOfName? d.strategy
    timeout := ← wordOr v "timeout_ms" 64 d.timeout
    pollInterval := ← wordOr v "poll_interval_ms" 64 d.pollInterval
    maxPollRetries := ← wordOr v "max_poll_retries" 32 d.maxPollRetries
    timeoutPolicy := ← match v.field? "timeout_policy" with
      | none => some d.timeoutPolicy
      | some p => readTimeoutPolicy p
    sendConfig := d.sendConfig }

/-- A signature notifier: `{"failing": reason}`, `{"status": S}` (at once), or `{}` (silent). -/
def readSignatureNotifier (v : Value) : Option SignatureNotifier := do
  let _ ← v.obj?
  if let some r := v.field? "failing" then return .failing (← r.str?)
  if let some st := v.field? "status" then return .answering (← readStatus st) 0
  pure .silent

/-- How the cache is kept fresh: `{"type": "Polling"}` or `{"type": "WebSocket",
"resub_timeout_ms", "commitment"?}`. -/
def readSubscription (pollFrequency : Nat) (v : Value) : Option SubscriptionMode := do
  match ← textReq v "type" with
  | "Polling" => pure (.polling pollFrequency)
  | "WebSocket" =>
    let _ ← named v "commitment" Commitment.ofName? .confirmed
    pure (.notifications (← wordOr v "resub_timeout_ms" 64 3600000))
  | _ => none

/-- Whether hooks are recorded: `true` records, `"default"` keeps the silent hooks. -/
def readObserver (v : Value) : Option Bool :=
  match v.field? "observer" with
  | none => some false
  | some (.bool true) => some true
  | some (.str "default") => some false
  | some _ => none

/-- The session configuration of a request; `offline` for a session built on its own endpoints. -/
def readSessionConfig (offline : Bool) (v : Value) : Option SessionConfig := do
  let pollFrequency ← wordOr v "poll_frequency_ms" 64 3600000
  let mode ← match v.field? "subscription" with
    | none => pure (.polling pollFrequency)
    | some s => readSubscription pollFrequency s
  if offline then
    let _ ← text v "rpc_endpoint"
    let _ ← named v "commitment" Commitment.ofName? .confirmed
  pure {
    offline := offline
    notifierEndpoint := ← textOr v "ws_endpoint" "ws://127.0.0.1:8900"
    mode := mode
    isDevnet := ← flag v "is_devnet"
    txVersion := ← named v "tx_version" versionOfName? .v0
    budget := ← match v.field? "budget" with
      | none => pure defaultBuildParams.budget
      | some b => readBudget b
    marketLookupTable := ← match v.field? "market_lookup_table" with
      | none => pure none
      | some k => (pubkey? k).map some
    perpMarkets := ← indexList v "perp_market_indexes"
    spotMarkets := ← indexList v "spot_market_indexes"
    oracles := ← (← list v "oracle_infos").mapM readOracleInfo
    users := ← keyList v "users"
    batchDelay := ← wordOr v "batch_delay_ms" 64 10
    sender := ← match v.field? "confirmation" with
      | none => pure SenderConfig.default
      | some c => readSenderConfig c
    signatureNotifier := ← match v.field? "signature_notifier" with
      | none => pure none
      | some n => (readSignatureNotifier n).map some
    recording := ← readObserver v }

/-- A sent transaction as `{signature, slot}`. -/
def sentOut (r : Signature × UInt64) : Value :=
  .obj [("signature", .str r.1.toBase58), ("slot", .nat r.2.toNat)]

/-- A sender hook as recorded. -/
def senderEventOut : SenderEvent → Value
  | .preSign ver sig =>
    .obj [("event", .str "pre_sign"), ("version", .str (versionName ver)), ("signature", .str sig.toBase58)]
  | .onSigned ver sig =>
    .obj [("event", .str "on_signed"), ("version", .str (versionName ver)), ("signature", .str sig.toBase58)]
  | .onSent sig size =>
    .obj [("event", .str "on_sent"), ("signature", .str sig.toBase58), ("wire_size", .nat size)]

/-- The notifier as `{subscribe_calls, open}`, both by key bytes. -/
def notifierOut (n : Notifier) : Value :=
  let byKey := fun (a b : Pubkey) => Pubkey.compareBytes a b != .gt
  .obj [("subscribe_calls", .arr ((n.subscribeCalls.mergeSort fun a b => byKey a.1 b.1).map
      fun (k, c) => .arr [keyOut k, .nat c])),
    ("open", .arr (((n.openHandles.map (·.2)).mergeSort byKey).map keyOut))]

/-- An optional address. -/
def keyOptOut : Option Pubkey → Value
  | some k => keyOut k
  | none => .null

/-- The keys of the given seeds. -/
def readSigners (v : Value) : Option (List Signing.Keypair) := do
  (← list v "signers").mapM fun s => (s.word? 8).map fun n => seededKeypair n.toUInt8

/-- Pushes an update to the watcher of the latest subscription of an account: false when none
was opened or its watcher has ended. -/
def Session.push (k : Pubkey) (data : List UInt8) (slot : UInt64) : Sim Bool := do
  let s ← get
  match Ordered.find? Pubkey.compareBytes k s.notifier.sinks with
  | none => pure false
  | some id =>
    match s.watcher? id with
    | none => pure false
    | some w =>
      Session.saveWatcher { w with inbox := w.inbox ++ [(data, slot)] }
      Session.wake (.task id)
      pure true

/-- The first last built transaction, if any. -/
def firstBuilt (s : Session) : Option Transaction := (s.lastBuilt.head?).map (·.2)

/-- One call of the client; none for a malformed step. -/
def sessionCall (v : Value) : Option (Sim Value) := do
  let ok := Value.str "ok"
  match ← stepName v with
  | "subscribe" => pure (.bool <$> Session.subscribe)
  | "fetch" => pure ((outcomeOut fun _ => ok) <$> Session.fetch)
  | "unsubscribe" => pure do
      Session.unsubscribe
      pure (.bool (← get).sub.subscribed)
  | "is_subscribed" => pure do pure (.bool (← get).sub.subscribed)
  | "sleep" =>
    let ms ← wordReq v "ms" 64
    pure do
      Session.sleepUntil ((← get).now + ms)
      pure ok
  | "state" => pure do pure (stampedOpt (fun a => .obj (stateFields a)) (← get).store.state)
  | "perp_market" =>
    let i := (← wordReq v "index" 16).toUInt16
    pure do pure (stampedOpt (fun m => .obj (perpMarketFields m)) ((← get).store.perpMarket i))
  | "spot_market" =>
    let i := (← wordReq v "index" 16).toUInt16
    pure do pure (stampedOpt (fun m => .obj (spotMarketFields m)) ((← get).store.spotMarket i))
  | "perp_markets" => pure do
      pure (.arr ((← get).store.perpMarkets.map (stampedOut fun m => .obj (perpMarketFields m))))
  | "spot_markets" => pure do
      pure (.arr ((← get).store.spotMarkets.map (stampedOut fun m => .obj (spotMarketFields m))))
  | "oracle_for_perp" =>
    let i := (← wordReq v "index" 16).toUInt16
    pure do
      let st := (← get).store
      pure (stampedOpt (fun p => .obj (oracleFields p)) ((st.perpMarket i).bind fun m => st.oracle m.data.oracle))
  | "oracle_for_spot" =>
    let i := (← wordReq v "index" 16).toUInt16
    pure do
      let st := (← get).store
      pure (stampedOpt (fun p => .obj (oracleFields p)) ((st.spotMarket i).bind fun m => st.oracle m.data.oracle))
  | "user" =>
    let k ← keyReq v "pubkey"
    pure do pure (stampedOpt (fun u => .obj (userFields u)) ((← get).store.user k))
  | "active_user_account" => pure do
      pure (stampedOpt (fun u => .obj (userFields u)) (Session.activeUserAccount (← get)))
  | "active_user" => pure do pure (keyOptOut (← get).activeUser)
  | "force_perp_market" =>
    let i := (← wordReq v "index" 16).toUInt16
    pure ((outcomeOut fun m => .obj (perpMarketFields m)) <$> Session.forcePerpMarket i)
  | "force_state" => pure ((outcomeOut fun a => .obj (stateFields a)) <$> Session.forceState)
  | "force_user" =>
    let k ← keyReq v "pubkey"
    pure ((outcomeOut fun u => .obj (userFields u)) <$> Session.forceUser k)
  | "must_include" =>
    let perp ← indexList v "perp"
    let spot ← indexList v "spot"
    pure do
      modify fun s => { s with resolver := s.resolver.mustIncludeMarkets perp spot }
      pure ok
  | "add_user" =>
    let k ← keyReq v "pubkey"
    pure do
      match ← Session.addUser k with
      | .ok () => pure (keyOptOut (← get).activeUser)
      | .error f => pure (failureOut f)
  | "switch_active_user" =>
    let k ← keyReq v "pubkey"
    pure do
      match ← Session.switchActiveUser k with
      | .ok () => pure (keyOptOut (← get).activeUser)
      | .error f => pure (failureOut f)
  | "remaining_accounts" =>
    let params ← readParams ((v.field? "params").getD (.obj []))
    pure do
      match ← Session.remainingAccounts params with
      | .ok metas => pure (.arr (metas.map metaOut))
      | .error e => pure (clientErrorOut e e.message)
  | "last_active_slots" => pure do pure (slotTableOut (← get).slotTable)
  | "lookup_table" => pure (outcomeOut lookupTableOut <$> Session.lookupTable)
  | "timeout_count" => pure do pure (.nat (← get).timeoutCount)
  | "observer_events" => pure do pure (.arr ((← get).events.map senderEventOut))
  | "notifier" => pure do pure (notifierOut (← get).notifier)
  | "notifier_fail" =>
    let reason ← textOpt v "reason"
    pure do
      modify fun s => { s with notifier := { s.notifier with failReason := reason } }
      pure ok
  | "push" =>
    let k ← keyReq v "address"
    let data ← (← readAccountData v)
    let slot := (← word v "slot" 64).toUInt64
    pure (.bool <$> Session.push k data slot)
  | "sign_map" =>
    let keys ← readSigners v
    pure do
      pure (outcomeOut (fun named => .arr (named.map fun (n, tx) => .arr [.str n, txOut tx]))
        (← Session.signLastBuilt keys))
  | "send" =>
    let keys ← readSigners v
    let preSigned ← flag v "pre_signed"
    pure do
      match firstBuilt (← get) with
      | none => pure badInput
      | some tx => outcomeOut sentOut <$> Session.send tx keys none preSigned
  | "send_signed" => pure do
      match firstBuilt (← get) with
      | none => pure badInput
      | some tx => outcomeOut sentOut <$> Session.sendSigned tx none
  | "send_for_markets" =>
    let keys ← readSigners v
    let perps ← indexList v "perp"
    let spots ← indexList v "spot"
    pure do
      match firstBuilt (← get) with
      | none => pure badInput
      | some tx => outcomeOut sentOut <$> Session.sendForMarkets tx keys perps spots
  | _ => none

/-- A build step: its answer, or the defect that stops the client. -/
def buildCall (v : Value) : Option (Sim (Except String Value)) := do
  let req ← readBuildRequest v
  let payer ← key v "payer"
  pure do
    match readParamsOver (Session.buildParams (← get) payer) v with
    | none => pure (.ok badInput)
    | some params =>
      match ← Session.build req params with
      | .ok answer => pure (.ok (buildAnswerOut answer))
      | .error f =>
        match f.defect? with
        | some text => pure (.error text)
        | none => pure (.ok (failureOut f))

/-- One step: a ledger step, a build or a call, then the session settles. The answer, or the
defect that stops the client. -/
def sessionStep (v : Value) : Sim (Except String Value) := do
  let r ← match ledgerStep (← get).ledger v with
    | none => pure (.ok badInput)
    | some (some (l, out)) => do
      modify fun s => { s with ledger := l }
      pure (.ok out)
    | some none =>
      if stepName v = some "build" then
        match buildCall v with
        | none => pure (.ok badInput)
        | some call => call
      else
        match sessionCall v with
        | none => pure (.ok badInput)
        | some call => Except.ok <$> call
  Session.settle
  pure r

/-- Runs the steps in order; a defect stops them all. -/
def sessionSteps : List Value → Sim (Except String (List Value))
  | [] => pure (.ok [])
  | v :: rest => do
    match ← sessionStep v with
    | .error text => pure (.error text)
    | .ok out =>
      match ← sessionSteps rest with
      | .error text => pure (.error text)
      | .ok outs => pure (.ok (out :: outs))

/-- `sdk {construct?, config, steps}`. -/
def sessionOp (v : Value) : Option Value := do
  let offline ← match v.field? "construct" with
    | none => pure false
    | some (.str "from_parts") => pure false
    | some (.str "new") => pure true
    | some _ => none
  let config ← readSessionConfig offline ((v.field? "config").getD (.obj []))
  let steps ← list v "steps"
  match Session.connect config with
  | .error f => pure (failureOut f)
  | .ok session =>
    match ((sessionSteps steps).run session).1 with
    | .ok outs => pure (.arr outs)
    | .error text => pure (failureOut (.defect text))

end PerpClient.Api
