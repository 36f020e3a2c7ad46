import PerpClient.Proofs.WatcherSubscriptions
/-!
# The subscriber over every run of moves

A session takes moves in any order they allow (`Move`): the caller's calls up to their waits and
past them, any ready task at its wait, time passing, pushed updates, notifier failures and ledger
changes. Over every run from the start of a session:

* `Move.spec`, `runMoves_spec`: the step and the run lemma. A configuration is `Steady` when the
  subscriptions fit and what is left of the caller's call is quiet; every move keeps it, and hands
  the supervisor only oracles that were untracked before it and are tracked after it;
* `watchers_subscriptions_handOffs`: **the watcher map names each account at most once, the open
  subscriptions are exactly those the running watchers hold, and no oracle is handed to the
  supervisor twice.**

What does not hold is that unsubscribing leaves no watcher behind. Unsubscribing forgets the
watcher map and waits for the watchers it remembered and the supervisor; a supervisor still
loading discovered oracles then starts watchers for them into the emptied map, after the
shutdown it was told of. `unsubscribe_leaves_stale_watcher` is such a run: once unsubscribing has
returned, the map names the oracle, its watcher opens a subscription, and a later subscription,
which takes the map's entry for a running watcher, leaves the tracked oracle with none.
-/

namespace PerpClient

namespace Session

/-! ## 1. The step and the run lemma -/

/-- A configuration whose subscriptions fit and whose caller, if it waits, has a quiet rest. -/
structure Steady (cfg : Config) : Prop where
  held : Subscriptions cfg.session
  rest : RestQuiet cfg.main

theorem steady_initial (c : SessionConfig) : Steady (initial c) where
  held := ⟨List.nodup_nil, List.nodup_nil, fun _ hw => absurd hw List.not_mem_nil,
    fun _ hw => absurd hw List.not_mem_nil, List.Perm.refl _, List.nodup_nil,
    fun _ he => absurd he List.not_mem_nil⟩
  rest := trivial

/-- The notifier failing, or no longer failing, touches no subscription. -/
theorem quiet_failNotifier (s : Session) (reason : Option String) :
    Quiet s { s with notifier := { s.notifier with failReason := reason } } :=
  ⟨fun hs => hs.congr rfl rfl (Nat.le_refl _) rfl rfl, List.Subset.refl _,
    fun _ q hq => .inr ⟨q, hq, Nat.le_refl _⟩⟩

/-- **The step lemma**: every move keeps a configuration steady, and hands the supervisor only
fresh oracles. -/
theorem Move.spec (m : Move) {cfg : Config} (h : Steady cfg) :
    Steady (m.run cfg) ∧
      HandedFresh cfg.session (m.run cfg).session (handedOver cfg.session (m.run cfg).session) := by
  have hquiet : ∀ s', Quiet cfg.session s' →
      Steady ⟨s', cfg.main⟩ ∧ HandedFresh cfg.session s' (handedOver cfg.session s') :=
    fun s' hq => ⟨⟨hq.held h.held, h.rest⟩, (hq.spec h.held).2⟩
  cases m with
  | call c =>
    obtain ⟨hq, hrest⟩ := phaseQuiet_begin c cfg.session
    exact ⟨⟨hq.held h.held, hrest⟩, (hq.spec h.held).2⟩
  | resume =>
    obtain ⟨s, main⟩ := cfg
    cases main with
    | idle => exact hquiet s (Std.Refl.refl s)
    | waiting c done rest =>
      have hq : Quiet s (rest.run s).2 := h.rest s
      exact ⟨⟨hq.held h.held, trivial⟩, (hq.spec h.held).2⟩
  | task t =>
    -- the task leaves the queue, which no part of the specification reads, then runs
    have hq : Quiet cfg.session { cfg.session with queue := cfg.session.queue.erase t } :=
      Quiet.of_view rfl
    obtain ⟨hs', hf⟩ := runTask_spec t _ (hq.held h.held)
    exact ⟨⟨hs', h.rest⟩, hf.grows, hf.nodup, hf.fresh⟩
  | clock t => exact hquiet _ (Leads.quiet (keeps_advanceTo routine_quietView t) cfg.session)
  | push k data slot => exact hquiet _ (quiet_push k data slot cfg.session)
  | failNotifier reason => exact hquiet _ (quiet_failNotifier cfg.session reason)
  | ledger l => exact hquiet _ (Quiet.of_view rfl)

/-- The accounts handed to the supervisor along a run of moves, move by move. -/
def handedAlong : List Move → Config → List (Pubkey × AccountKind)
  | [], _ => []
  | m :: ms, cfg =>
    if m.enabled cfg then handedOver cfg.session (m.run cfg).session ++ handedAlong ms (m.run cfg)
    else []

/-- **The run lemma**: a run of moves keeps a configuration steady, and what it hands the
supervisor along the way is fresh, each account once. -/
theorem runMoves_spec : ∀ (ms : List Move) {cfg cfg' : Config}, runMoves ms cfg = some cfg' →
    Steady cfg → Steady cfg' ∧ HandedFresh cfg.session cfg'.session (handedAlong ms cfg)
  | [], _, _, h, hs => by
    cases h
    exact ⟨hs, HandedFresh.nil (List.Subset.refl _)⟩
  | m :: ms, cfg, cfg', h, hs => by
    simp only [runMoves] at h
    split at h
    · next hen =>
      obtain ⟨h1, h2⟩ := Move.spec m hs
      obtain ⟨h3, h4⟩ := runMoves_spec ms h h1
      refine ⟨h3, ?_⟩
      simp only [handedAlong, hen, ↓reduceIte]
      exact h2.append h4
    · cases h

/-- **One watcher per account, one subscription per watcher, each discovery handed over once.**
From the start of a session, over every run of moves (the caller's calls in any order with the
tasks' runs at every wait, pushed updates from current or superseded subscriptions at any slots,
silences and notifier failures), the watcher map names each account at most once; the open
subscriptions of the notifier are exactly those the running watchers hold, under distinct
handles, so that a watcher holds at most one; and the oracles handed to the supervisor along the
run are distinct, however many watchers discover them. -/
theorem watchers_subscriptions_handOffs (c : SessionConfig) (ms : List Move) (cfg : Config)
    (h : runMoves ms (initial c) = some cfg) :
    (cfg.session.sub.watcherMap.map (·.1)).Nodup ∧
      cfg.session.notifier.openHandles.Perm (held cfg.session.sub.watchers) ∧
      (cfg.session.notifier.openHandles.map (·.1)).Nodup ∧
      ((handedAlong ms (initial c)).map (·.1)).Nodup := by
  obtain ⟨hsteady, hfresh⟩ := runMoves_spec ms h (steady_initial c)
  exact ⟨hsteady.held.map_nodup, hsteady.held.open_held, hsteady.held.handles_nodup, hfresh.nodup⟩

/-! ## 2. A watcher left behind by unsubscribing -/

/-- A session with notifications and no configured accounts, to which one perp market is added. -/
def staleConfig : SessionConfig :=
  { offline := false, notifierEndpoint := "", mode := .notifications 1000, isDevnet := false,
    txVersion := Inhabited.default, budget := Inhabited.default, marketLookupTable := none,
    perpMarkets := [], spotMarkets := [], oracles := [], users := [], batchDelay := 0,
    sender := SenderConfig.default, signatureNotifier := none, recording := false }

def staleMarket : Pubkey := Pubkey.ofBytes [1]

def staleOracle : Pubkey := Pubkey.ofBytes [2]

/-- The market's account, naming `o` as its oracle. -/
def staleMarketData (o : Pubkey) : List UInt8 :=
  encodeAccount (DecodedAccount.perpMarket { (Inhabited.default : PerpMarket) with
    pubkey := staleMarket, oracle := o, oracleSource := .pyth }).write

/-- A ledger with the state account and the market, which names no oracle yet. -/
def staleLedger : ScriptedLedger :=
  { ScriptedLedger.initial with
    accounts := [(Program.stateAccount, encodeAccount (DecodedAccount.state Inhabited.default).write),
      (staleMarket, staleMarketData Program.noOracle)] }

/-- Subscribing to the market; a push names an oracle, the market's watcher (task 2) hands it to
the supervisor (task 0), which asks for it to be loaded; the ledger then fails reads, and the
load ends. -/
def staleSetup : List Move :=
  [.ledger staleLedger, .call (.extend ⟨none, [(0, staleMarket)], [], [], []⟩), .call .subscribe,
    .task (.task 2), .push staleMarket (staleMarketData staleOracle) 1, .task (.task 2),
    .task (.task 0), .ledger { staleLedger with failReads := some ⟨"down", true⟩ }, .task .flush]

/-- Unsubscribing with the supervisor still to take the load's outcome: the supervisor, woken by
the shutdown, starts a watcher for the oracle before it sees the shutdown; the watchers end and
unsubscribing returns. -/
def staleRun : List Move :=
  staleSetup ++ [.call .unsubscribe, .task (.task 0), .task (.task 1), .task (.task 2), .resume]

/-- Over the run that leaves a watcher behind, the map still names each account once and the
open subscriptions are those the watchers hold. -/
theorem staleRun_subscriptions_fit :
    ∃ cfg ∈ runMoves staleRun (initial staleConfig),
      (cfg.session.sub.watcherMap.map (·.1)).Nodup ∧
        cfg.session.notifier.openHandles.Perm (held cfg.session.sub.watchers) ∧
        (cfg.session.notifier.openHandles.map (·.1)).Nodup ∧
        ((handedAlong staleRun (initial staleConfig)).map (·.1)).Nodup := by
  have hrun : (runMoves staleRun (initial staleConfig)).isSome := by decide +kernel
  obtain ⟨cfg, hcfg⟩ := Option.isSome_iff_exists.mp hrun
  exact ⟨cfg, hcfg, watchers_subscriptions_handOffs staleConfig staleRun cfg hcfg⟩

/-- **Unsubscribing can leave a watcher behind.** Once unsubscribing has returned, the watcher
map names the oracle under the watcher the supervisor started; that watcher then opens a
subscription; and after a later subscription that succeeds the oracle is tracked, yet no running
watcher watches it, since the map's stale entry keeps one from starting. -/
theorem unsubscribe_leaves_stale_watcher :
    (∃ cfg ∈ runMoves staleRun (initial staleConfig),
      cfg.main.call? = none ∧ cfg.session.sub.watcherMap = [(staleOracle, 3)]) ∧
    (∃ cfg ∈ (runMoves staleRun (initial staleConfig)).bind (runMoves [.task (.task 3)]),
      cfg.session.notifier.subscribeCalls.lookup staleOracle = some 1) ∧
    (∃ cfg ∈ (runMoves staleRun (initial staleConfig)).bind
        (runMoves [.task (.task 3), .ledger staleLedger, .call .subscribe]),
      cfg.session.sub.subscribed = true ∧ staleOracle ∈ cfg.session.store.targets.map (·.1) ∧
        ∀ w ∈ cfg.session.sub.watchers, w.pubkey ≠ staleOracle) := by
  decide +kernel

end Session

end PerpClient
