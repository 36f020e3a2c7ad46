import PerpClient.Proofs.SessionFrame
import PerpClient.Api.Session
/-!
# The session's tasks in every order

A session runs its tasks cooperatively. The caller's task runs a call until the call waits, for
the answers of its loads or for the tasks it stopped to end; only then do the background tasks
run, each from one wait to the next. The session's own scheduler runs them oldest first and moves
the clock from timer to timer (`runUntil`). The program it models promises no such order, so here
a session takes *moves* (`Move`), in any order the moves allow:

* `call c`: the caller starts a call, which runs up to its wait (`Call.begin`);
* `resume`: a call whose wait is over runs to its end;
* `task t`: any ready task runs to its next wait;
* `clock t`: time passes, waking the tasks whose timers are due;
* `push`, `failNotifier`, `ledger`: the notifier delivers an update of an account, or starts or
  stops failing the subscriptions asked of it; the ledger changes.

A configuration (`Config`) is a session with where its caller stands (`MainPhase`).

* `Call.begin_finish`: a call cut at its wait, whose wait the session's own scheduler runs, is the
  call as the caller makes it;
* `runReady_moves`, `runUntil_moves`: the scheduler's order is one run of task and clock moves,
  and `Call.run_reachable`: a call whose wait ends with what it waits for is one run of moves;
* `runMoves_preserves`: what every move keeps, every run keeps.
-/

namespace PerpClient

namespace Session

/-! ## 1. The subscriber's calls, cut at their waits -/

/-- A call the caller makes of the account subscriber. -/
inductive Call where
  | subscribe
  | fetch
  | extend (more : TrackedAccounts)
  | unsubscribe
  deriving DecidableEq

/-- The call as the caller makes it, its answer dropped. -/
def Call.run : Call → Sim Unit
  | .subscribe => do let _ ← Session.subscribe; pure ()
  | .fetch => do let _ ← Session.fetch; pure ()
  | .extend more => do let _ ← Session.extend more; pure ()
  | .unsubscribe => Session.unsubscribe

/-- Where the caller stands: between calls, or inside a call that waits until `done` holds and
then does `rest`. -/
inductive MainPhase where
  | idle
  | waiting (call : Call) (done : Session → Bool) (rest : Sim Unit)

/-- The call the caller waits in, if any. -/
def MainPhase.call? : MainPhase → Option Call
  | .idle => none
  | .waiting c _ _ => some c

/-- The wait as the session's own scheduler runs it, then the rest of the call. -/
def MainPhase.finish : MainPhase → Sim Unit
  | .idle => pure ()
  | .waiting _ done rest => do runUntil done clockFuel; rest

/-- Loading freshly tracked accounts within the call `c`, up to the wait for the loads, then `k`
with the outcome; with nothing to load `k` runs at once. -/
def loadAddedThen (c : Call) (added : List (Pubkey × AccountKind))
    (k : Except ClientError Unit → Sim Unit) : Sim MainPhase :=
  if added.isEmpty then do k (.ok ()); pure .idle
  else do
    askMainLoads (added.map (·.1))
    pure (.waiting c (·.mainAnswers.isSome) do
      let answers ← takeMainAnswers (added.map (·.1))
      k (← applyLoaded added answers))

/-- A poll within the call `c`, up to its wait, then `k` with its outcome. -/
def pollThen (c : Call) (k : Outcome Unit → Sim Unit) : Sim MainPhase := do
  match ← readTracked with
  | .error f => do k (.error f); pure .idle
  | .ok o => loadAddedThen c (← trackDiscovered o) fun loaded => k (pollOutcome o loaded)

/-- A call up to its wait: what the caller does before the background tasks may run. -/
def Call.begin : Call → Sim MainPhase
  | .subscribe => do
    if (← get).sub.subscribed then return .idle
    pollThen .subscribe fun _ => do let _ ← startKeepingFresh; pure ()
  | .fetch => do
    match (← get).sub.mode with
    | .polling _ => pollThen .fetch fun _ => pure ()
    | .notifications _ => pollThen .fetch fun
      | .error _ => pure ()
      | .ok () => ensureWatchers
  | .extend more => do
    let added ← track more
    if added.isEmpty || !(← get).sub.subscribed then return .idle
    loadAddedThen (.extend more) added fun _ => do
      if let .notifications _ := (← get).sub.mode then ensureWatchers
  | .unsubscribe => do
    match (← get).sub.mode with
    | .polling _ => do stopTicker; endSubscription; pure .idle
    | .notifications _ => do
      let awaited ← signalShutdown
      pure (.waiting .unsubscribe (allEnded awaited) endSubscription)

theorem loadAddedThen_finish (c : Call) (added : List (Pubkey × AccountKind))
    (k : Except ClientError Unit → Sim Unit) :
    loadAddedThen c added k >>= MainPhase.finish = mainLoadAdded added >>= k := by
  unfold loadAddedThen mainLoadAdded mainLoad
  split
  · simp [MainPhase.finish]
  · simp [MainPhase.finish]

theorem pollThen_finish (c : Call) (k : Outcome Unit → Sim Unit) :
    pollThen c k >>= MainPhase.finish = poll >>= k := by
  simp only [pollThen, poll, bind_assoc]
  congr 1
  funext r
  cases r with
  | error f => simp [MainPhase.finish]
  | ok o => simp only [bind_assoc, loadAddedThen_finish, bind_map_left]

/-- **A call cut at its wait is the call.** Starting a call, then letting the session's own
scheduler run the wait and going on with the rest, is the call as the caller makes it. -/
theorem Call.begin_finish (c : Call) : c.begin >>= MainPhase.finish = c.run := by
  cases c with
  | subscribe =>
    simp only [Call.begin, Call.run, Session.subscribe, bind_assoc]
    congr 1
    funext s
    split
    · simp [MainPhase.finish]
    · simp only [pollThen_finish, bind_assoc]
  | fetch =>
    simp only [Call.begin, Call.run, Session.fetch, bind_assoc]
    congr 1
    funext s
    cases hm : s.sub.mode with
    | polling p => simp only [pollThen_finish]
    | notifications r =>
      simp only [pollThen_finish, bind_assoc]
      congr 1
      funext o
      rcases o with f | ⟨⟩
      · simp
      · simp
  | extend more =>
    simp only [Call.begin, Call.run, Session.extend, bind_assoc]
    congr 1
    funext added
    congr 1
    funext s
    split
    · simp [MainPhase.finish]
    · simp only [loadAddedThen_finish, bind_assoc]
      congr 1
      funext loaded
      congr 1
      funext s'
      cases s'.sub.mode <;> simp
  | unsubscribe =>
    simp only [Call.begin, Call.run, Session.unsubscribe, bind_assoc]
    congr 1
    funext s
    cases hm : s.sub.mode with
    | polling p => simp [MainPhase.finish]
    | notifications r => simp [MainPhase.finish]

/-! ## 2. Moves -/

/-- A session, with where its caller stands. -/
structure Config where
  session : Session
  main : MainPhase

/-- A session as a configuration starts it, its caller between calls. -/
def initial (c : SessionConfig) : Config := ⟨start c, .idle⟩

/-- One move of a session. -/
inductive Move where
  /-- The caller starts a call, which runs up to its wait. -/
  | call (c : Call)
  /-- The call the caller waits in goes on to its end. -/
  | resume
  /-- A ready task runs to its next wait. -/
  | task (t : TaskRef)
  /-- Time passes up to `t`, waking the tasks whose timers are then due. -/
  | clock (t : Nat)
  /-- The notifier delivers an update of an account. -/
  | push (k : Pubkey) (data : List UInt8) (slot : UInt64)
  /-- The notifier fails every subscription asked of it from now on, or no longer does. -/
  | failNotifier (reason : Option String)
  /-- The ledger changes. -/
  | ledger (l : ScriptedLedger)

namespace Move

/-- Whether a move can be made: a call only between calls, a resumption only once what its call
waits for holds, a task only while it is ready. -/
def enabled : Move → Config → Bool
  | .call _, cfg => cfg.main.call?.isNone
  | .resume, cfg =>
    match cfg.main with
    | .idle => false
    | .waiting _ done _ => done cfg.session
  | .task t, cfg => cfg.session.queue.contains t
  | .clock _, _ => true
  | .push _ _ _, _ => true
  | .failNotifier _, _ => true
  | .ledger _, _ => true

/-- The configuration a move leads to. A task is taken off the queue before it runs, as the
scheduler takes it. -/
def run : Move → Config → Config
  | .call c, cfg => ⟨(c.begin.run cfg.session).2, (c.begin.run cfg.session).1⟩
  | .resume, cfg =>
    match cfg.main with
    | .idle => cfg
    | .waiting _ _ rest => ⟨(rest.run cfg.session).2, .idle⟩
  | .task t, cfg =>
    ⟨((runTask t).run { cfg.session with queue := cfg.session.queue.erase t }).2, cfg.main⟩
  | .clock t, cfg => ⟨((advanceTo t).run cfg.session).2, cfg.main⟩
  | .push k data slot, cfg => ⟨((Api.Session.push k data slot).run cfg.session).2, cfg.main⟩
  | .failNotifier reason, cfg =>
    ⟨{ cfg.session with notifier := { cfg.session.notifier with failReason := reason } },
      cfg.main⟩
  | .ledger l, cfg => ⟨{ cfg.session with ledger := l }, cfg.main⟩

end Move

/-- Makes the moves one after another; none when one of them cannot be made. -/
def runMoves : List Move → Config → Option Config
  | [], cfg => some cfg
  | m :: ms, cfg => if m.enabled cfg then runMoves ms (m.run cfg) else none

theorem runMoves_append (ms ms' : List Move) (cfg : Config) :
    runMoves (ms ++ ms') cfg = (runMoves ms cfg).bind (runMoves ms') := by
  induction ms generalizing cfg with
  | nil => rfl
  | cons m ms ih =>
    simp only [List.cons_append, runMoves]
    split
    · exact ih _
    · rfl

/-- A configuration that some run of moves leads to. -/
def Reachable (cfg₀ cfg : Config) : Prop := ∃ ms, runMoves ms cfg₀ = some cfg

theorem Reachable.refl (cfg : Config) : Reachable cfg cfg := ⟨[], rfl⟩

theorem Reachable.trans {cfg₀ cfg cfg' : Config} (h : Reachable cfg₀ cfg)
    (h' : Reachable cfg cfg') : Reachable cfg₀ cfg' := by
  obtain ⟨ms, hms⟩ := h
  obtain ⟨ms', hms'⟩ := h'
  exact ⟨ms ++ ms', by rw [runMoves_append, hms]; exact hms'⟩

theorem Reachable.step {cfg₀ cfg : Config} (h : Reachable cfg₀ cfg) (m : Move)
    (he : m.enabled cfg = true) : Reachable cfg₀ (m.run cfg) :=
  h.trans ⟨[m], by simp [runMoves, he]⟩

/-- **The run lemma.** What every move keeps, every run of moves keeps. -/
theorem runMoves_preserves {P : Config → Prop}
    (hstep : ∀ (m : Move) cfg, m.enabled cfg = true → P cfg → P (m.run cfg)) :
    ∀ ms cfg cfg', runMoves ms cfg = some cfg' → P cfg → P cfg'
  | [], _, _, h, hp => by
    cases h
    exact hp
  | m :: ms, cfg, cfg', h, hp => by
    simp only [runMoves] at h
    split at h
    · exact runMoves_preserves hstep ms _ _ h (hstep m cfg ‹_› hp)
    · cases h

/-! ## 3. The session's own scheduler is one order of the moves -/

/-- Running the ready tasks oldest first is a run of task moves, the caller standing where it
stood. -/
theorem runReady_moves : ∀ (fuel : Nat) (s : Session) (main : MainPhase),
    Reachable ⟨s, main⟩ ⟨((runReady fuel).run s).2, main⟩
  | 0, s, main => Reachable.refl _
  | fuel + 1, s, main => by
    rw [runReady, run_bind_pair, run_get_pair]
    cases hq : s.queue with
    | nil => exact Reachable.refl _
    | cons t rest =>
      dsimp only
      rw [run_bind_pair, run_set_pair, run_bind_pair]
      -- the oldest task is one of the ready ones: taking it is a task move
      have htask : (Move.task t).run ⟨s, main⟩ =
          ⟨((runTask t).run { s with queue := rest }).2, main⟩ := by
        simp only [Move.run, hq, List.erase_cons_head]
      have hen : (Move.task t).enabled ⟨s, main⟩ = true := by
        simp [Move.enabled, hq]
      have h1 := (Reachable.refl _).step (Move.task t) hen
      rw [htask] at h1
      exact h1.trans (runReady_moves fuel _ main)

/-- Letting the session run until `done` holds, the clock moving from timer to timer, is a run
of task and clock moves. -/
theorem runUntil_moves (done : Session → Bool) : ∀ (fuel : Nat) (s : Session) (main : MainPhase),
    Reachable ⟨s, main⟩ ⟨((runUntil done fuel).run s).2, main⟩
  | 0, s, main => Reachable.refl _
  | fuel + 1, s, main => by
    rw [runUntil, run_bind_pair, run_bind_pair, run_get_pair]
    refine (runReady_moves readyFuel s main).trans ?_
    dsimp only
    split
    · exact Reachable.refl _
    · split
      · exact Reachable.refl _
      · next t _ =>
        rw [run_bind_pair]
        have h1 := (Reachable.refl ⟨((runReady readyFuel).run s).2, main⟩).step (Move.clock t) rfl
        exact h1.trans (runUntil_moves done fuel _ main)

/-- **The session's own order is one of the orders.** A call as the caller makes it, whose wait
ends with what it waits for, is one run of moves: the call up to its wait, the scheduler's task
and clock moves, and the rest of the call. -/
theorem Call.run_reachable (c : Call) (s : Session)
    (hwait : ∀ c' done rest, (c.begin.run s).1 = .waiting c' done rest →
      done ((runUntil done clockFuel).run (c.begin.run s).2).2 = true) :
    Reachable ⟨s, .idle⟩ ⟨(c.run.run s).2, .idle⟩ := by
  rw [← Call.begin_finish, run_bind_pair]
  have hcall : Reachable ⟨s, .idle⟩ ⟨(c.begin.run s).2, (c.begin.run s).1⟩ :=
    (Reachable.refl _).step (Move.call c) rfl
  revert hwait hcall
  generalize c.begin.run s = p
  obtain ⟨phase, s'⟩ := p
  intro hwait hcall
  cases phase with
  | idle => exact hcall
  | waiting c' done rest =>
    have h2 := hcall.trans (runUntil_moves done clockFuel s' (.waiting c' done rest))
    have hen : Move.resume.enabled ⟨((runUntil done clockFuel).run s').2,
        .waiting c' done rest⟩ = true := hwait c' done rest rfl
    have h3 := h2.step Move.resume hen
    simp only [MainPhase.finish, run_bind_pair]
    exact h3

end Session

end PerpClient
