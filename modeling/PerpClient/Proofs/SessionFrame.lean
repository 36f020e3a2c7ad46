import PerpClient.Session.Client
/-!
# What the session's machinery leaves alone

A step of a state computation *keeps* a part `f` of the state when, run from any state, it ends
in a state with the same `f` (`Keeps`). Keeping composes: a `bind` of keeping steps keeps, and so
do loops of them. A request that may fail keeps `f` when its run does.

The session's background tasks, its batch loader and its sender read and write the ledger, the
store, the clock, the queue and the tasks, but leave alone what `Session.frame` shows: the
last-active table, which only the client's sends for markets write and its resolutions read and
prune, and whether the watcher map names each account at most once, which starting a watcher
keeps because it starts one only for an account the map does not name. This module proves it
function by function, from the ledger's requests up to a whole send.

* `Ledger.Keeps`: every request of a ledger keeps `f`; the session's own ledger keeps every part
  of the session but the scripted ledger (`keeps_ledgerOf`);
* `keeps_startWatchers`: starting watchers keeps the frame (`nodup_keys_append`);
* `keeps_runReady`, `keeps_sleepUntil`: running the ready tasks, and sleeping while they run,
  keep the frame;
* `keeps_send`: signing, sending and confirming a transaction keeps it.
-/

namespace PerpClient

/-! ## 1. Steps that keep a part of the state -/

section Keeps

variable {σ β α γ ε : Type}

/-- Run from `s`, the step `x` leaves the part `f` of the state as it was. -/
def KeepsAt (f : σ → β) (x : StateM σ α) (s : σ) : Prop := f (x.run s).2 = f s

/-- From every state, the step `x` leaves the part `f` of the state as it was. -/
def Keeps (f : σ → β) (x : StateM σ α) : Prop := ∀ s, KeepsAt f x s

variable {f : σ → β}

theorem keeps_pure (a : α) : Keeps f (pure a : StateM σ α) := fun _ => rfl

theorem keepsAt_bind {x : StateM σ α} {k : α → StateM σ γ} {s : σ} (hx : KeepsAt f x s)
    (hk : KeepsAt f (k (x.run s).1) (x.run s).2) : KeepsAt f (x >>= k) s :=
  hk.trans hx

theorem Keeps.bind {x : StateM σ α} {k : α → StateM σ γ} (hx : Keeps f x)
    (hk : ∀ a, Keeps f (k a)) : Keeps f (x >>= k) :=
  fun s => keepsAt_bind (hx s) (hk _ _)

theorem keepsAt_get_bind {k : σ → StateM σ γ} {s : σ} (hk : KeepsAt f (k s) s) :
    KeepsAt f (get >>= k) s := hk

theorem keepsAt_set {s s' : σ} (h : f s' = f s) : KeepsAt f (set s' : StateM σ PUnit) s := h

theorem keepsAt_set_bind {s s' : σ} {k : PUnit → StateM σ γ} (h : f s' = f s)
    (hk : KeepsAt f (k ⟨⟩) s') : KeepsAt f (set s' >>= k) s := hk.trans h

theorem keeps_modify {g : σ → σ} (h : ∀ s, f (g s) = f s) : Keeps f (modify g : StateM σ PUnit) :=
  h

theorem keepsAt_modify_bind {g : σ → σ} {s : σ} {k : PUnit → StateM σ γ} (h : f (g s) = f s)
    (hk : KeepsAt f (k ⟨⟩) (g s)) : KeepsAt f (modify g >>= k) s := hk.trans h

theorem Keeps.forM {g : α → StateM σ PUnit} :
    ∀ {l : List α}, (∀ a ∈ l, Keeps f (g a)) → Keeps f (l.forM g)
  | [], _ => keeps_pure _
  | a :: l, h => by
    show Keeps f (g a >>= fun _ => l.forM g)
    exact (h a (List.mem_cons_self ..)).bind fun _ =>
      Keeps.forM fun b hb => h b (List.mem_cons_of_mem _ hb)

theorem Keeps.foldlM {g : γ → α → StateM σ γ} (h : ∀ c a, Keeps f (g c a)) :
    ∀ (l : List α) (c : γ), Keeps f (l.foldlM g c)
  | [], _ => keeps_pure _
  | a :: l, c => by
    rw [List.foldlM_cons]
    exact (h c a).bind fun c' => Keeps.foldlM h l c'

theorem Keeps.mapM {g : α → StateM σ γ} (h : ∀ a, Keeps f (g a)) :
    ∀ l : List α, Keeps f (l.mapM g)
  | [] => keeps_pure _
  | a :: l => by
    rw [List.mapM_cons]
    exact (h a).bind fun _ => (Keeps.mapM h l).bind fun _ => keeps_pure _

/-! ### Running a step -/

-- The core `StateT.run_bind` leaves a bind of `Id` that `simp` does not take apart; these keep the
-- run of a state step a pair, so that a step can be computed by rewriting.
theorem run_bind_pair (x : StateM σ α) (k : α → StateM σ β) (s : σ) :
    (x >>= k).run s = (k (x.run s).1).run (x.run s).2 := rfl

theorem run_get_pair (s : σ) : (get : StateM σ σ).run s = (s, s) := rfl

theorem run_set_pair (s' s : σ) : (set s' : StateM σ PUnit).run s = (⟨⟩, s') := rfl

theorem run_modify_pair (f : σ → σ) (s : σ) : (modify f : StateM σ PUnit).run s = (⟨⟩, f s) :=
  rfl

theorem run_pure_pair (a : α) (s : σ) : (pure a : StateM σ α).run s = (a, s) := rfl

/-- What every step of a list keeps, running them all keeps. -/
theorem forM_preserves {P : σ → Prop} {g : α → StateM σ PUnit} :
    ∀ (l : List α) (s : σ), P s → (∀ a ∈ l, ∀ s, P s → P ((g a).run s).2) →
      P ((l.forM g).run s).2
  | [], _, hs, _ => hs
  | a :: l, s, hs, hg => by
    show P ((l.forM g).run ((g a).run s).2).2
    exact forM_preserves l _ (hg a List.mem_cons_self s hs) fun b hb =>
      hg b (List.mem_cons_of_mem _ hb)

/-! ### Requests that may fail -/

theorem keeps_run_pure (a : α) : Keeps f (pure a : ExceptT ε (StateM σ) α).run := fun _ => rfl

theorem keeps_run_throw (e : ε) : Keeps f (throw e : ExceptT ε (StateM σ) α).run := fun _ => rfl

theorem Keeps.run_bind {x : ExceptT ε (StateM σ) α} {k : α → ExceptT ε (StateM σ) γ}
    (hx : Keeps f x.run) (hk : ∀ a, Keeps f (k a).run) : Keeps f (x >>= k).run := by
  rw [ExceptT.run_bind]
  refine hx.bind fun r => ?_
  cases r with
  | ok a => exact hk a
  | error e => exact keeps_pure _

theorem keepsAt_run_get_bind {k : σ → ExceptT ε (StateM σ) γ} {s : σ}
    (hk : KeepsAt f (k s).run s) : KeepsAt f (get >>= k).run s := hk

theorem keepsAt_run_set_bind {s s' : σ} {k : PUnit → ExceptT ε (StateM σ) γ} (h : f s' = f s)
    (hk : KeepsAt f (k ⟨⟩).run s') : KeepsAt f (set s' >>= k).run s := hk.trans h

theorem keepsAt_run_ite {c : Prop} [Decidable c] {x y : ExceptT ε (StateM σ) α} {s : σ}
    (hx : Keeps f x.run) (hy : Keeps f y.run) : KeepsAt f (if c then x else y).run s := by
  split
  · exact hx s
  · exact hy s

theorem Keeps.run_mapM {g : α → ExceptT ε (StateM σ) γ} (h : ∀ a, Keeps f (g a).run) :
    ∀ l : List α, Keeps f (l.mapM g).run
  | [] => keeps_run_pure _
  | a :: l => by
    rw [List.mapM_cons]
    exact (h a).run_bind fun _ => (Keeps.run_mapM h l).run_bind fun _ => keeps_run_pure _

end Keeps

/-! ## 2. Ledgers that keep a part of their surroundings -/

/-- Every request of the ledger `L` leaves the part `f` of its surroundings as it was. -/
structure Ledger.Keeps {σ β : Type} (f : σ → β) (L : Ledger σ) : Prop where
  getAccount : ∀ k, PerpClient.Keeps f (L.getAccount k).run
  getMultipleAccounts : ∀ ks, PerpClient.Keeps f (L.getMultipleAccounts ks).run
  getLatestBlockhash : PerpClient.Keeps f L.getLatestBlockhash.run
  getSlot : PerpClient.Keeps f L.getSlot.run
  simulate : ∀ tx, PerpClient.Keeps f (L.simulate tx).run
  sendRawTransaction : ∀ w c, PerpClient.Keeps f (L.sendRawTransaction w c).run
  getSignatureStatus : ∀ sig, PerpClient.Keeps f (L.getSignatureStatus sig).run
  getAddressLookupTable : ∀ k, PerpClient.Keeps f (L.getAddressLookupTable k).run

namespace Ledger

variable {σ β : Type} {f : σ → β}

theorem keeps_unreachable : (unreachable : Ledger σ).Keeps f :=
  ⟨fun _ => keeps_run_throw _, fun _ => keeps_run_throw _, keeps_run_throw _, keeps_run_throw _,
    fun _ => keeps_run_throw _, fun _ _ => keeps_run_throw _, fun _ => keeps_run_throw _,
    fun _ => keeps_run_throw _⟩

theorem Keeps.choose {useFirst : σ → Bool} {a b : Ledger σ} (ha : a.Keeps f) (hb : b.Keeps f) :
    (choose useFirst a b).Keeps f :=
  ⟨fun k _ => keepsAt_run_get_bind (keepsAt_run_ite (ha.getAccount k) (hb.getAccount k)),
    fun ks _ => keepsAt_run_get_bind
      (keepsAt_run_ite (ha.getMultipleAccounts ks) (hb.getMultipleAccounts ks)),
    fun _ => keepsAt_run_get_bind (keepsAt_run_ite ha.getLatestBlockhash hb.getLatestBlockhash),
    fun _ => keepsAt_run_get_bind (keepsAt_run_ite ha.getSlot hb.getSlot),
    fun tx _ => keepsAt_run_get_bind (keepsAt_run_ite (ha.simulate tx) (hb.simulate tx)),
    fun w c _ => keepsAt_run_get_bind
      (keepsAt_run_ite (ha.sendRawTransaction w c) (hb.sendRawTransaction w c)),
    fun sig _ => keepsAt_run_get_bind
      (keepsAt_run_ite (ha.getSignatureStatus sig) (hb.getSignatureStatus sig)),
    fun k _ => keepsAt_run_get_bind
      (keepsAt_run_ite (ha.getAddressLookupTable k) (hb.getAddressLookupTable k))⟩

end Ledger

namespace Scripted

variable {σ β α : Type} {f : σ → β} {view : σ → ScriptedLedger}
  {update : ScriptedLedger → σ → σ}

/-- A scripted request keeps what writing back the scripted ledger keeps. -/
theorem keeps_onLedger (hupd : ∀ l s, f (update l s) = f s)
    (g : ScriptedLedger → ScriptedLedger × Outcome α) :
    Keeps f (onLedger view update g).run := by
  intro s
  apply keepsAt_run_get_bind
  split
  next l r _ =>
    refine keepsAt_run_set_bind (hupd l s) ?_
    cases r with
    | ok a => exact keeps_run_pure a _
    | error e => exact keeps_run_throw e _

theorem keeps_ledger (hupd : ∀ l s, f (update l s) = f s) : (ledger view update).Keeps f :=
  ⟨fun k => keeps_onLedger hupd (getAccount k),
    fun ks => keeps_onLedger hupd (getMultipleAccounts ks), keeps_onLedger hupd getLatestBlockhash,
    keeps_onLedger hupd getSlot, fun tx => keeps_onLedger hupd (simulate tx),
    fun w _ => keeps_onLedger hupd (sendRawTransaction w),
    fun _ => keeps_onLedger hupd getSignatureStatus,
    fun k => keeps_onLedger hupd (getAddressLookupTable k)⟩

end Scripted

namespace Loader

variable {σ β : Type} {f : σ → β} {L : Ledger σ}

theorem keeps_readChunk (hL : L.Keeps f) (chunk : List Pubkey) : Keeps f (readChunk L chunk).run := by
  unfold readChunk
  refine (hL.getMultipleAccounts chunk).run_bind fun loaded => ?_
  intro s
  split
  · exact ((keeps_run_throw _).run_bind fun _ => keeps_run_pure _) s
  · exact keeps_run_pure _ s

theorem keeps_readChunks (hL : L.Keeps f) (chunks : List (List Pubkey)) :
    Keeps f (readChunks L chunks).run := by
  unfold readChunks
  split
  · exact Keeps.run_mapM (keeps_readChunk hL) chunks
  · exact (Keeps.mapM (fun c => keeps_readChunk hL c) chunks).bind fun _ => keeps_pure _

theorem keeps_loadMany (hL : L.Keeps f) (keys : List Pubkey) : Keeps f (loadMany L keys).run := by
  unfold loadMany
  split
  · exact keeps_run_pure _
  · exact (keeps_readChunks hL _).run_bind fun _ => keeps_run_pure _

theorem keeps_flush (hL : L.Keeps f) (keys : List Pubkey) : Keeps f (flush L keys) := by
  unfold flush
  refine (keeps_loadMany hL _).bind fun r => ?_
  cases r with
  | ok loaded => exact keeps_pure _
  | error e => exact keeps_pure _

end Loader

/-! ## 3. The session's own steps keep its frame -/

namespace Session

/-- What the session's machinery leaves alone: the last-active table, and whether the watcher map
names each account at most once. -/
def frame (s : Session) : SlotTable × Prop :=
  (s.slotTable, (s.sub.watcherMap.map (·.1)).Nodup)

/-- What only the watchers' own machinery and the subscriber's calls write: the last-active table,
the task ids handed out, the notifier, the running watchers and the watcher map. The loader, the
store, the ticker, the supervisor's batches and the clock leave all of it alone. -/
def untouched (s : Session) : SlotTable × Nat × Notifier × List Watcher × List (Pubkey × Nat) :=
  (s.slotTable, s.nextTaskId, s.notifier, s.sub.watchers, s.sub.watcherMap)

end Session

theorem Keeps.frame {α : Type} {x : Sim α} (h : Keeps Session.untouched x) :
    Keeps Session.frame x :=
  fun s => congrArg (fun v : SlotTable × Nat × Notifier × List Watcher × List (Pubkey × Nat) =>
    (v.1, (v.2.2.2.2.map (fun e : Pubkey × Nat => e.1)).Nodup)) (h s)

namespace Session

/-- A watcher started for an account the map does not name keeps the map's accounts distinct,
or not, as they were. -/
theorem nodup_keys_append {m : List (Pubkey × Nat)} {k : Pubkey} (h : (m.find? (·.1 = k)).isNone)
    (id : Nat) : ((m ++ [(k, id)]).map (·.1)).Nodup = (m.map (·.1)).Nodup := by
  have hk : ∀ a ∈ m.map (·.1), a ≠ k := by
    rintro a hmem rfl
    obtain ⟨x, hx, rfl⟩ := List.mem_map.mp hmem
    have hnone := Option.isNone_iff_eq_none.mp h
    exact List.find?_eq_none.mp hnone x hx (by simp)
  rw [List.map_append, List.nodup_append]
  simp only [List.map_cons, List.map_nil, List.mem_singleton]
  exact propext ⟨And.left, fun hm =>
    ⟨hm, List.pairwise_singleton _ k, fun a ha _ hb => hb ▸ hk a ha⟩⟩

/-- The session's ledger keeps every part of the session that writing back the scripted ledger
keeps. -/
theorem keeps_ledgerOf {β : Type} {f : Session → β} (h : ∀ s l, f { s with ledger := l } = f s) :
    ledgerOf.Keeps f :=
  Ledger.keeps_unreachable.choose (Scripted.keeps_ledger fun l s => h s l)

theorem keeps_attempt {α β : Type} {f : Session → β} {c : Client Session α} (h : Keeps f c.run) :
    Keeps f (attempt c) := h

/-- Waking a task changes only the ready queue. -/
theorem keeps_wake_of {β : Type} {f : Session → β} (hqueue : ∀ s q, f { s with queue := q } = f s)
    (t : TaskRef) : Keeps f (wake t) :=
  keeps_modify fun s => by
    split
    · rfl
    · exact hqueue s _

theorem keeps_freshId : Keeps Session.frame freshId :=
  fun _ => keepsAt_get_bind (keepsAt_set_bind rfl (keeps_pure _ _))

theorem keeps_saveWatcher (w : Watcher) : Keeps Session.frame (saveWatcher w) :=
  keeps_modify fun _ => rfl

theorem keeps_dropWatcher (id : Nat) : Keeps Session.frame (dropWatcher id) :=
  keeps_modify fun _ => rfl

/-- Applying a batch keeps whatever the store's own `applyBatch` keeps. -/
theorem keeps_applyBatch {β : Type} {f : Session → β}
    (hstore : ∀ s accounts slot, f { s with store := (s.store.applyBatch accounts slot).1 } = f s)
    (accounts : List (Pubkey × AccountKind × Option (List UInt8))) (slot : UInt64) :
    Keeps f (applyBatch accounts slot) :=
  fun s => keepsAt_get_bind (keepsAt_set_bind (hstore s accounts slot) (keeps_pure _ _))

/-- Applying loaded accounts keeps whatever applying a batch keeps. -/
theorem keeps_applyLoaded {β : Type} {f : Session → β}
    (hstore : ∀ s accounts slot, f { s with store := (s.store.applyBatch accounts slot).1 } = f s)
    (added : List (Pubkey × AccountKind)) (answers : List Loader.LoadAnswer) :
    Keeps f (applyLoaded added answers) := by
  unfold applyLoaded
  split
  · exact keeps_pure _
  · refine (Keeps.foldlM (fun acc slot => ?_) _ _).bind fun _ => keeps_pure _
    exact (keeps_applyBatch hstore _ _).bind fun _ => keeps_pure _

section HandOver

variable {β : Type} {f : Session → β} (hmain : ∀ s a, f { s with mainAnswers := a } = f s)
  (hticker : ∀ s t, f { s with sub := { s.sub with ticker := t } } = f s)
  (hloading : ∀ s sp l, s.sub.supervisor = some sp →
    f { s with sub := { s.sub with supervisor := some { sp with loading := l } } } = f s)
  (hwake : ∀ id, Keeps f (wake (.task id)))
include hmain hticker hloading hwake

/-- Handing answers over touches only the main task's answers, the ticker, the load of the
supervisor and the queue. -/
theorem keeps_handOver (w : Waiter) (answers : List Loader.LoadAnswer) :
    Keeps f (handOver w answers) := by
  intro s
  apply keepsAt_get_bind
  cases w with
  | main => exact keepsAt_set (hmain s _)
  | task id =>
    dsimp only
    -- the ticker's part; the supervisor's part then ends each of its three branches
    split
    split
    refine keepsAt_set_bind (hticker s _) (keepsAt_bind (hwake _ _) ?_)
    all_goals
      apply keepsAt_get_bind
      split
      · next sp hsp =>
        split
        · split
          · exact keepsAt_modify_bind (hloading _ _ _ hsp) (hwake _ _)
          · exact keeps_pure _ _
        · exact keeps_pure _ _
      · exact keeps_pure _ _

theorem keeps_flushLoads (hledger : ∀ s l, f { s with ledger := l } = f s)
    (loads : List (Pubkey × Waiter)) : Keeps f (flushLoads loads) :=
  (Loader.keeps_flush (keeps_ledgerOf hledger) _).bind fun _ =>
    Keeps.forM fun ⟨w, answers⟩ _ => keeps_handOver hmain hticker hloading hwake w answers

end HandOver

/-- A view of the session that the loader, the clock, the ready queue, the cache's contents, the
ticker and the supervisor's loads never change: whatever they write, it is as it was. -/
structure Routine {β : Type} (f : Session → β) : Prop where
  queue : ∀ s q, f { s with queue := q } = f s
  now : ∀ s t, f { s with now := t } = f s
  nextOrder : ∀ s n, f { s with nextOrder := n } = f s
  batch : ∀ s b, f { s with batch := b } = f s
  mainAnswers : ∀ s a, f { s with mainAnswers := a } = f s
  ledger : ∀ s l, f { s with ledger := l } = f s
  cache : ∀ s c, f { s with store := { s.store with cache := c } } = f s
  ticker : ∀ s t, f { s with sub := { s.sub with ticker := t } } = f s
  loading : ∀ s sp l, s.sub.supervisor = some sp →
    f { s with sub := { s.sub with supervisor := some { sp with loading := l } } } = f s

theorem routine_untouched : Routine untouched :=
  ⟨fun _ _ => rfl, fun _ _ => rfl, fun _ _ => rfl, fun _ _ => rfl, fun _ _ => rfl,
    fun _ _ => rfl, fun _ _ => rfl, fun _ _ => rfl, fun _ _ _ _ => rfl⟩

section Routine

variable {β : Type} {f : Session → β} (hf : Routine f)
include hf

theorem Routine.applyBatch (s : Session) (accounts : List (Pubkey × AccountKind × Option (List UInt8)))
    (slot : UInt64) : f { s with store := (s.store.applyBatch accounts slot).1 } = f s :=
  hf.cache s _

theorem keeps_wake (t : TaskRef) : Keeps f (wake t) :=
  keeps_wake_of hf.queue t

theorem keeps_newTimerAt (deadline : Nat) : Keeps f (newTimerAt deadline) :=
  fun s => keepsAt_get_bind (keepsAt_set_bind (hf.nextOrder s _) (keeps_pure _ _))

theorem keeps_newTimer (delay : Nat) : Keeps f (newTimer delay) :=
  fun s => keepsAt_get_bind (keeps_newTimerAt hf _ s)

theorem keeps_readTracked : Keeps f readTracked := by
  intro s
  apply keepsAt_get_bind
  refine keepsAt_bind (keeps_attempt (Loader.keeps_loadMany (keeps_ledgerOf hf.ledger) _) s) ?_
  split
  · exact keeps_pure _ _
  · exact ((keeps_applyBatch hf.applyBatch _ _).bind fun _ => keeps_pure _) _

theorem keeps_requestLoads (w : Waiter) (keys : List Pubkey) : Keeps f (requestLoads w keys) := by
  intro s
  apply keepsAt_get_bind
  split
  · exact keepsAt_set (hf.batch s _)
  · exact keepsAt_set_bind (hf.batch s _) (keeps_wake hf _ _)

theorem keeps_takeBatch : Keeps f takeBatch := by
  intro s
  apply keepsAt_get_bind
  split
  · exact keeps_pure _ _
  · extract_lets jp
    have hjp : ∀ t, Keeps f (jp t) := by
      intro t s'
      apply keepsAt_get_bind
      split
      · exact keepsAt_set_bind (hf.batch _ _) (keeps_pure _ _)
      · exact keeps_pure _ _
    clear_value jp
    split
    · exact hjp _ s
    · refine keepsAt_bind (keeps_newTimer hf _ s) (keepsAt_modify_bind (hf.batch _ _) ?_)
      exact keepsAt_bind (keeps_pure _ _) (hjp _ _)

theorem keeps_runFlush : Keeps f runFlush :=
  (keeps_takeBatch hf).bind fun taken => by
    cases taken with
    | none => exact keeps_pure _
    | some loads =>
      exact keeps_flushLoads hf.mainAnswers hf.ticker hf.loading (fun _ => keeps_wake hf _)
        hf.ledger loads

theorem keeps_setTickerPhase (id : Nat) (p : TickerPhase) : Keeps f (setTickerPhase id p) :=
  keeps_modify fun s => hf.ticker s _

theorem keeps_advanceTo (t : Nat) : Keeps f (advanceTo t) := by
  intro s
  refine keepsAt_modify_bind (hf.now s _) (keepsAt_get_bind ?_)
  refine Keeps.forM (fun due _ => ?_) _
  obtain ⟨_, task⟩ := due
  exact keeps_wake hf task

end Routine

theorem keeps_track (more : TrackedAccounts) : Keeps untouched (track more) :=
  fun _ => keepsAt_get_bind (keepsAt_set_bind rfl (keeps_pure _ _))

theorem keeps_trackDiscovered (o : BatchOutcome) : Keeps untouched (trackDiscovered o) := by
  unfold trackDiscovered
  split
  · exact keeps_pure _
  · exact keeps_track _

theorem keeps_tickFrom (id period : Nat) :
    ∀ fuel due, Keeps untouched (tickFrom id period fuel due)
  | 0, due => by
    rw [tickFrom]
    exact (keeps_newTimerAt routine_untouched _).bind fun _ =>
      keeps_setTickerPhase routine_untouched _ _
  | fuel + 1, due => by
    rw [tickFrom]
    intro s
    apply keepsAt_get_bind
    extract_lets now next jp
    have hjp : ∀ added, Keeps untouched (jp added) := by
      intro added
      dsimp only [jp]
      split
      · exact keeps_tickFrom id period fuel _
      · exact (keeps_requestLoads routine_untouched _ _).bind fun _ =>
          keeps_setTickerPhase routine_untouched _ _
    clear_value jp
    split
    · refine keepsAt_bind (keeps_readTracked routine_untouched s) ?_
      split
      · exact ((keeps_pure _).bind hjp) _
      · exact ((keeps_trackDiscovered _).bind hjp) _
    · exact ((keeps_newTimerAt routine_untouched _).bind fun _ =>
        keeps_setTickerPhase routine_untouched _ _) s

theorem keeps_runTicker (id : Nat) : Keeps untouched (runTicker id) := by
  intro s
  apply keepsAt_get_bind
  split
  · exact keeps_pure _ _
  · split
    · exact keeps_pure _ _
    · split
      · split
        · exact keepsAt_set rfl
        · exact keeps_tickFrom _ _ _ _ s
      · split
        · exact keeps_tickFrom _ _ _ _ s
        · exact keeps_pure _ _
      · split
        · exact ((keeps_applyLoaded (fun _ _ _ => rfl) _ _).bind fun _ =>
            keeps_tickFrom _ _ _ _) s
        · exact keeps_pure _ _

theorem keeps_subscribeAccount (w : Watcher) : Keeps Session.frame (subscribeAccount w) := by
  intro s
  apply keepsAt_get_bind
  dsimp only
  split
  · exact keepsAt_set_bind rfl (keeps_pure _ _)
  · exact keepsAt_set_bind rfl (keeps_pure _ _)

theorem keeps_closeHandle (h : Nat) : Keeps Session.frame (closeHandle h) :=
  keeps_modify fun _ => rfl

theorem keeps_stopWatcher (w : Watcher) : Keeps Session.frame (stopWatcher w) := by
  unfold stopWatcher
  split
  · exact (keeps_closeHandle _).bind fun _ => keeps_dropWatcher _
  · exact keeps_dropWatcher _

/-- Handing discovered accounts to the supervisor changes only the subscriber and the queue. -/
theorem keeps_sendToSupervisor {β : Type} {f : Session → β}
    (hsupervisor : ∀ s sp, f { s with sub := { s.sub with supervisor := sp } } = f s)
    (hqueue : ∀ s q, f { s with queue := q } = f s)
    (id : Nat) (added : List (Pubkey × AccountKind)) : Keeps f (sendToSupervisor id added) := by
  intro s
  apply keepsAt_get_bind
  split
  · split
    · exact keepsAt_set_bind (hsupervisor s _) (keeps_wake_of hqueue _ _)
    · exact keeps_pure _ _
  · exact keeps_pure _ _

theorem keeps_applyUpdate (w : Watcher) (data : List UInt8) (slot : UInt64) :
    Keeps untouched (applyUpdate w data slot) := by
  refine (keeps_applyBatch (fun _ _ _ => rfl) _ _).bind fun _ =>
    (keeps_trackDiscovered _).bind fun _ => ?_
  split
  · exact keeps_sendToSupervisor (fun _ _ => rfl) (fun _ _ => rfl) _ _
  · exact keeps_pure _

theorem keeps_watchFrom : ∀ fuel (w : Watcher), Keeps Session.frame (watchFrom fuel w)
  | 0, w => by
    rw [watchFrom]
    exact keeps_saveWatcher w
  | fuel + 1, w => by
    rw [watchFrom]
    intro s
    apply keepsAt_get_bind
    split
    · exact keeps_stopWatcher w s
    · split
      · exact ((keeps_saveWatcher _).bind fun _ => (keeps_applyUpdate _ _ _).frame.bind fun _ =>
          keeps_watchFrom fuel _) s
      · split
        · exact ((keeps_newTimer routine_untouched _).frame.bind fun _ => keeps_watchFrom fuel _) s
        · split
          · extract_lets jp
            have hjp : ∀ r, Keeps Session.frame (jp r) := fun _ =>
              (keeps_subscribeAccount _).bind fun _ => keeps_watchFrom fuel _
            clear_value jp
            split
            · exact ((keeps_closeHandle _).bind hjp) s
            · exact hjp _ s
          · exact keeps_saveWatcher w s

theorem keeps_runWatcher (id : Nat) : Keeps Session.frame (runWatcher id) := by
  intro s
  apply keepsAt_get_bind
  split
  · exact keeps_pure _ _
  · split
    · exact keeps_watchFrom _ _ s
    · exact ((keeps_subscribeAccount _).bind fun _ => keeps_watchFrom _ _) s

/-- Starting watchers keeps the frame: a watcher is started only for an account the map does not
name yet. -/
theorem keeps_startWatchers (ctx : WatchContext) (targets : List (Pubkey × AccountKind)) :
    Keeps Session.frame (startWatchers ctx targets) := by
  refine Keeps.forM fun target _ => ?_
  intro s
  apply keepsAt_get_bind
  split
  · rename_i hnew
    refine keepsAt_bind (keeps_freshId s) (keepsAt_modify_bind ?_ ?_)
    · exact Prod.ext rfl (nodup_keys_append hnew _)
    · exact (keeps_wake routine_untouched _).frame _
  · exact keeps_pure _ _

theorem keeps_setSupervisor (sp : Option Supervisor) : Keeps untouched (setSupervisor sp) :=
  keeps_modify fun _ => rfl

theorem keeps_superviseFrom : ∀ fuel, Keeps untouched (superviseFrom fuel)
  | 0 => by
    rw [superviseFrom]
    exact keeps_pure _
  | fuel + 1 => by
    rw [superviseFrom]
    intro s
    apply keepsAt_get_bind
    split
    · exact keeps_pure _ _
    · split
      · exact keeps_setSupervisor _ s
      · split
        · exact keeps_pure _ _
        · split
          · exact ((keeps_setSupervisor _).bind fun _ => keeps_superviseFrom fuel) s
          · exact ((keeps_setSupervisor _).bind fun _ => keeps_requestLoads routine_untouched _ _) s

theorem keeps_runSupervisor (id : Nat) : Keeps Session.frame (runSupervisor id) := by
  intro s
  apply keepsAt_get_bind
  split
  · exact keeps_pure _ _
  · split
    · exact keeps_pure _ _
    · split
      · exact ((keeps_applyLoaded (fun _ _ _ => rfl) _ _).bind fun _ =>
          (keeps_setSupervisor _).frame.bind fun _ =>
            (keeps_startWatchers _ _).bind fun _ => (keeps_superviseFrom _).frame) s
      · exact keeps_pure _ _
      · exact (keeps_superviseFrom _).frame s

theorem keeps_runTask (t : TaskRef) : Keeps Session.frame (runTask t) := by
  cases t with
  | flush => exact (keeps_runFlush routine_untouched).frame
  | task id =>
    intro s
    apply keepsAt_get_bind
    split
    · exact (keeps_runTicker id).frame s
    · split
      · exact keeps_runSupervisor id s
      · exact keeps_runWatcher id s

/-- **Running the ready tasks keeps the frame.** -/
theorem keeps_runReady : ∀ fuel, Keeps Session.frame (runReady fuel)
  | 0 => by
    rw [runReady]
    exact keeps_pure _
  | fuel + 1 => by
    rw [runReady]
    intro s
    apply keepsAt_get_bind
    split
    · exact keeps_pure _ _
    · exact keepsAt_set_bind rfl (((keeps_runTask _).bind fun _ => keeps_runReady fuel) _)

theorem keeps_runUntil (done : Session → Bool) : ∀ fuel, Keeps Session.frame (runUntil done fuel)
  | 0 => by
    rw [runUntil]
    exact keeps_pure _
  | fuel + 1 => by
    rw [runUntil]
    refine (keeps_runReady _).bind fun _ s => keepsAt_get_bind ?_
    split
    · exact keeps_pure _ _
    · split
      · exact keeps_pure _ _
      · exact ((keeps_advanceTo routine_untouched _).frame.bind fun _ => keeps_runUntil done fuel) s

theorem keeps_sleepUntil_go (t : Nat) : ∀ fuel, Keeps Session.frame (sleepUntil.go t fuel)
  | 0 => by
    rw [sleepUntil.go]
    exact (keeps_advanceTo routine_untouched t).frame
  | fuel + 1 => by
    rw [sleepUntil.go]
    refine (keeps_runReady _).bind fun _ s => keepsAt_get_bind ?_
    split
    · split
      · exact ((keeps_advanceTo routine_untouched _).frame.bind fun _ =>
          keeps_sleepUntil_go t fuel) s
      · exact (keeps_advanceTo routine_untouched t).frame s
    · exact (keeps_advanceTo routine_untouched t).frame s

/-- **Sleeping while the background tasks run keeps the frame.** -/
theorem keeps_sleepUntil (t : Nat) : Keeps Session.frame (sleepUntil t) := by
  intro s
  apply keepsAt_get_bind
  split
  · exact keeps_pure _ _
  · exact keeps_sleepUntil_go t _ s

theorem keeps_settle : Keeps Session.frame settle := keeps_runReady _

/-! ## 4. Sending keeps the frame -/

theorem keeps_record (e : SenderEvent) : Keeps Session.frame (record e) :=
  keeps_modify fun s => by split <;> rfl

theorem keeps_signTx (tx : Transaction) (keys : List Signing.Keypair) :
    Keeps Session.frame (signTx tx keys) := by
  refine (keeps_record _).bind fun _ => ?_
  split
  · exact keeps_pure _
  · exact (keeps_record _).bind fun _ => keeps_pure _

theorem keeps_sleepThen {deadline wake : Nat} {k : Sim RoundOutcome}
    (hk : Keeps Session.frame k) : Keeps Session.frame (sleepThen deadline wake k) := by
  unfold sleepThen
  split
  · exact (keeps_sleepUntil _).bind fun _ => keeps_pure _
  · exact (keeps_sleepUntil _).bind fun _ => hk

theorem keeps_getSignatureStatus (sig : Signature) :
    Keeps Session.frame (attempt (ledgerOf.getSignatureStatus sig)) :=
  keeps_attempt ((keeps_ledgerOf fun _ _ => rfl).getSignatureStatus sig)

theorem keeps_pollFrom (sig : Signature) (deadline : Nat) :
    ∀ attempt remaining, Keeps Session.frame (pollFrom sig deadline attempt remaining)
  | _, 0 => by
    rw [pollFrom]
    exact keeps_pure _
  | attempt, remaining + 1 => by
    rw [pollFrom]
    refine (keeps_getSignatureStatus sig).bind fun r => ?_
    split
    · exact keeps_pure _
    · split
      · exact keeps_pure _
      · intro s
        apply keepsAt_get_bind
        apply keepsAt_get_bind
        exact keeps_sleepThen (keeps_pollFrom sig deadline (attempt + 1) remaining) s

theorem keeps_confirmByPolling (sig : Signature) : Keeps Session.frame (confirmByPolling sig) :=
  fun s => keepsAt_get_bind (keeps_pollFrom sig _ _ _ s)

theorem keeps_confirmByNotification (sig : Signature) :
    Keeps Session.frame (confirmByNotification sig) := by
  intro s
  apply keepsAt_get_bind
  split
  · exact keeps_confirmByPolling sig s
  · split
    exact ((keeps_sleepUntil _).bind fun _ => keeps_pure _) s

theorem keeps_notifiedFirst {rest : Sim RoundOutcome} (h : Keeps Session.frame rest)
    (notified : RoundOutcome) : Keeps Session.frame (notifiedFirst notified rest) := by
  unfold notifiedFirst
  split
  · exact fun s => h s
  · exact keeps_pure _

theorem keeps_polledNow (due : Nat) (notified r : RoundOutcome) :
    Keeps Session.frame (polledNow due notified r) := by
  intro s
  apply keepsAt_get_bind
  split
  · exact keeps_pure _ _
  · split
    · exact ((keeps_sleepUntil _).bind fun _ => keeps_pure _) s
    · exact keeps_pure _ _

theorem keeps_pollRacing (sig : Signature) (deadline due : Nat) (notified : RoundOutcome) :
    ∀ attempt remaining, Keeps Session.frame (pollRacing sig deadline due notified attempt remaining)
  | _, 0 => by
    rw [pollRacing]
    exact keeps_polledNow due notified _
  | attempt, remaining + 1 => by
    rw [pollRacing]
    intro s
    apply keepsAt_get_bind
    split
    · exact keeps_notifiedFirst (keeps_pollFrom sig deadline _ _) notified s
    · refine keepsAt_bind (keeps_getSignatureStatus sig s) ?_
      split
      · exact keeps_polledNow due notified _ _
      · split
        · exact keeps_polledNow due notified _ _
        · apply keepsAt_get_bind
          split
          · exact keeps_notifiedFirst (keeps_sleepThen (keeps_pollFrom sig deadline _ _)) notified _
          · extract_lets wake
            split
            · exact ((keeps_sleepUntil _).bind fun _ => keeps_pure _) _
            · split
              · exact ((keeps_sleepUntil _).bind fun _ => keeps_polledNow due notified _) _
              · exact ((keeps_sleepUntil _).bind fun _ =>
                  keeps_pollRacing sig deadline due notified (attempt + 1) remaining) _

theorem keeps_confirmByBoth (sig : Signature) : Keeps Session.frame (confirmByBoth sig) := by
  intro s
  apply keepsAt_get_bind
  split
  · exact keeps_confirmByPolling sig s
  · extract_lets deadline
    split
    refine ((keeps_pollRacing sig _ _ _ 0 _).bind fun p => ?_) s
    obtain ⟨r, _⟩ := p
    exact keeps_pure r

theorem keeps_confirm (sig : Signature) : Keeps Session.frame (confirm sig) := by
  intro s
  apply keepsAt_get_bind
  split
  · exact keeps_confirmByPolling sig s
  · exact keeps_confirmByNotification sig s
  · exact keeps_confirmByBoth sig s

/-- Confirmation rounds keep what their round, their resend and their count keep. -/
theorem keeps_confirmLoop {σ β : Type} {f : σ → β} {round : StateM σ RoundOutcome}
    {resend : StateM σ Unit} {count : StateM σ Nat} (hround : Keeps f round)
    (hresend : Keeps f resend) (hcount : Keeps f count) (sig : Signature) :
    ∀ resends, Keeps f (confirmLoop round resend count sig resends)
  | 0 => by
    rw [confirmLoop]
    refine hround.bind fun r => ?_
    split
    · exact keeps_pure _
    · exact keeps_pure _
    · exact hcount.bind fun _ => keeps_pure _
  | n + 1 => by
    rw [confirmLoop]
    refine hround.bind fun r => ?_
    split
    · exact keeps_pure _
    · exact keeps_pure _
    · exact hresend.bind fun _ => keeps_confirmLoop hround hresend hcount sig n

theorem keeps_countTimeout : Keeps Session.frame countTimeout :=
  fun _ => keepsAt_get_bind (keepsAt_set_bind rfl (keeps_pure _ _))

theorem keeps_sendWire (wire : List UInt8) (config : SendConfig) :
    Keeps Session.frame (sendWire wire config) :=
  keeps_attempt ((keeps_ledgerOf fun _ _ => rfl).sendRawTransaction _ _)

theorem keeps_sendSigned (tx : Transaction) (config : Option SendConfig) :
    Keeps Session.frame (sendSigned tx config) := by
  intro s
  apply keepsAt_get_bind
  refine keepsAt_bind (keeps_sendWire _ _ s) ?_
  split
  · exact keeps_pure _ _
  · exact ((keeps_record _).bind fun _ => keeps_confirmLoop (keeps_confirm _)
      ((keeps_sendWire _ _).bind fun _ => keeps_pure _) keeps_countTimeout _ _) _

/-- **Sending a transaction keeps the frame**: signing, the sends, the confirmation
rounds and everything the background tasks do while the sender sleeps. -/
theorem keeps_send (tx : Transaction) (keys : List Signing.Keypair) (config : Option SendConfig)
    (preSigned : Bool) : Keeps Session.frame (send tx keys config preSigned) := by
  unfold send
  split
  · exact keeps_sendSigned tx config
  · refine (keeps_signTx tx keys).bind fun r => ?_
    split
    · exact keeps_pure _
    · exact keeps_sendSigned _ config

end Session

end PerpClient
