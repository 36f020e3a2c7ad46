import PerpClient.Proofs.SessionFrame
import PerpClient.Proofs.StoreBatch
/-!
# Discovering the oracles of cached markets

A market reads its price from an oracle, which the subscriber has to track to keep that price
fresh. Applying a batch names the real oracles of its decoded markets that are not tracked yet
(`BatchOutcome.discoveredOracles`); tracking them is left to whoever applied the batch.

`MarketOraclesTracked` says that every real oracle a cached market names is a key of the tracked
oracles. The paths that apply a batch and then track what it discovered keep it:

* `MarketOraclesTracked.applyBatch_trackDiscovered`: applying any batch, then tracking its
  discoveries, as a poll's read does;
* `MarketOraclesTracked.applyUpdate`: applying a pushed update, which does the same and hands
  the new oracles to the supervisor.

Loading freshly tracked accounts does not: `applyLoaded_tracked` says it applies its batches and
tracks nothing, whatever they discover, so a market loaded that way can name an oracle no one
tracks.

Underneath, the keys of the ordered maps of a tracked set: inserting adds exactly its key
(`Ordered.mem_keys_insert`), merging oracles adds exactly the real ones
(`TrackedAccounts.mem_keys_mergeOracles`).
-/

namespace PerpClient

/-! ## 1. The keys of an ordered map -/

namespace Ordered

section Keys

variable {κ α : Type} {cmp : κ → κ → Ordering} (hcmp : ∀ a b, cmp a b = .eq ↔ a = b)
include hcmp

/-- Where only equal keys compare equal, a key is present exactly when it is a key. -/
theorem contains_iff_mem_keys (k : κ) (m : List (κ × α)) :
    contains cmp k m = true ↔ k ∈ m.map (·.1) := by
  rw [contains_iff, List.mem_map]
  constructor
  · rintro ⟨p, hp, hk⟩
    exact ⟨p, hp, ((hcmp k p.1).mp hk).symm⟩
  · rintro ⟨p, hp, rfl⟩
    exact ⟨p, hp, (hcmp _ _).mpr rfl⟩

/-- Inserting adds exactly its own key. -/
theorem mem_keys_insert (k k' : κ) (v : α) (m : List (κ × α)) :
    k ∈ (insert cmp k' v m).map (·.1) ↔ k = k' ∨ k ∈ m.map (·.1) := by
  induction m with
  | nil => simp [insert]
  | cons p rest ih =>
    obtain ⟨k'', v''⟩ := p
    simp only [insert]
    split
    · simp
    · rename_i heq
      obtain rfl := (hcmp k' k'').mp heq
      simp
    · simp only [List.map_cons, List.mem_cons, ih]
      exact or_left_comm

/-- A map built from pairs has exactly their keys. -/
theorem mem_keys_ofList (k : κ) (pairs : List (κ × α)) :
    k ∈ (ofList cmp pairs).map (·.1) ↔ k ∈ pairs.map (·.1) := by
  unfold ofList
  -- the fold from any map: its keys, and those of the pairs read
  suffices h : ∀ m : List (κ × α),
      k ∈ (pairs.foldl (fun m (kv : κ × α) => insert cmp kv.1 kv.2 m) m).map (·.1) ↔
        k ∈ m.map (·.1) ∨ k ∈ pairs.map (·.1) by
    simpa using h []
  induction pairs with
  | nil => simp
  | cons kv rest ih =>
    intro m
    rw [List.foldl_cons, ih, mem_keys_insert hcmp]
    simp only [List.map_cons, List.mem_cons]
    grind

end Keys

end Ordered

/-! ## 2. Merging tracked oracles -/

namespace TrackedAccounts

/-- Merging oracles keeps those tracked and adds every real one of the other set. -/
theorem mem_keys_mergeOracles (k : Pubkey) (mine other : List (Pubkey × OracleSource)) :
    k ∈ (mergeOracles mine other).1.map (·.1) ↔
      k ∈ mine.map (·.1) ∨ (k ∈ other.map (·.1) ∧ k ≠ Program.noOracle) := by
  unfold mergeOracles
  -- the fold from any accumulator, read one pair at a time
  show _ ↔ k ∈ (mine, ([] : List (Pubkey × OracleSource))).1.map (·.1) ∨ _
  generalize (mine, ([] : List (Pubkey × OracleSource))) = acc
  induction other generalizing acc with
  | nil => simp
  | cons ps rest ih =>
    rw [List.foldl_cons, ih]
    simp only [List.map_cons, List.mem_cons]
    split
    · rename_i hskip
      have hps : ps.1 ≠ Program.noOracle → ps.1 ∈ acc.1.map (·.1) := fun hreal =>
        (Ordered.contains_iff_mem_keys Pubkey.compareBytes_eq_eq_iff _ _).mp
          (hskip.resolve_left hreal)
      grind
    · rename_i hadd
      have hreal : ps.1 ≠ Program.noOracle := fun h => hadd (.inl h)
      rw [Ordered.mem_keys_insert Pubkey.compareBytes_eq_eq_iff]
      grind

end TrackedAccounts

/-! ## 3. The invariant over the store -/

namespace SlotCache

variable {κ α : Type} [DecidableEq κ]

/-- After a batch a key holds what it held before or what the batch wrote for it. -/
theorem get?_putBatch_eq_some {c : SlotCache κ α} {batch : List (κ × α)} {slot : UInt64}
    {k : κ} {e : Stamped α} (h : (c.putBatch batch slot).1.get? k = some e) :
    c.get? k = some e ∨ (k, e.data) ∈ batch := by
  induction batch generalizing c with
  | nil => exact .inl h
  | cons kv rest ih =>
    rw [putBatch_cons] at h
    rcases ih h with hput | hrest
    · by_cases hk : k = kv.1
      · subst hk
        rw [get?_put] at hput
        split at hput
        · obtain rfl := (Option.some.inj hput).symm
          exact .inr List.mem_cons_self
        · exact .inl hput
      · exact .inl ((get?_put_of_ne c kv.1 k kv.2 slot hk).symm.trans hput)
    · exact .inr (List.mem_cons_of_mem _ hrest)

end SlotCache

namespace AccountStore

/-- Every real oracle that a cached market reads its price from is a key of the tracked
oracles. -/
def MarketOraclesTracked (st : AccountStore) : Prop :=
  ∀ k e o, st.cache.get? k = some e → marketOracle e.data = some o →
    o.pubkey ≠ Program.noOracle → o.pubkey ∈ st.tracked.oracles.map (·.1)

/-- Tracking more accounts adds to the tracked oracles exactly the real ones of the other set. -/
theorem mem_keys_track (st : AccountStore) (more : TrackedAccounts) (k : Pubkey) :
    k ∈ (st.track more).1.tracked.oracles.map (·.1) ↔
      k ∈ st.tracked.oracles.map (·.1) ∨
        (k ∈ more.oracles.map (·.1) ∧ k ≠ Program.noOracle) :=
  TrackedAccounts.mem_keys_mergeOracles k _ _

/-- The oracles to track are keyed by their addresses. -/
theorem mem_keys_oraclesToTrack (oracles : List OracleInfo) (k : Pubkey) :
    k ∈ (oraclesToTrack oracles).oracles.map (·.1) ↔ k ∈ oracles.map (·.pubkey) := by
  show k ∈ (Ordered.ofList Pubkey.compareBytes (oracles.map fun o => (o.pubkey, o.source))).map
    (·.1) ↔ _
  rw [Ordered.mem_keys_ofList Pubkey.compareBytes_eq_eq_iff, List.map_map]
  rfl

end AccountStore

/-! ## 4. The paths that apply a batch -/

namespace Session

theorem applyBatch_run (accounts : List (Pubkey × AccountKind × Option (List UInt8)))
    (slot : UInt64) (s : Session) :
    (applyBatch accounts slot).run s =
      ((s.store.applyBatch accounts slot).2,
        { s with store := (s.store.applyBatch accounts slot).1 }) := rfl

/-- Tracking what a batch discovered leaves the cache alone and adds to the tracked oracles
exactly the real discovered ones. -/
theorem trackDiscovered_store (o : BatchOutcome) (s : Session) :
    ((trackDiscovered o).run s).2.store.cache = s.store.cache ∧
      ∀ k, k ∈ ((trackDiscovered o).run s).2.store.tracked.oracles.map (·.1) ↔
        k ∈ s.store.tracked.oracles.map (·.1) ∨
          (k ∈ o.discoveredOracles.map (·.pubkey) ∧ k ≠ Program.noOracle) := by
  unfold trackDiscovered
  by_cases hnone : o.discoveredOracles.isEmpty
  · simp only [hnone, ↓reduceIte, run_pure_pair, true_and]
    intro k
    rw [List.isEmpty_iff.mp hnone]
    simp
  · simp only [hnone, Bool.false_eq_true, ↓reduceIte]
    refine ⟨rfl, fun k => ?_⟩
    show k ∈ (s.store.track _).1.tracked.oracles.map (·.1) ↔ _
    rw [AccountStore.mem_keys_track, AccountStore.mem_keys_oraclesToTrack]

/-- Loading freshly tracked accounts applies their batches and tracks nothing. -/
theorem applyLoaded_tracked (added : List (Pubkey × AccountKind))
    (answers : List Loader.LoadAnswer) (s : Session) :
    ((applyLoaded added answers).run s).2.store.tracked = s.store.tracked :=
  keeps_applyLoaded (f := fun s : Session => s.store.tracked)
    (fun s accounts slot => AccountStore.applyBatch_tracked s.store accounts slot) added answers s

end Session

namespace AccountStore.MarketOraclesTracked

/-- **Applying a batch, then tracking its discoveries, keeps every cached market's oracle
tracked**: a market the batch wrote names an oracle that was tracked already or that the batch
discovered, and a market it did not write was covered before. -/
theorem applyBatch_trackDiscovered {s : Session} (h : s.store.MarketOraclesTracked)
    (accounts : List (Pubkey × AccountKind × Option (List UInt8))) (slot : UInt64) :
    ((Session.applyBatch accounts slot >>= Session.trackDiscovered).run s).2.store
      |>.MarketOraclesTracked := by
  rw [run_bind_pair, Session.applyBatch_run]
  obtain ⟨hcache, hkeys⟩ := Session.trackDiscovered_store (s.store.applyBatch accounts slot).2
    { s with store := (s.store.applyBatch accounts slot).1 }
  obtain ⟨hst, -, -, -, -, -, -, -, hdisc⟩ :=
    AccountStore.applyBatch_contract s.store accounts slot
  intro k e o hget ho hreal
  rw [hkeys]
  rw [hcache] at hget
  change (s.store.applyBatch accounts slot).1.cache.get? k = some e at hget
  rw [hst] at hget
  by_cases htracked : o.pubkey ∈ s.store.tracked.oracles.map (·.1)
  · exact .inl htracked
  · -- untracked before, so not cached before: the batch wrote the market and discovered its oracle
    have hwrote : (k, e.data) ∈ accounts.filterMap (AccountStore.decodeEntry s.store.decoder) :=
      (SlotCache.get?_putBatch_eq_some hget).resolve_left fun hold =>
        htracked (h k e o hold ho hreal)
    have huntracked : ∀ src, (o.pubkey, src) ∉ s.store.tracked.oracles := fun src hmem =>
      htracked (List.mem_map.mpr ⟨_, hmem, rfl⟩)
    have hfound : o ∈ (s.store.applyBatch accounts slot).2.discoveredOracles :=
      (hdisc o).mpr ⟨(k, e.data), hwrote, ho, hreal, huntracked⟩
    exact .inr ⟨List.mem_map.mpr ⟨o, hfound, rfl⟩, hreal⟩

/-- **A pushed update keeps every cached market's oracle tracked**: it applies the update and
tracks what it discovered; handing the new oracles to the supervisor leaves the store alone. -/
theorem applyUpdate {s : Session} (h : s.store.MarketOraclesTracked)
    (w : Watcher) (data : List UInt8) (slot : UInt64) :
    ((Session.applyUpdate w data slot).run s).2.store.MarketOraclesTracked := by
  have hdone := h.applyBatch_trackDiscovered [(w.pubkey, w.kind, some data)] slot
  simp only [run_bind_pair] at hdone
  simp only [Session.applyUpdate, run_bind_pair]
  split
  · rw [Session.keeps_sendToSupervisor (f := Session.store) (fun _ _ => rfl) (fun _ _ => rfl)]
    exact hdone
  · exact hdone

end AccountStore.MarketOraclesTracked

namespace Session

/-- **Which paths keep the oracles of cached markets tracked.** Applying any batch and then
tracking what it discovered, as a poll's read does, and applying a pushed update keep every real
oracle of every cached market tracked. Loading freshly tracked accounts, as `extend` does, applies
its batches but tracks nothing, whatever oracles the markets it loads name. -/
theorem oracleDiscovery_paths (s : Session) :
    (∀ accounts slot, s.store.MarketOraclesTracked →
      ((applyBatch accounts slot >>= trackDiscovered).run s).2.store.MarketOraclesTracked) ∧
    (∀ w data slot, s.store.MarketOraclesTracked →
      ((applyUpdate w data slot).run s).2.store.MarketOraclesTracked) ∧
    ∀ added answers, ((applyLoaded added answers).run s).2.store.tracked = s.store.tracked :=
  ⟨fun accounts slot h => h.applyBatch_trackDiscovered accounts slot,
    fun w data slot h => h.applyUpdate w data slot,
    fun added answers => applyLoaded_tracked added answers s⟩

end Session

end PerpClient
