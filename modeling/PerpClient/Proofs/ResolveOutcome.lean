import PerpClient.Proofs.RemainingAccounts
/-!
# What a resolution answers, and what it leaves of the table

A resolution can fail in two ways. It can miss its user: an instruction that needs a snapshot
gets none, or the last-active table is asked for while the snapshot's slot is unknown. Or it
can ask for a market the lookup does not hold. The checks run in this order:

1. the snapshots are checked;
2. the markets of the users' open positions are added;
3. the snapshot slot is checked;
4. the table's markets are added, then the requested ones.

A market request fails on its own terms, whatever the buckets hold (`MarketRequest.missing`),
so a run of requests fails with the first missing market it meets (`firstMissing`).

The table changes at most once, when the resolution reaches the table step. There the entries
at or before the snapshot slot are evicted and the others stay as they were. An error after
that step leaves them evicted.

* `foldlM_add_eq_error`: a run of market requests fails exactly with its first missing market;
* `resolveBuckets_snd`: a resolution that does not miss its user runs its whole traversal as
  one run of market requests;
* `resolve_outcome`: when a resolution misses its user, which missing market it reports,
  when it succeeds, and the table it leaves;
* `resolve_again`: resolving again with the table a resolution left answers the same and
  leaves the table as it is.
-/

namespace PerpClient.Resolver

/-! ## 1. One market request, and a run of them -/

/-- Adds a market request's market to the buckets, as the resolver does. -/
def MarketRequest.add (r : Resolver) (markets : MarketLookup) (b : Buckets) :
    MarketRequest → Except ClientError Buckets
  | .perp i w => r.addPerp markets b i w
  | .spot j w => addSpot markets b j w

/-- The error that adding spot market `j` meets; none when the lookup holds it. -/
def spotMissing (markets : MarketLookup) (j : UInt16) : Option ClientError :=
  match markets.spot j with
  | none => some (.spotMarketNotLoaded j)
  | some _ => none

/-- The error a market request meets: its market is not loaded or, for a perp market, its quote
spot market is not. -/
def MarketRequest.missing (markets : MarketLookup) : MarketRequest → Option ClientError
  | .perp i _ =>
    match markets.perp i with
    | none => some (.perpMarketNotLoaded i)
    | some m => spotMissing markets m.quoteSpotMarketIndex
  | .spot j _ => spotMissing markets j

/-- The first error a run of market requests meets, in order. -/
def firstMissing (markets : MarketLookup) (ms : List MarketRequest) : Option ClientError :=
  ms.findSome? (·.missing markets)

/-- A computation that fails exactly with the error `o` names succeeds exactly when `o` names
none. -/
theorem exists_eq_ok_iff {ε α : Type} {x : Except ε α} {o : Option ε}
    (h : ∀ e, x = .error e ↔ o = some e) : (∃ a, x = .ok a) ↔ o = none := by
  cases x with
  | error e => simp [(h e).mp rfl]
  | ok a =>
    cases o with
    | none => simp
    | some e => exact absurd ((h e).mpr rfl) nofun

variable {r : Resolver} {markets : MarketLookup}

theorem addSpot_eq_error {b : Buckets} {j : UInt16} {w : Bool} {e : ClientError} :
    addSpot markets b j w = .error e ↔ spotMissing markets j = some e := by
  unfold addSpot spotMissing
  cases markets.spot j with
  | none => simp
  | some m =>
    dsimp only
    split <;> simp

/-- **The step lemma**: a market request fails exactly with the error it meets. -/
theorem MarketRequest.add_eq_error (b : Buckets) (mr : MarketRequest) (e : ClientError) :
    mr.add r markets b = .error e ↔ mr.missing markets = some e := by
  cases mr with
  | spot j w => exact addSpot_eq_error
  | perp i w =>
    simp only [add, addPerp, missing]
    cases markets.perp i with
    | none => simp
    | some m => exact addSpot_eq_error

/-- **The run lemma**: a run of market requests fails exactly with the first error one of them
meets. -/
theorem foldlM_add_eq_error (ms : List MarketRequest) (b : Buckets) (e : ClientError) :
    ms.foldlM (fun b mr => mr.add r markets b) b = .error e ↔ firstMissing markets ms = some e := by
  induction ms generalizing b with
  | nil => simp [firstMissing, pure, Except.pure]
  | cons mr ms ih =>
    rw [List.foldlM_cons, firstMissing, List.findSome?_cons, ← firstMissing]
    cases hb : mr.add r markets b with
    | error e' =>
      rw [(MarketRequest.add_eq_error b mr e').mp hb]
      simp [bind, Except.bind]
    | ok b' =>
      have hm : mr.missing markets = none := by
        cases hm : mr.missing markets with
        | none => rfl
        | some e' =>
          have h : mr.add r markets b = .error e' := (MarketRequest.add_eq_error b mr e').mpr hm
          rw [hb] at h
          cases h
      rw [hm]
      exact ih b'

theorem exists_foldlM_add_eq_ok (ms : List MarketRequest) (b : Buckets) :
    (∃ b', ms.foldlM (fun b mr => mr.add r markets b) b = .ok b') ↔
      firstMissing markets ms = none :=
  exists_eq_ok_iff (foldlM_add_eq_error ms b)

/-! ## 2. The resolver's loops are runs of market requests -/

theorem foldlM_flatMap {ε σ α β : Type} (f : σ → α → Except ε σ) (g : β → List α) (l : List β)
    (s : σ) : (l.flatMap g).foldlM f s = l.foldlM (fun s c => (g c).foldlM f s) s := by
  induction l generalizing s with
  | nil => rfl
  | cons c l ih => simp only [List.flatMap_cons, List.foldlM_append, List.foldlM_cons, ih]

theorem addPerps_eq_foldlM (w : Bool) (b : Buckets) (is : List UInt16) :
    r.addPerps markets w b is =
      (is.map (MarketRequest.perp · w)).foldlM (fun b mr => mr.add r markets b) b := by
  rw [List.foldlM_map]
  rfl

theorem addSpots_eq_foldlM (r : Resolver) (w : Bool) (b : Buckets) (js : List UInt16) :
    addSpots markets w b js =
      (js.map (MarketRequest.spot · w)).foldlM (fun b mr => mr.add r markets b) b := by
  rw [List.foldlM_map]
  rfl

theorem addUser_eq_foldlM (b : Buckets) (u : UserAccount) :
    r.addUser markets b u = (userMarkets u).foldlM (fun b mr => mr.add r markets b) b := by
  unfold addUser userMarkets
  simp only [List.foldlM_append, foldlM_flatMap, addPerps_eq_foldlM, List.map_map]
  have hpos : ∀ b (pos : SpotPosition),
      (do
        let b ← addSpot markets b pos.marketIndex false
        if pos.hasOpenBidOrAsk then addSpot markets b Program.quoteSpotMarketIndex false
        else pure b) =
        (spotPositionMarkets pos).foldlM (fun b mr => mr.add r markets b) b := by
    intro b pos
    unfold spotPositionMarkets
    cases pos.hasOpenBidOrAsk <;> simp [MarketRequest.add]
  simp only [hpos]
  rfl

theorem foldlM_addUser (users : List UserAccount) (b : Buckets) :
    users.foldlM (r.addUser markets) b =
      (users.flatMap userMarkets).foldlM (fun b mr => mr.add r markets b) b := by
  rw [foldlM_flatMap]
  simp only [← addUser_eq_foldlM]

theorem addRequested_eq_foldlM (p : RemainingParams) (b : Buckets) :
    r.addRequested markets p b =
      (requestedMarkets r p).foldlM (fun b mr => mr.add r markets b) b := by
  simp only [addRequested, requestedMarkets, List.foldlM_append, addPerps_eq_foldlM,
    addSpots_eq_foldlM r, bind_assoc]

/-! ## 3. The outcome of a resolution -/

/-- A resolution misses its user when an instruction that needs a snapshot has none, or when
the table is used while the snapshot's slot is unknown and the users' markets were all found,
so that the run reaches that check. -/
def MissingUser (p : RemainingParams) (markets : MarketLookup) (userSlot : Option UInt64) :
    Prop :=
  (p.userAccounts = [] ∧ p.userNotAvailable = false) ∨
    (p.useSlotTable = true ∧ p.userNotAvailable = false ∧ userSlot = none ∧
      firstMissing markets (p.userAccounts.flatMap userMarkets) = none)

instance (p : RemainingParams) (markets : MarketLookup) (userSlot : Option UInt64) :
    Decidable (MissingUser p markets userSlot) :=
  inferInstanceAs (Decidable (_ ∨ _))

/-- A resolution reaches the table step at snapshot slot `u` when the snapshots pass their
check, the markets of the users' open positions are all loaded, and the table is used with `u`
as the snapshot slot: `0` for a user being created, else the snapshot's slot. -/
def ReachesTable (p : RemainingParams) (markets : MarketLookup) (userSlot : Option UInt64)
    (u : UInt64) : Prop :=
  ¬(p.userAccounts = [] ∧ p.userNotAvailable = false) ∧
    firstMissing markets (p.userAccounts.flatMap userMarkets) = none ∧
    p.useSlotTable = true ∧ tableSlot p userSlot = some u

theorem tableSlot_eq_none (p : RemainingParams) (userSlot : Option UInt64) :
    tableSlot p userSlot = none ↔ p.userNotAvailable = false ∧ userSlot = none := by
  unfold tableSlot
  cases p.userNotAvailable <;> simp

theorem snapshotCheck_eq (p : RemainingParams) :
    (p.userAccounts.isEmpty && !p.userNotAvailable) =
      decide (p.userAccounts = [] ∧ p.userNotAvailable = false) := by
  cases p.userAccounts <;> cases p.userNotAvailable <;> rfl

/-- **The answer of a resolution**: a resolution that misses its user says so, and one that does
not runs its whole traversal, users' markets, table markets and requested markets, as one run of
market requests. -/
theorem resolveBuckets_snd (r : Resolver) (p : RemainingParams) (markets : MarketLookup)
    (table : SlotTable) (userSlot : Option UInt64) :
    (r.resolveBuckets p markets table userSlot).2 =
      if MissingUser p markets userSlot then .error .missingUserAccount
      else (resolvedMarkets r p table userSlot).foldlM (fun b mr => mr.add r markets b)
        Buckets.empty := by
  unfold resolveBuckets
  rw [foldlM_addUser, snapshotCheck_eq]
  by_cases h0 : p.userAccounts = [] ∧ p.userNotAvailable = false
  · rw [if_pos (decide_eq_true h0), if_pos (show MissingUser p markets userSlot from Or.inl h0)]
  rw [if_neg (by simpa using h0)]
  simp only [resolvedMarkets, List.foldlM_append]
  cases hU : (p.userAccounts.flatMap userMarkets).foldlM (fun b mr => mr.add r markets b)
      Buckets.empty with
  | error e =>
    -- a market of the users' positions is missing: that error, before any check on the slot
    have hmiss : firstMissing markets (p.userAccounts.flatMap userMarkets) = some e :=
      (foldlM_add_eq_error _ _ e).mp hU
    have hnot : ¬MissingUser p markets userSlot := by
      rintro (h | ⟨-, -, -, h⟩)
      · exact h0 h
      · simp [hmiss] at h
    rw [if_neg hnot]
    rfl
  | ok b =>
    have hU' : firstMissing markets (p.userAccounts.flatMap userMarkets) = none :=
      (exists_foldlM_add_eq_ok _ _).mp ⟨b, hU⟩
    cases huse : p.useSlotTable with
    | false =>
      have hnot : ¬MissingUser p markets userSlot := by
        rintro (h | ⟨h, -⟩)
        · exact h0 h
        · simp [huse] at h
      rw [if_neg hnot]
      simp [tableMarkets, huse, addRequested_eq_foldlM, bind, Except.bind, pure, Except.pure]
    | true =>
      dsimp only
      rw [if_pos rfl]
      rw [show (if p.userNotAvailable then some 0 else userSlot) = tableSlot p userSlot from rfl]
      cases hs : tableSlot p userSlot with
      | none =>
        obtain ⟨hna, hslot⟩ := (tableSlot_eq_none p userSlot).mp hs
        rw [if_pos (show MissingUser p markets userSlot from Or.inr ⟨huse, hna, hslot, hU'⟩)]
      | some u =>
        have hnot : ¬MissingUser p markets userSlot := by
          rintro (h | ⟨-, hna, hslot, -⟩)
          · exact h0 h
          · simp [(tableSlot_eq_none p userSlot).mpr ⟨hna, hslot⟩] at hs
        rw [if_neg hnot]
        simp [tableMarkets, huse, hs, SlotTable.retainNewerThan, addPerps_eq_foldlM,
          addSpots_eq_foldlM r, addRequested_eq_foldlM, List.foldlM_append, bind_assoc]
        rfl

/-- **The table a resolution leaves, when it reaches the table step**: the entries newer than the
snapshot slot, as they were. -/
theorem resolveBuckets_fst_of_reachesTable {p : RemainingParams} {table : SlotTable}
    {userSlot : Option UInt64} {u : UInt64} (h : ReachesTable p markets userSlot u) :
    (r.resolveBuckets p markets table userSlot).1 = (table.retainNewerThan u).1 := by
  obtain ⟨h0, hU, huse, hs⟩ := h
  obtain ⟨b, hb⟩ := (exists_foldlM_add_eq_ok _ Buckets.empty).mpr hU
  unfold resolveBuckets
  rw [foldlM_addUser, snapshotCheck_eq, if_neg (by simpa using h0), hb]
  dsimp only
  rw [if_pos huse, show (if p.userNotAvailable then some 0 else userSlot) = tableSlot p userSlot
    from rfl, hs]

/-- **The table a resolution leaves, when it stops short of the table step or skips it**: the
table unchanged. -/
theorem resolveBuckets_fst_of_not_reachesTable {p : RemainingParams} {table : SlotTable}
    {userSlot : Option UInt64} (h : ∀ u, ¬ReachesTable p markets userSlot u) :
    (r.resolveBuckets p markets table userSlot).1 = table := by
  unfold resolveBuckets
  rw [foldlM_addUser, snapshotCheck_eq]
  by_cases h0 : p.userAccounts = [] ∧ p.userNotAvailable = false
  · rw [if_pos (decide_eq_true h0)]
  rw [if_neg (by simpa using h0)]
  cases hU : (p.userAccounts.flatMap userMarkets).foldlM (fun b mr => mr.add r markets b)
      Buckets.empty with
  | error e => rfl
  | ok b =>
    have hU' : firstMissing markets (p.userAccounts.flatMap userMarkets) = none :=
      (exists_foldlM_add_eq_ok _ _).mp ⟨b, hU⟩
    cases huse : p.useSlotTable with
    | false => simp
    | true =>
      dsimp only
      rw [if_pos rfl, show (if p.userNotAvailable then some 0 else userSlot) = tableSlot p userSlot
        from rfl]
      cases hs : tableSlot p userSlot with
      | none => rfl
      | some u => exact absurd ⟨h0, hU', huse, hs⟩ (h u)

theorem missing_ne_missingUserAccount (mr : MarketRequest) :
    mr.missing markets ≠ some .missingUserAccount := by
  have hspot : ∀ j, spotMissing markets j ≠ some .missingUserAccount := by
    intro j
    unfold spotMissing
    split <;> simp
  cases mr with
  | perp i w =>
    simp only [MarketRequest.missing]
    cases markets.perp i with
    | none => simp
    | some m => exact hspot _
  | spot j w => exact hspot j

/-- A missing market is reported as a perp or a spot market not loaded, never as a missing
user. -/
theorem firstMissing_ne_missingUserAccount (ms : List MarketRequest) :
    firstMissing markets ms ≠ some .missingUserAccount := by
  intro h
  obtain ⟨mr, -, hmr⟩ := List.exists_of_findSome?_eq_some h
  exact missing_ne_missingUserAccount mr hmr

theorem resolve_snd (r : Resolver) (p : RemainingParams) (markets : MarketLookup)
    (table : SlotTable) (userSlot : Option UInt64) :
    (r.resolve p markets table userSlot).2 =
      (r.resolveBuckets p markets table userSlot).2.map Buckets.metas := rfl

theorem resolve_eq_error_iff {p : RemainingParams} {table : SlotTable}
    {userSlot : Option UInt64} (e : ClientError) :
    (r.resolve p markets table userSlot).2 = .error e ↔
      (r.resolveBuckets p markets table userSlot).2 = .error e := by
  rw [resolve_snd]
  cases (r.resolveBuckets p markets table userSlot).2 <;> simp [Except.map]

theorem exists_resolve_eq_ok_iff {p : RemainingParams} {table : SlotTable}
    {userSlot : Option UInt64} :
    (∃ metas, (r.resolve p markets table userSlot).2 = .ok metas) ↔
      ∃ b, (r.resolveBuckets p markets table userSlot).2 = .ok b := by
  rw [resolve_snd]
  cases (r.resolveBuckets p markets table userSlot).2 <;> simp [Except.map]

/-- **The outcome of a resolution.** A resolution reports a missing user exactly when an
instruction that needs a snapshot has none, or when it asks for the table while the snapshot's
slot is unknown and every market of the users' positions is loaded. Otherwise it reports the
first market of its traversal that the lookup does not hold, a perp market or a perp market's
quote spot market, and it succeeds when there is none. Whatever the answer, the table loses
exactly its entries at or before the snapshot slot `u` when the resolution reaches the table
step at `u`, and it stays unchanged otherwise. No entry is added or changed. -/
theorem resolve_outcome (r : Resolver) (p : RemainingParams) (markets : MarketLookup)
    (table : SlotTable) (userSlot : Option UInt64) :
    ((r.resolve p markets table userSlot).2 = .error .missingUserAccount ↔
        MissingUser p markets userSlot) ∧
      (¬MissingUser p markets userSlot → ∀ e,
        (r.resolve p markets table userSlot).2 = .error e ↔
          firstMissing markets (resolvedMarkets r p table userSlot) = some e) ∧
      ((∃ metas, (r.resolve p markets table userSlot).2 = .ok metas) ↔
        ¬MissingUser p markets userSlot ∧
          firstMissing markets (resolvedMarkets r p table userSlot) = none) ∧
      (∀ u, ReachesTable p markets userSlot u →
        (r.resolve p markets table userSlot).1.perp = table.perp.filter (fun e => u < e.2) ∧
          (r.resolve p markets table userSlot).1.spot = table.spot.filter fun e => u < e.2) ∧
      ((∀ u, ¬ReachesTable p markets userSlot u) →
        (r.resolve p markets table userSlot).1 = table) := by
  have hsnd := resolveBuckets_snd r p markets table userSlot
  refine ⟨?_, fun hnot e => ?_, ?_, fun u hu => ?_,
    fun hno => resolveBuckets_fst_of_not_reachesTable hno⟩
  · rw [resolve_eq_error_iff, hsnd]
    by_cases hm : MissingUser p markets userSlot
    · simp [hm]
    · rw [if_neg hm, foldlM_add_eq_error]
      simp [hm, firstMissing_ne_missingUserAccount]
  · rw [resolve_eq_error_iff, hsnd, if_neg hnot, foldlM_add_eq_error]
  · rw [exists_resolve_eq_ok_iff, hsnd]
    by_cases hm : MissingUser p markets userSlot
    · simp [hm]
    · rw [if_neg hm, exists_foldlM_add_eq_ok]
      simp [hm]
  · have hleft : (r.resolve p markets table userSlot).1 = (table.retainNewerThan u).1 :=
      resolveBuckets_fst_of_reachesTable hu
    rw [hleft]
    exact ⟨rfl, rfl⟩

/-- A user being created (snapshot slot `0`) with a table holding perp market 1 at slot 5 and
perp market 2 at slot 0; no market is loaded. -/
def evictingParams : RemainingParams := ⟨[], [], [], [], [], true, true⟩

/-- Perp market 1 recorded at slot 5, perp market 2 at slot 0. -/
def evictingTable : SlotTable := (SlotTable.empty.recordPerp 2 0).recordPerp 1 5

/-- A lookup that holds no market. -/
def noMarkets : MarketLookup := ⟨fun _ => none, fun _ => none⟩

/-- The entry at slot 0 is evicted and stays evicted when the table's market 1 is then reported
missing. -/
example : (Resolver.default.resolve evictingParams noMarkets evictingTable none).1.perp = [(1, 5)] ∧
    (Resolver.default.resolve evictingParams noMarkets evictingTable none).2 =
      .error (.perpMarketNotLoaded 1) :=
  ⟨rfl, rfl⟩

theorem resolve_outcome_evicting :
    ((Resolver.default.resolve evictingParams noMarkets evictingTable none).2 =
        .error .missingUserAccount ↔ MissingUser evictingParams noMarkets none) ∧
      (¬MissingUser evictingParams noMarkets none → ∀ e,
        (Resolver.default.resolve evictingParams noMarkets evictingTable none).2 = .error e ↔
          firstMissing noMarkets
            (resolvedMarkets Resolver.default evictingParams evictingTable none) = some e) ∧
      ((∃ metas, (Resolver.default.resolve evictingParams noMarkets evictingTable none).2 =
          .ok metas) ↔
        ¬MissingUser evictingParams noMarkets none ∧
          firstMissing noMarkets
            (resolvedMarkets Resolver.default evictingParams evictingTable none) = none) ∧
      (∀ u, ReachesTable evictingParams noMarkets none u →
        (Resolver.default.resolve evictingParams noMarkets evictingTable none).1.perp =
            evictingTable.perp.filter (fun e => u < e.2) ∧
          (Resolver.default.resolve evictingParams noMarkets evictingTable none).1.spot =
            evictingTable.spot.filter fun e => u < e.2) ∧
      ((∀ u, ¬ReachesTable evictingParams noMarkets none u) →
        (Resolver.default.resolve evictingParams noMarkets evictingTable none).1 =
          evictingTable) :=
  resolve_outcome _ _ _ _ _

/-! ## 4. Resolving again

A resolution reads the table only through the entries newer than the snapshot slot, and it
keeps exactly those. A second resolution at the same slot therefore finds the same entries,
adds the same markets and evicts nothing more.
-/

/-- Evicting at one slot twice evicts nothing more than once. -/
theorem retainNewerThan_retainNewerThan (t : SlotTable) (u : UInt64) :
    (t.retainNewerThan u).1.retainNewerThan u = t.retainNewerThan u := by
  simp [SlotTable.retainNewerThan, List.filter_filter]

/-- The table a resolution leaves holds the same table markets as the one it started from. -/
theorem tableMarkets_resolve (r : Resolver) (p : RemainingParams) (markets : MarketLookup)
    (table : SlotTable) (userSlot : Option UInt64) :
    tableMarkets p (r.resolve p markets table userSlot).1 userSlot =
      tableMarkets p table userSlot := by
  by_cases hr : ∃ u, ReachesTable p markets userSlot u
  · obtain ⟨u, hu⟩ := hr
    have hleft : (r.resolve p markets table userSlot).1 = (table.retainNewerThan u).1 :=
      resolveBuckets_fst_of_reachesTable hu
    obtain ⟨-, -, huse, hs⟩ := hu
    rw [hleft]
    simp only [tableMarkets, huse, hs, retainNewerThan_retainNewerThan]
  · rw [show (r.resolve p markets table userSlot).1 = table from
      resolveBuckets_fst_of_not_reachesTable (not_exists.mp hr)]

/-- **Resolving is idempotent.** Resolving again with the same arguments and the table the
first resolution left gives the same answer, the same list or the same error, and leaves that
table as it is: the table a resolution leaves is a fixpoint of resolving. -/
theorem resolve_again (r : Resolver) (p : RemainingParams) (markets : MarketLookup)
    (table : SlotTable) (userSlot : Option UInt64) :
    r.resolve p markets (r.resolve p markets table userSlot).1 userSlot =
      r.resolve p markets table userSlot := by
  -- the answers: both runs pour the same requests into the buckets
  have hsnd : (r.resolve p markets (r.resolve p markets table userSlot).1 userSlot).2 =
      (r.resolve p markets table userSlot).2 := by
    rw [resolve_snd, resolve_snd, resolveBuckets_snd, resolveBuckets_snd]
    simp only [resolvedMarkets, tableMarkets_resolve]
  -- the tables: the second run evicts at the same slot, or leaves the table alone
  have hfst : (r.resolve p markets (r.resolve p markets table userSlot).1 userSlot).1 =
      (r.resolve p markets table userSlot).1 := by
    by_cases hr : ∃ u, ReachesTable p markets userSlot u
    · obtain ⟨u, hu⟩ := hr
      have hleft : (r.resolve p markets table userSlot).1 = (table.retainNewerThan u).1 :=
        resolveBuckets_fst_of_reachesTable hu
      rw [show (r.resolve p markets (r.resolve p markets table userSlot).1 userSlot).1 =
          ((r.resolve p markets table userSlot).1.retainNewerThan u).1 from
        resolveBuckets_fst_of_reachesTable hu, hleft, retainNewerThan_retainNewerThan]
    · exact resolveBuckets_fst_of_not_reachesTable (not_exists.mp hr)
  exact Prod.ext hfst hsnd

end PerpClient.Resolver
