import PerpClient.Proofs.Buckets
/-!
# Which accounts a resolution lists, and which it writes

A resolution adds markets one after another: those of the users' open positions, those of the
last-active table newer than the user's snapshot, then those asked for. Adding a market asks
its bucket for the market's address, the oracle bucket for its oracle (unless it has none) and,
for a perp market, adds its quote spot market read-only. This module shows that a resolution
that succeeds is exactly the list of those address requests poured into the three buckets
(`resolveBuckets_eq_ok`), and reads off, from the bucket lemmas of `Proofs.Buckets`:

* `resolve_keys`: which addresses the remaining accounts hold — the markets an instruction
  needs (`NeedsPerp`, `NeedsSpot`) and their oracles, nothing else;
* `resolve_writable`: which entries are writable — exactly those some writable request reached,
  whatever read-only requests for the same address came before or after — and that no entry
  is a signer.
-/

namespace PerpClient.Resolver

/-! ## 1. The requests of one market -/

/-- The request for a market's oracle; none for a market without one. -/
def oracleRequests (oracle : Pubkey) (w : Bool) : List Request :=
  if oracle = Program.noOracle then [] else [⟨.oracle, oracle, w⟩]

/-- What adding spot market `j` asks for: the market, then its oracle read-only. -/
def spotRequests (markets : MarketLookup) (w : Bool) (j : UInt16) : List Request :=
  match markets.spot j with
  | some m => ⟨.spot, m.pubkey, w⟩ :: oracleRequests m.oracle false
  | none => []

/-- What adding perp market `i` asks for: the market, its oracle (written only when the market
is and the oracle-writable rule holds), then its quote spot market read-only. -/
def perpRequests (r : Resolver) (markets : MarketLookup) (w : Bool) (i : UInt16) :
    List Request :=
  match markets.perp i with
  | some m =>
    ⟨.perp, m.pubkey, w⟩ :: oracleRequests m.oracle (w && r.oracleWritable m) ++
      spotRequests markets false m.quoteSpotMarketIndex
  | none => []

/-- A market the resolver adds, read-only or writable. -/
inductive MarketRequest where
  | perp (i : UInt16) (writable : Bool)
  | spot (j : UInt16) (writable : Bool)

/-- The address requests of one market request. -/
def MarketRequest.requests (r : Resolver) (markets : MarketLookup) : MarketRequest → List Request
  | .perp i w => perpRequests r markets w i
  | .spot j w => spotRequests markets w j

/-- The markets a spot position brings, read-only: its own, and the quote market when it has
open orders. -/
def spotPositionMarkets (pos : SpotPosition) : List MarketRequest :=
  .spot pos.marketIndex false ::
    if pos.hasOpenBidOrAsk then [.spot Program.quoteSpotMarketIndex false] else []

/-- The markets a user's open positions bring, read-only: those of the spot positions, then
each perp position's market. -/
def userMarkets (u : UserAccount) : List MarketRequest :=
  u.activeSpotPositions.flatMap spotPositionMarkets ++
    u.activePerpPositions.map fun pos => .perp pos.marketIndex false

/-- The snapshot slot the table is compared with: 0 for a user being created. -/
def tableSlot (p : RemainingParams) (userSlot : Option UInt64) : Option UInt64 :=
  if p.userNotAvailable then some 0 else userSlot

/-- The table's markets a resolution adds, read-only: those newer than the user's snapshot, when
the table is used. -/
def tableMarkets (p : RemainingParams) (table : SlotTable) (userSlot : Option UInt64) :
    List MarketRequest :=
  match p.useSlotTable, tableSlot p userSlot with
  | true, some slot =>
    (table.retainNewerThan slot).2.1.map (.perp · false) ++
      (table.retainNewerThan slot).2.2.map (.spot · false)
  | _, _ => []

/-- The markets asked for, in the order they are added: readable perps, forced perps, readable
spots, forced spots, then the writable perps and spots. -/
def requestedMarkets (r : Resolver) (p : RemainingParams) : List MarketRequest :=
  p.readablePerp.map (.perp · false) ++ r.mustInclude.perp.map (.perp · false) ++
    p.readableSpot.map (.spot · false) ++ r.mustInclude.spot.map (.spot · false) ++
    p.writablePerp.map (.perp · true) ++ p.writableSpot.map (.spot · true)

/-- Every market a resolution adds, in order. -/
def resolvedMarkets (r : Resolver) (p : RemainingParams) (table : SlotTable)
    (userSlot : Option UInt64) : List MarketRequest :=
  p.userAccounts.flatMap userMarkets ++ tableMarkets p table userSlot ++ requestedMarkets r p

/-! ## 2. A resolution that succeeds pours its requests into the buckets -/

theorem except_bind_eq_ok {ε α β : Type} {x : Except ε α} {f : α → Except ε β} {b : β}
    (h : x >>= f = .ok b) : ∃ a, x = .ok a ∧ f a = .ok b := by
  cases x with
  | error e => exact nomatch h
  | ok a => exact ⟨a, rfl, h⟩

/-- A loop of steps that each pour their item's requests into the buckets pours the requests of
all items, in order. -/
theorem foldlM_eq_ok {α : Type} {step : Buckets → α → Except ClientError Buckets}
    {reqs : α → List Request}
    (hstep : ∀ b a b', step b a = .ok b' → b' = (reqs a).foldl Buckets.request b)
    {as : List α} {b b' : Buckets} (h : as.foldlM step b = .ok b') :
    b' = (as.flatMap reqs).foldl Buckets.request b := by
  induction as generalizing b with
  | nil =>
    cases h
    rfl
  | cons a rest ih =>
    rw [List.foldlM_cons] at h
    obtain ⟨b1, h1, h2⟩ := except_bind_eq_ok h
    rw [List.flatMap_cons, List.foldl_append, ← hstep b a b1 h1]
    exact ih h2

theorem addSpot_eq_ok {markets : MarketLookup} {b b' : Buckets} {j : UInt16} {w : Bool}
    (h : addSpot markets b j w = .ok b') :
    b' = (spotRequests markets w j).foldl Buckets.request b := by
  unfold addSpot at h
  unfold spotRequests
  cases hm : markets.spot j with
  | none =>
    rw [hm] at h
    exact nomatch h
  | some m =>
    rw [hm] at h
    cases h
    by_cases ho : m.oracle = Program.noOracle
    · simp [ho, oracleRequests, Buckets.request]
    · simp [ho, oracleRequests, Buckets.request]

theorem addPerp_eq_ok {r : Resolver} {markets : MarketLookup} {b b' : Buckets} {i : UInt16}
    {w : Bool} (h : r.addPerp markets b i w = .ok b') :
    b' = (perpRequests r markets w i).foldl Buckets.request b := by
  unfold addPerp at h
  unfold perpRequests
  cases hm : markets.perp i with
  | none =>
    rw [hm] at h
    exact nomatch h
  | some m =>
    rw [hm] at h
    dsimp only at h ⊢
    rw [addSpot_eq_ok h, List.cons_append, List.foldl_cons, List.foldl_append]
    congr 1
    by_cases ho : m.oracle = Program.noOracle
    · simp [ho, oracleRequests, Buckets.request]
    · simp [ho, oracleRequests, Buckets.request]

variable {r : Resolver} {markets : MarketLookup} {b b' : Buckets}

theorem addSpots_eq_ok (r : Resolver) {w : Bool} {js : List UInt16}
    (h : addSpots markets w b js = .ok b') :
    b' = ((js.map (MarketRequest.spot · w)).flatMap (·.requests r markets)).foldl
      Buckets.request b := by
  rw [List.flatMap_map]
  exact foldlM_eq_ok (fun _ _ _ hb => addSpot_eq_ok hb) h

theorem addPerps_eq_ok {w : Bool} {is : List UInt16} (h : r.addPerps markets w b is = .ok b') :
    b' = ((is.map (MarketRequest.perp · w)).flatMap (·.requests r markets)).foldl
      Buckets.request b := by
  rw [List.flatMap_map]
  exact foldlM_eq_ok (fun _ _ _ hb => addPerp_eq_ok hb) h

theorem addSpotPosition_eq_ok (r : Resolver) {pos : SpotPosition}
    (h : (do
      let b ← addSpot markets b pos.marketIndex false
      if pos.hasOpenBidOrAsk then addSpot markets b Program.quoteSpotMarketIndex false
      else pure b) = .ok b') :
    b' = ((spotPositionMarkets pos).flatMap (·.requests r markets)).foldl Buckets.request b := by
  obtain ⟨b1, h1, h2⟩ := except_bind_eq_ok h
  rw [addSpot_eq_ok h1] at h2
  by_cases ho : pos.hasOpenBidOrAsk
  · rw [if_pos ho] at h2
    simp [addSpot_eq_ok h2, spotPositionMarkets, ho, MarketRequest.requests, List.foldl_append]
  · rw [if_neg ho] at h2
    cases h2
    simp [spotPositionMarkets, ho, MarketRequest.requests]

theorem addUser_eq_ok {u : UserAccount} (h : r.addUser markets b u = .ok b') :
    b' = ((userMarkets u).flatMap (·.requests r markets)).foldl Buckets.request b := by
  unfold addUser at h
  obtain ⟨b1, h1, h2⟩ := except_bind_eq_ok h
  have hs := foldlM_eq_ok (fun _ _ _ hb => addSpotPosition_eq_ok r hb) h1
  rw [addPerps_eq_ok h2, hs, ← List.foldl_append]
  simp [userMarkets, List.flatMap_append, List.flatMap_assoc, Function.comp_def]

theorem addRequested_eq_ok {p : RemainingParams} (h : r.addRequested markets p b = .ok b') :
    b' = ((requestedMarkets r p).flatMap (·.requests r markets)).foldl Buckets.request b := by
  unfold addRequested at h
  obtain ⟨b1, h1, h⟩ := except_bind_eq_ok h
  obtain ⟨b2, h2, h⟩ := except_bind_eq_ok h
  obtain ⟨b3, h3, h⟩ := except_bind_eq_ok h
  obtain ⟨b4, h4, h⟩ := except_bind_eq_ok h
  obtain ⟨b5, h5, h6⟩ := except_bind_eq_ok h
  rw [addSpots_eq_ok r h6, addPerps_eq_ok h5, addSpots_eq_ok r h4, addSpots_eq_ok r h3,
    addPerps_eq_ok h2, addPerps_eq_ok h1]
  simp only [requestedMarkets, List.flatMap_append, List.foldl_append]

/-- **The simulation**: a resolution that succeeds is the address requests of every market it
adds, in order, poured into empty buckets. -/
theorem resolveBuckets_eq_ok {p : RemainingParams} {table table' : SlotTable}
    {userSlot : Option UInt64} (h : r.resolveBuckets p markets table userSlot = (table', .ok b)) :
    b = ((resolvedMarkets r p table userSlot).flatMap (·.requests r markets)).foldl
      Buckets.request Buckets.empty := by
  unfold resolveBuckets at h
  split at h
  · simp at h
  · split at h
    · simp at h
    · rename_i b0 hu
      have h0 := foldlM_eq_ok (fun _ _ _ hb => addUser_eq_ok hb) hu
      simp only [resolvedMarkets, List.flatMap_append, List.foldl_append, List.flatMap_assoc,
        ← h0]
      cases huse : p.useSlotTable with
      | false =>
        simp only [huse, Bool.false_eq_true, if_false, Prod.mk.injEq] at h
        have ht : tableMarkets p table userSlot = [] := by simp [tableMarkets, huse]
        rw [ht, addRequested_eq_ok h.2]
        rfl
      | true =>
        simp only [huse, if_true] at h
        rw [show (if p.userNotAvailable then some 0 else userSlot) = tableSlot p userSlot from rfl]
          at h
        cases hs : tableSlot p userSlot with
        | none =>
          rw [hs] at h
          simp at h
        | some slot =>
          rw [hs] at h
          simp only [Prod.mk.injEq] at h
          obtain ⟨b1, h1, h⟩ := except_bind_eq_ok h.2
          obtain ⟨b2, h2, h3⟩ := except_bind_eq_ok h
          have ht : tableMarkets p table userSlot =
              (table.retainNewerThan slot).2.1.map (MarketRequest.perp · false) ++
                (table.retainNewerThan slot).2.2.map (MarketRequest.spot · false) := by
            simp [tableMarkets, huse, hs]
          rw [addRequested_eq_ok h3, addSpots_eq_ok r h2, addPerps_eq_ok h1, ht]
          simp only [List.flatMap_append, List.foldl_append]

/-! ## 3. The requests, market by market -/

theorem mem_oracleRequests (o : Pubkey) (w : Bool) (q : Request) :
    q ∈ oracleRequests o w ↔ o ≠ Program.noOracle ∧ q = ⟨.oracle, o, w⟩ := by
  unfold oracleRequests
  by_cases ho : o = Program.noOracle <;> simp [ho]

theorem mem_spotRequests (markets : MarketLookup) (w : Bool) (j : UInt16) (q : Request) :
    q ∈ spotRequests markets w j ↔ ∃ m, markets.spot j = some m ∧
      (q = ⟨.spot, m.pubkey, w⟩ ∨
        m.oracle ≠ Program.noOracle ∧ q = ⟨.oracle, m.oracle, false⟩) := by
  unfold spotRequests
  cases markets.spot j with
  | none => simp
  | some m => simp [mem_oracleRequests]

theorem mem_perpRequests (r : Resolver) (markets : MarketLookup) (w : Bool) (i : UInt16)
    (q : Request) :
    q ∈ perpRequests r markets w i ↔ ∃ m, markets.perp i = some m ∧
      (q = ⟨.perp, m.pubkey, w⟩ ∨
        m.oracle ≠ Program.noOracle ∧ q = ⟨.oracle, m.oracle, w && r.oracleWritable m⟩ ∨
        q ∈ spotRequests markets false m.quoteSpotMarketIndex) := by
  unfold perpRequests
  cases markets.perp i with
  | none => simp
  | some m => simp [mem_oracleRequests]

/-- The addresses a market brings: its own, and its oracle unless it has none. -/
def MarketAddress (pubkey oracle k : Pubkey) : Prop :=
  k = pubkey ∨ oracle ≠ Program.noOracle ∧ k = oracle

/-- The address a market brings to bucket `t`: its own address when `t` is the market's own
bucket, and its oracle, unless it has none, when `t` is the oracle bucket. -/
def KindAddress (own t : BucketKind) (pubkey oracle k : Pubkey) : Prop :=
  t = own ∧ k = pubkey ∨ t = .oracle ∧ oracle ≠ Program.noOracle ∧ k = oracle

/-- A market's addresses are those it brings to some bucket. -/
theorem exists_kindAddress (own : BucketKind) (pubkey oracle k : Pubkey) :
    (∃ t, KindAddress own t pubkey oracle k) ↔ MarketAddress pubkey oracle k := by
  constructor
  · rintro ⟨t, ⟨-, rfl⟩ | ⟨-, ho, rfl⟩⟩
    · exact .inl rfl
    · exact .inr ⟨ho, rfl⟩
  · rintro (rfl | ⟨ho, rfl⟩)
    · exact ⟨own, .inl ⟨rfl, rfl⟩⟩
    · exact ⟨.oracle, .inr ⟨rfl, ho, rfl⟩⟩

theorem kind_key_mem_spotRequests (markets : MarketLookup) (w : Bool) (j : UInt16)
    (t : BucketKind) (k : Pubkey) :
    (∃ w', ⟨t, k, w'⟩ ∈ spotRequests markets w j) ↔
      ∃ m, markets.spot j = some m ∧ KindAddress .spot t m.pubkey m.oracle k := by
  simp only [mem_spotRequests, Request.mk.injEq, KindAddress]
  constructor
  · rintro ⟨w', m, hm, ⟨rfl, rfl, -⟩ | ⟨ho, rfl, rfl, -⟩⟩
    · exact ⟨m, hm, .inl ⟨rfl, rfl⟩⟩
    · exact ⟨m, hm, .inr ⟨rfl, ho, rfl⟩⟩
  · rintro ⟨m, hm, ⟨rfl, rfl⟩ | ⟨rfl, ho, rfl⟩⟩
    · exact ⟨w, m, hm, .inl ⟨rfl, rfl, rfl⟩⟩
    · exact ⟨false, m, hm, .inr ⟨ho, rfl, rfl, rfl⟩⟩

/-- A perp market brings its own addresses and those of its quote spot market. -/
theorem kind_key_mem_perpRequests (r : Resolver) (markets : MarketLookup) (w : Bool) (i : UInt16)
    (t : BucketKind) (k : Pubkey) :
    (∃ w', ⟨t, k, w'⟩ ∈ perpRequests r markets w i) ↔
      ∃ m, markets.perp i = some m ∧ (KindAddress .perp t m.pubkey m.oracle k ∨
        ∃ mq, markets.spot m.quoteSpotMarketIndex = some mq ∧
          KindAddress .spot t mq.pubkey mq.oracle k) := by
  simp only [mem_perpRequests, Request.mk.injEq]
  constructor
  · rintro ⟨w', m, hm, ⟨rfl, rfl, -⟩ | ⟨ho, rfl, rfl, -⟩ | hq⟩
    · exact ⟨m, hm, .inl (.inl ⟨rfl, rfl⟩)⟩
    · exact ⟨m, hm, .inl (.inr ⟨rfl, ho, rfl⟩)⟩
    · exact ⟨m, hm, .inr ((kind_key_mem_spotRequests markets false _ t k).mp ⟨w', hq⟩)⟩
  · rintro ⟨m, hm, (⟨rfl, rfl⟩ | ⟨rfl, ho, rfl⟩) | hq⟩
    · exact ⟨w, m, hm, .inl ⟨rfl, rfl, rfl⟩⟩
    · exact ⟨_, m, hm, .inr (.inl ⟨ho, rfl, rfl, rfl⟩)⟩
    · obtain ⟨w', hq⟩ := (kind_key_mem_spotRequests markets false _ t k).mpr hq
      exact ⟨w', m, hm, .inr (.inr hq)⟩

/-- Only a writable perp market request writes a perp market. -/
theorem writable_perp_mem_requests (ms : List MarketRequest) (k : Pubkey) :
    ⟨.perp, k, true⟩ ∈ ms.flatMap (·.requests r markets) ↔
      ∃ i, .perp i true ∈ ms ∧ ∃ m, markets.perp i = some m ∧ m.pubkey = k := by
  simp only [List.mem_flatMap]
  constructor
  · rintro ⟨mr, hmr, hq⟩
    cases mr with
    | perp i w =>
      simp [MarketRequest.requests, mem_perpRequests, mem_spotRequests] at hq
      obtain ⟨m, hm, rfl, rfl⟩ := hq
      exact ⟨i, hmr, m, hm, rfl⟩
    | spot j w => simp [MarketRequest.requests, mem_spotRequests] at hq
  · rintro ⟨i, hi, m, hm, rfl⟩
    exact ⟨_, hi, by simp [MarketRequest.requests, mem_perpRequests, hm]⟩

/-- Only a writable spot market request writes a spot market: a quote market is read-only. -/
theorem writable_spot_mem_requests (ms : List MarketRequest) (k : Pubkey) :
    ⟨.spot, k, true⟩ ∈ ms.flatMap (·.requests r markets) ↔
      ∃ j, .spot j true ∈ ms ∧ ∃ m, markets.spot j = some m ∧ m.pubkey = k := by
  simp only [List.mem_flatMap]
  constructor
  · rintro ⟨mr, hmr, hq⟩
    cases mr with
    | perp i w => simp [MarketRequest.requests, mem_perpRequests, mem_spotRequests] at hq
    | spot j w =>
      simp [MarketRequest.requests, mem_spotRequests] at hq
      obtain ⟨m, hm, rfl, rfl⟩ := hq
      exact ⟨j, hmr, m, hm, rfl⟩
  · rintro ⟨j, hj, m, hm, rfl⟩
    exact ⟨_, hj, by simp [MarketRequest.requests, mem_spotRequests, hm]⟩

/-- Only a writable perp market request whose market the oracle-writable rule accepts writes an
oracle: spot markets and quote markets read theirs. -/
theorem writable_oracle_mem_requests (ms : List MarketRequest) (k : Pubkey) :
    ⟨.oracle, k, true⟩ ∈ ms.flatMap (·.requests r markets) ↔
      k ≠ Program.noOracle ∧ ∃ i, .perp i true ∈ ms ∧ ∃ m, markets.perp i = some m ∧
        m.oracle = k ∧ r.oracleWritable m = true := by
  simp only [List.mem_flatMap]
  constructor
  · rintro ⟨mr, hmr, hq⟩
    cases mr with
    | perp i w =>
      simp [MarketRequest.requests, mem_perpRequests, mem_spotRequests] at hq
      obtain ⟨m, hm, ho, rfl, rfl, hw⟩ := hq
      exact ⟨ho, i, hmr, m, hm, rfl, hw⟩
    | spot j w => simp [MarketRequest.requests, mem_spotRequests] at hq
  · rintro ⟨ho, i, hi, m, hm, rfl, hw⟩
    exact ⟨_, hi, by simp [MarketRequest.requests, mem_perpRequests, hm, ho, hw]⟩

/-- The no-oracle address is never requested as an oracle. -/
theorem ne_noOracle_of_oracle_mem_requests (ms : List MarketRequest) {k : Pubkey} {w : Bool}
    (h : ⟨.oracle, k, w⟩ ∈ ms.flatMap (·.requests r markets)) : k ≠ Program.noOracle := by
  obtain ⟨mr, -, hq⟩ := List.mem_flatMap.mp h
  cases mr with
  | perp i w' =>
    simp only [MarketRequest.requests, mem_perpRequests, mem_spotRequests] at hq
    obtain ⟨m, -, hq | ⟨ho, hq⟩ | ⟨mq, -, hq | ⟨ho, hq⟩⟩⟩ := hq
    · cases hq
    · cases hq
      exact ho
    · cases hq
    · cases hq
      exact ho
  | spot j w' =>
    simp only [MarketRequest.requests, mem_spotRequests] at hq
    obtain ⟨m, -, hq | ⟨ho, hq⟩⟩ := hq
    · cases hq
    · cases hq
      exact ho

/-! ## 4. The markets a resolution adds -/

/-- The perp markets an instruction needs: those of the users' open perp positions, those the
table holds at a slot newer than the user's snapshot (when the table is used), and those asked
for. -/
def NeedsPerp (r : Resolver) (p : RemainingParams) (table : SlotTable)
    (userSlot : Option UInt64) (i : UInt16) : Prop :=
  (∃ u ∈ p.userAccounts, ∃ pos ∈ u.perpPositions,
      pos.isAvailable = false ∧ pos.marketIndex = i) ∨
    (p.useSlotTable = true ∧
      ∃ slot s, tableSlot p userSlot = some slot ∧ (i, s) ∈ table.perp ∧ slot < s) ∨
    i ∈ p.readablePerp ∨ i ∈ r.mustInclude.perp ∨ i ∈ p.writablePerp

/-- The spot markets an instruction asks for by index: those of the users' open spot positions
(and the quote market for a position with open orders), those the table holds at a slot newer
than the user's snapshot (when the table is used), and those asked for. -/
def AsksSpot (r : Resolver) (p : RemainingParams) (table : SlotTable)
    (userSlot : Option UInt64) (j : UInt16) : Prop :=
  (∃ u ∈ p.userAccounts, ∃ pos ∈ u.spotPositions, pos.isAvailable = false ∧
      (pos.marketIndex = j ∨ pos.hasOpenBidOrAsk = true ∧ j = Program.quoteSpotMarketIndex)) ∨
    (p.useSlotTable = true ∧
      ∃ slot s, tableSlot p userSlot = some slot ∧ (j, s) ∈ table.spot ∧ slot < s) ∨
    j ∈ p.readableSpot ∨ j ∈ r.mustInclude.spot ∨ j ∈ p.writableSpot

/-- The spot markets an instruction needs: those it asks for, and the quote market of every
perp market it needs. -/
def NeedsSpot (r : Resolver) (p : RemainingParams) (markets : MarketLookup) (table : SlotTable)
    (userSlot : Option UInt64) (j : UInt16) : Prop :=
  AsksSpot r p table userSlot j ∨
    ∃ i m, NeedsPerp r p table userSlot i ∧ markets.perp i = some m ∧
      m.quoteSpotMarketIndex = j

theorem perp_mem_userMarkets (u : UserAccount) (i : UInt16) (w : Bool) :
    .perp i w ∈ userMarkets u ↔
      w = false ∧
        ∃ pos ∈ u.perpPositions, pos.isAvailable = false ∧ pos.marketIndex = i := by
  simp [userMarkets, spotPositionMarkets, UserAccount.activePerpPositions]
  constructor
  · rintro ⟨pos, ⟨hpos, hav⟩, rfl, rfl⟩
    exact ⟨rfl, pos, hpos, hav, rfl⟩
  · rintro ⟨rfl, pos, hpos, hav, rfl⟩
    exact ⟨pos, ⟨hpos, hav⟩, rfl, rfl⟩

theorem spot_mem_userMarkets (u : UserAccount) (j : UInt16) (w : Bool) :
    .spot j w ∈ userMarkets u ↔
      w = false ∧ ∃ pos ∈ u.spotPositions, pos.isAvailable = false ∧
        (pos.marketIndex = j ∨
          pos.hasOpenBidOrAsk = true ∧ j = Program.quoteSpotMarketIndex) := by
  simp [userMarkets, spotPositionMarkets, UserAccount.activeSpotPositions]
  constructor
  · rintro ⟨pos, ⟨hpos, hav⟩, ⟨rfl, rfl⟩ | ⟨ho, rfl, rfl⟩⟩
    · exact ⟨rfl, pos, hpos, hav, .inl rfl⟩
    · exact ⟨rfl, pos, hpos, hav, .inr ⟨ho, rfl⟩⟩
  · rintro ⟨rfl, pos, hpos, hav, rfl | ⟨ho, rfl⟩⟩
    · exact ⟨pos, ⟨hpos, hav⟩, .inl ⟨rfl, rfl⟩⟩
    · exact ⟨pos, ⟨hpos, hav⟩, .inr ⟨ho, rfl, rfl⟩⟩

/-- The markets of a table newer than a slot: those with an entry past it. -/
theorem mem_newerThan (entries : List (UInt16 × UInt64)) (slot : UInt64) (i : UInt16) :
    i ∈ (entries.filter fun e => slot < e.2).map (·.1) ↔
      ∃ s, (i, s) ∈ entries ∧ slot < s := by
  simp only [List.mem_map, List.mem_filter, decide_eq_true_eq]
  constructor
  · rintro ⟨⟨i', s⟩, ⟨hs, hlt⟩, rfl⟩
    exact ⟨s, hs, hlt⟩
  · rintro ⟨s, hs, hlt⟩
    exact ⟨(i, s), ⟨hs, hlt⟩, rfl⟩

theorem perp_mem_tableMarkets (p : RemainingParams) (table : SlotTable) (userSlot : Option UInt64)
    (i : UInt16) (w : Bool) :
    .perp i w ∈ tableMarkets p table userSlot ↔ w = false ∧ p.useSlotTable = true ∧
      ∃ slot s, tableSlot p userSlot = some slot ∧ (i, s) ∈ table.perp ∧ slot < s := by
  unfold tableMarkets
  cases p.useSlotTable <;> cases tableSlot p userSlot
  case true.some slot =>
    dsimp only [SlotTable.retainNewerThan]
    rw [List.mem_append, List.mem_map, List.mem_map]
    constructor
    · rintro (⟨i', hi', h⟩ | ⟨j, -, h⟩)
      · cases h
        obtain ⟨s, hs, hlt⟩ := (mem_newerThan table.perp slot i).mp hi'
        exact ⟨rfl, rfl, slot, s, rfl, hs, hlt⟩
      · cases h
    · rintro ⟨rfl, -, slot', s, hslot, hs, hlt⟩
      cases hslot
      exact .inl ⟨i, (mem_newerThan table.perp slot i).mpr ⟨s, hs, hlt⟩, rfl⟩
  all_goals simp

theorem spot_mem_tableMarkets (p : RemainingParams) (table : SlotTable) (userSlot : Option UInt64)
    (j : UInt16) (w : Bool) :
    .spot j w ∈ tableMarkets p table userSlot ↔ w = false ∧ p.useSlotTable = true ∧
      ∃ slot s, tableSlot p userSlot = some slot ∧ (j, s) ∈ table.spot ∧ slot < s := by
  unfold tableMarkets
  cases p.useSlotTable <;> cases tableSlot p userSlot
  case true.some slot =>
    dsimp only [SlotTable.retainNewerThan]
    rw [List.mem_append, List.mem_map, List.mem_map]
    constructor
    · rintro (⟨i, -, h⟩ | ⟨j', hj', h⟩)
      · cases h
      · cases h
        obtain ⟨s, hs, hlt⟩ := (mem_newerThan table.spot slot j).mp hj'
        exact ⟨rfl, rfl, slot, s, rfl, hs, hlt⟩
    · rintro ⟨rfl, -, slot', s, hslot, hs, hlt⟩
      cases hslot
      exact .inr ⟨j, (mem_newerThan table.spot slot j).mpr ⟨s, hs, hlt⟩, rfl⟩
  all_goals simp

theorem perp_mem_requestedMarkets (r : Resolver) (p : RemainingParams) (i : UInt16) (w : Bool) :
    .perp i w ∈ requestedMarkets r p ↔
      w = false ∧ (i ∈ p.readablePerp ∨ i ∈ r.mustInclude.perp) ∨
        w = true ∧ i ∈ p.writablePerp := by
  cases w <;> simp [requestedMarkets]

theorem spot_mem_requestedMarkets (r : Resolver) (p : RemainingParams) (j : UInt16) (w : Bool) :
    .spot j w ∈ requestedMarkets r p ↔
      w = false ∧ (j ∈ p.readableSpot ∨ j ∈ r.mustInclude.spot) ∨
        w = true ∧ j ∈ p.writableSpot := by
  cases w <;> simp [requestedMarkets]

/-- A market comes read-only from the users, the table, the readable or the forced indexes,
or writable from the writable indexes: it comes some way exactly when one of them names it. -/
theorem exists_access_iff {β : Type} (us : List β) (U : β → Prop) (T R M W : Prop) :
    (∃ w : Bool, ((∃ u ∈ us, w = false ∧ U u) ∨ w = false ∧ T) ∨
        w = false ∧ (R ∨ M) ∨ w = true ∧ W) ↔
      (∃ u ∈ us, U u) ∨ T ∨ R ∨ M ∨ W := by
  rw [Bool.exists_bool]
  simp [or_assoc]

section Resolved

variable (r : Resolver) (p : RemainingParams) (table : SlotTable) (userSlot : Option UInt64)

/-- A perp market is added, read-only or writable, exactly when the instruction needs it. -/
theorem exists_perp_mem_resolvedMarkets (i : UInt16) :
    (∃ w, .perp i w ∈ resolvedMarkets r p table userSlot) ↔
      NeedsPerp r p table userSlot i := by
  simp only [resolvedMarkets, List.mem_append, List.mem_flatMap, perp_mem_userMarkets,
    perp_mem_tableMarkets, perp_mem_requestedMarkets, NeedsPerp]
  exact exists_access_iff _ _ _ _ _ _

/-- A spot market is added by index, read-only or writable, exactly when the instruction asks
for it. -/
theorem exists_spot_mem_resolvedMarkets (j : UInt16) :
    (∃ w, .spot j w ∈ resolvedMarkets r p table userSlot) ↔
      AsksSpot r p table userSlot j := by
  simp only [resolvedMarkets, List.mem_append, List.mem_flatMap, spot_mem_userMarkets,
    spot_mem_tableMarkets, spot_mem_requestedMarkets, AsksSpot]
  exact exists_access_iff _ _ _ _ _ _

/-- Only the writable perp indexes add a perp market writable. -/
theorem perp_true_mem_resolvedMarkets (i : UInt16) :
    .perp i true ∈ resolvedMarkets r p table userSlot ↔ i ∈ p.writablePerp := by
  simp [resolvedMarkets, perp_mem_userMarkets, perp_mem_tableMarkets, perp_mem_requestedMarkets]

/-- Only the writable spot indexes add a spot market writable. -/
theorem spot_true_mem_resolvedMarkets (j : UInt16) :
    .spot j true ∈ resolvedMarkets r p table userSlot ↔ j ∈ p.writableSpot := by
  simp [resolvedMarkets, spot_mem_userMarkets, spot_mem_tableMarkets, spot_mem_requestedMarkets]

end Resolved

/-- The addresses a list of market requests asks of bucket `t`: those that its perp markets, its
spot markets and the quote markets of its perp markets bring to it. -/
theorem kind_key_mem_requests (ms : List MarketRequest) (t : BucketKind) (k : Pubkey) :
    (∃ w, ⟨t, k, w⟩ ∈ ms.flatMap (·.requests r markets)) ↔
      (∃ i m, (∃ w, .perp i w ∈ ms) ∧ markets.perp i = some m ∧
        KindAddress .perp t m.pubkey m.oracle k) ∨
      (∃ j m, ((∃ w, .spot j w ∈ ms) ∨
          ∃ i mp, (∃ w, .perp i w ∈ ms) ∧ markets.perp i = some mp ∧
            mp.quoteSpotMarketIndex = j) ∧
        markets.spot j = some m ∧ KindAddress .spot t m.pubkey m.oracle k) := by
  constructor
  · rintro ⟨w', hq⟩
    obtain ⟨mr, hmr, hq⟩ := List.mem_flatMap.mp hq
    cases mr with
    | perp i w =>
      obtain ⟨m, hm, ha | ⟨mq, hmq, ha⟩⟩ :=
        (kind_key_mem_perpRequests r markets w i t k).mp ⟨w', hq⟩
      · exact .inl ⟨i, m, ⟨w, hmr⟩, hm, ha⟩
      · exact .inr ⟨_, mq, .inr ⟨i, m, ⟨w, hmr⟩, hm, rfl⟩, hmq, ha⟩
    | spot j w =>
      obtain ⟨m, hm, ha⟩ := (kind_key_mem_spotRequests markets w j t k).mp ⟨w', hq⟩
      exact .inr ⟨j, m, .inl ⟨w, hmr⟩, hm, ha⟩
  · rintro (⟨i, m, ⟨w, hi⟩, hm, ha⟩ |
      ⟨j, m, ⟨w, hj⟩ | ⟨i, mp, ⟨w, hi⟩, hmp, rfl⟩, hm, ha⟩)
    · obtain ⟨w', hq⟩ := (kind_key_mem_perpRequests r markets w i t k).mpr ⟨m, hm, .inl ha⟩
      exact ⟨w', List.mem_flatMap.mpr ⟨_, hi, hq⟩⟩
    · obtain ⟨w', hq⟩ := (kind_key_mem_spotRequests markets w j t k).mpr ⟨m, hm, ha⟩
      exact ⟨w', List.mem_flatMap.mpr ⟨_, hj, hq⟩⟩
    · obtain ⟨w', hq⟩ :=
        (kind_key_mem_perpRequests r markets w i t k).mpr ⟨mp, hmp, .inr ⟨m, hm, ha⟩⟩
      exact ⟨w', List.mem_flatMap.mpr ⟨_, hi, hq⟩⟩

/-- The addresses a list of market requests asks for: those of its perp markets, of its spot
markets, and of the quote markets of its perp markets. -/
theorem key_mem_requests (ms : List MarketRequest) (k : Pubkey) :
    (∃ q ∈ ms.flatMap (·.requests r markets), q.key = k) ↔
      (∃ i m, (∃ w, .perp i w ∈ ms) ∧ markets.perp i = some m ∧
        MarketAddress m.pubkey m.oracle k) ∨
      (∃ j m, ((∃ w, .spot j w ∈ ms) ∨
          ∃ i mp, (∃ w, .perp i w ∈ ms) ∧ markets.perp i = some mp ∧
            mp.quoteSpotMarketIndex = j) ∧
        markets.spot j = some m ∧ MarketAddress m.pubkey m.oracle k) := by
  have hkind : (∃ q ∈ ms.flatMap (·.requests r markets), q.key = k) ↔
      ∃ t w, (⟨t, k, w⟩ : Request) ∈ ms.flatMap (·.requests r markets) := by
    constructor
    · rintro ⟨⟨t, k', w⟩, hq, rfl⟩
      exact ⟨t, w, hq⟩
    · rintro ⟨t, w, hq⟩
      exact ⟨_, hq, rfl⟩
  simp only [hkind, kind_key_mem_requests, exists_or]
  apply or_congr
  · constructor
    · rintro ⟨t, i, m, hi, hm, ha⟩
      exact ⟨i, m, hi, hm, (exists_kindAddress .perp _ _ _).mp ⟨t, ha⟩⟩
    · rintro ⟨i, m, hi, hm, ha⟩
      obtain ⟨t, ha⟩ := (exists_kindAddress .perp _ _ _).mpr ha
      exact ⟨t, i, m, hi, hm, ha⟩
  · constructor
    · rintro ⟨t, j, m, hj, hm, ha⟩
      exact ⟨j, m, hj, hm, (exists_kindAddress .spot _ _ _).mp ⟨t, ha⟩⟩
    · rintro ⟨j, m, hj, hm, ha⟩
      obtain ⟨t, ha⟩ := (exists_kindAddress .spot _ _ _).mpr ha
      exact ⟨t, j, m, hj, hm, ha⟩

/-- A resolution that succeeds answers the entries of its buckets. -/
theorem resolve_eq_ok {p : RemainingParams} {table table' : SlotTable}
    {userSlot : Option UInt64} {metas : List AccountMeta}
    (h : r.resolve p markets table userSlot = (table', .ok metas)) :
    ∃ b, r.resolveBuckets p markets table userSlot = (table', .ok b) ∧ metas = b.metas := by
  unfold resolve at h
  cases hb : r.resolveBuckets p markets table userSlot with
  | mk t res =>
    rw [hb] at h
    cases res with
    | error e => simp [Except.map] at h
    | ok b =>
      simp only [Except.map, Prod.mk.injEq, Except.ok.injEq] at h
      obtain ⟨rfl, rfl⟩ := h
      exact ⟨b, rfl, rfl⟩

/-! ## 5. What a resolution lists, and what it writes -/

/-- **The accounts a resolution lists.** When a resolution succeeds, its remaining accounts hold
exactly the addresses of the markets the instruction needs — perp markets from the users' open
positions, from the table entries newer than the snapshot and from the requests; spot markets
likewise, with the quote market of each spot position with open orders and of each needed perp
market — and the oracles of those markets, never the no-oracle address. -/
theorem resolve_keys (r : Resolver) (p : RemainingParams) (markets : MarketLookup)
    (table table' : SlotTable) (userSlot : Option UInt64) (metas : List AccountMeta)
    (h : r.resolve p markets table userSlot = (table', .ok metas)) (k : Pubkey) :
    k ∈ metas.map (·.pubkey) ↔
      (∃ i m, NeedsPerp r p table userSlot i ∧ markets.perp i = some m ∧
        MarketAddress m.pubkey m.oracle k) ∨
      (∃ j m, NeedsSpot r p markets table userSlot j ∧ markets.spot j = some m ∧
        MarketAddress m.pubkey m.oracle k) := by
  obtain ⟨b, hb, rfl⟩ := resolve_eq_ok h
  rw [resolveBuckets_eq_ok hb, Buckets.mem_keys_metas_foldl_request, key_mem_requests]
  simp only [exists_perp_mem_resolvedMarkets, exists_spot_mem_resolvedMarkets]
  exact Iff.rfl

/-- A prelaunch perp market with its own oracle, quoted in spot market 0. -/
def prelaunchPerp : PerpMarket :=
  { (Inhabited.default : PerpMarket) with
    pubkey := Pubkey.ofBytes [1], oracle := Pubkey.ofBytes [2], oracleSource := .prelaunch }

/-- A quote spot market without an oracle. -/
def quoteSpot : SpotMarket := { (Inhabited.default : SpotMarket) with pubkey := Pubkey.ofBytes [3] }

/-- Perp market 1 and spot market 0, nothing else. -/
def prelaunchMarkets : MarketLookup :=
  ⟨fun i => if i = 1 then some prelaunchPerp else none,
    fun j => if j = 0 then some quoteSpot else none⟩

/-- An instruction creating its user that writes perp market 1. -/
def prelaunchParams : RemainingParams := ⟨[], [1], [], [], [], false, true⟩

/-- The oracle written, the quote market read, the perp market written. -/
def prelaunchMetas : List AccountMeta :=
  [⟨Pubkey.ofBytes [2], false, true⟩, ⟨Pubkey.ofBytes [3], false, false⟩,
    ⟨Pubkey.ofBytes [1], false, true⟩]

theorem resolve_keys_prelaunch :
    Resolver.default.resolve prelaunchParams prelaunchMarkets SlotTable.empty none =
        (SlotTable.empty, .ok prelaunchMetas) ∧
      (Pubkey.ofBytes [3] ∈ prelaunchMetas.map (·.pubkey) ↔
        (∃ i m, NeedsPerp Resolver.default prelaunchParams SlotTable.empty none i ∧
          prelaunchMarkets.perp i = some m ∧
          MarketAddress m.pubkey m.oracle (Pubkey.ofBytes [3])) ∨
        (∃ j m,
          NeedsSpot Resolver.default prelaunchParams prelaunchMarkets SlotTable.empty none j ∧
          prelaunchMarkets.spot j = some m ∧
          MarketAddress m.pubkey m.oracle (Pubkey.ofBytes [3]))) :=
  ⟨rfl, resolve_keys _ _ _ _ SlotTable.empty _ _ rfl _⟩

/-- **The accounts a resolution writes.** When a resolution succeeds, no entry is a signer, and
an entry is writable exactly when a writable request reached its address in its bucket: a perp
market of a writable perp index, a spot market of a writable spot index, the oracle of a
writable perp market that the oracle-writable rule accepts. Read-only requests for the same
address, before or after, change nothing. -/
theorem resolve_writable (r : Resolver) (p : RemainingParams) (markets : MarketLookup)
    (table table' : SlotTable) (userSlot : Option UInt64) (metas : List AccountMeta)
    (h : r.resolve p markets table userSlot = (table', .ok metas)) :
    ∃ b, r.resolveBuckets p markets table userSlot = (table', .ok b) ∧ metas = b.metas ∧
      (∀ m ∈ metas, m.isSigner = false) ∧
      (∀ m ∈ b.perpMarkets.metas, m.isWritable = true ↔
        ∃ i ∈ p.writablePerp, ∃ mk, markets.perp i = some mk ∧ mk.pubkey = m.pubkey) ∧
      (∀ m ∈ b.spotMarkets.metas, m.isWritable = true ↔
        ∃ j ∈ p.writableSpot, ∃ mk, markets.spot j = some mk ∧ mk.pubkey = m.pubkey) ∧
      (∀ m ∈ b.oracles.metas, m.isWritable = true ↔
        ∃ i ∈ p.writablePerp, ∃ mk, markets.perp i = some mk ∧ mk.oracle = m.pubkey ∧
          r.oracleWritable mk = true) := by
  obtain ⟨b, hb, rfl⟩ := resolve_eq_ok h
  have hfold := resolveBuckets_eq_ok hb
  refine ⟨b, hb, rfl, ?_, fun m hm => ?_, fun m hm => ?_, fun m hm => ?_⟩
  · rw [hfold]
    exact Buckets.isSigner_foldl_request _
  · rw [hfold] at hm
    rw [Buckets.isWritable_foldl_request _ .perp m hm, writable_perp_mem_requests]
    simp only [perp_true_mem_resolvedMarkets]
  · rw [hfold] at hm
    rw [Buckets.isWritable_foldl_request _ .spot m hm, writable_spot_mem_requests]
    simp only [spot_true_mem_resolvedMarkets]
  · rw [hfold] at hm
    -- an address in the oracle bucket was requested as an oracle, so it is not the no-oracle one
    have hkey : m.pubkey ≠ Program.noOracle := by
      obtain ⟨w, hq⟩ :=
        (Buckets.mem_keys_foldl_request _ .oracle m.pubkey).mp (List.mem_map_of_mem hm)
      exact ne_noOracle_of_oracle_mem_requests _ hq
    rw [Buckets.isWritable_foldl_request _ .oracle m hm, writable_oracle_mem_requests,
      and_iff_right hkey]
    simp only [perp_true_mem_resolvedMarkets]

theorem resolve_writable_prelaunch :
    Resolver.default.resolve prelaunchParams prelaunchMarkets SlotTable.empty none =
        (SlotTable.empty, .ok prelaunchMetas) ∧
      ∃ b, Resolver.default.resolveBuckets prelaunchParams prelaunchMarkets SlotTable.empty none =
          (SlotTable.empty, .ok b) ∧ prelaunchMetas = b.metas ∧
        (∀ m ∈ prelaunchMetas, m.isSigner = false) ∧
        (∀ m ∈ b.perpMarkets.metas, m.isWritable = true ↔
          ∃ i ∈ prelaunchParams.writablePerp, ∃ mk, prelaunchMarkets.perp i = some mk ∧
            mk.pubkey = m.pubkey) ∧
        (∀ m ∈ b.spotMarkets.metas, m.isWritable = true ↔
          ∃ j ∈ prelaunchParams.writableSpot, ∃ mk, prelaunchMarkets.spot j = some mk ∧
            mk.pubkey = m.pubkey) ∧
        (∀ m ∈ b.oracles.metas, m.isWritable = true ↔
          ∃ i ∈ prelaunchParams.writablePerp, ∃ mk, prelaunchMarkets.perp i = some mk ∧
            mk.oracle = m.pubkey ∧ Resolver.default.oracleWritable mk = true) :=
  ⟨rfl, resolve_writable _ _ _ _ _ _ _ rfl⟩

end PerpClient.Resolver
