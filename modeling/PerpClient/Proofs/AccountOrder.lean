import Mathlib.Data.List.Induction
import Mathlib.Data.List.Nodup
import PerpClient.Proofs.RemainingAccounts
/-!
# The order of the remaining accounts, and when an address is listed twice

The program finds the remaining accounts by offset, so their order is part of the contract. A
resolution that succeeds lists the oracle bucket, then the spot-market bucket, then the
perp-market bucket. Each bucket lists its addresses in the order the traversal
(`resolvedMarkets`, request by request: `resolvedRequests`) first asks for them; a later request
for an address already listed never moves it. That is `List.eraseDups`, which keeps first
occurrences. The table's markets come in ascending index order, because a table keeps each side
sorted.

No address repeats within a bucket. Nothing compares addresses across buckets, though. An
address that belongs to both a spot market and a perp market, or to an oracle and a market, is
listed once in each bucket it belongs to.

* `resolve_order`: the three groups, and the order within each;
* `resolve_nodup_iff`: each group lists its bucket's addresses once, so an address is listed
  once per bucket it belongs to, and the whole list repeats none exactly when no address
  belongs to two buckets;
* `resolve_lists_shared_address_twice`: a perp market and its quote spot market that share one
  address are both listed.
-/

namespace PerpClient

/-! ## 1. A bucket lists each address once, where it was first requested -/

theorem appendNew_cons {α : Type} [DecidableEq α] (xs : List α) (y : α) (ys : List α) :
    appendNew xs (y :: ys) = appendNew (if y ∈ xs then xs else xs ++ [y]) ys := rfl

theorem appendNew_append {α : Type} [DecidableEq α] (xs ys zs : List α) :
    appendNew xs (ys ++ zs) = appendNew (appendNew xs ys) zs :=
  List.foldl_append

/-- Starting from nothing, appending each entry not yet listed removes the repeats of a list
and keeps every entry at its first place. -/
theorem appendNew_nil_eq_eraseDups {α : Type} [DecidableEq α] (ys : List α) :
    appendNew [] ys = ys.eraseDups := by
  induction ys using List.reverseRecOn with
  | nil => rfl
  | append_singleton ys y ih =>
    rw [appendNew_append, ih, appendNew_cons, List.eraseDups_append]
    by_cases hy : y ∈ ys
    · simp [appendNew, hy, List.mem_eraseDups, List.removeAll]
    · simp [appendNew, hy, List.mem_eraseDups, List.removeAll, List.eraseDups_cons]

/-- Appending only entries not yet listed keeps a list free of repeats. -/
theorem nodup_appendNew {α : Type} [DecidableEq α] {xs : List α} (h : xs.Nodup) (ys : List α) :
    (appendNew xs ys).Nodup := by
  induction ys generalizing xs with
  | nil => exact h
  | cons y ys ih =>
    rw [appendNew_cons]
    apply ih
    split
    · exact h
    · rename_i hy
      refine List.nodup_append.mpr ⟨h, by simp, ?_⟩
      rintro a ha b hb rfl
      exact hy (List.mem_singleton.mp hb ▸ ha)

/-- **The run lemma of one bucket**: after more requests, a bucket's addresses are the old ones
followed by each newly requested address once, in the order first requested. -/
theorem Bucket.keys_foldl_add (qs : List (Pubkey × Bool)) {b : Bucket} (hb : b.Indexed) :
    (qs.foldl (fun b e => b.add e.1 e.2) b).metas.map (·.pubkey) =
      appendNew (b.metas.map (·.pubkey)) (qs.map Prod.fst) := by
  induction qs generalizing b with
  | nil => rfl
  | cons q qs ih =>
    rw [List.foldl_cons, ih (hb.add q.1 q.2), hb.add_keys, List.map_cons, appendNew_cons]

/-- Appending the entries not listed yet keeps what was listed in front. -/
theorem appendNew_extends {α : Type} [DecidableEq α] (xs ys : List α) : xs <+: appendNew xs ys := by
  induction ys generalizing xs with
  | nil => exact ⟨[], List.append_nil xs⟩
  | cons y ys ih =>
    rw [appendNew_cons]
    refine List.IsPrefix.trans ?_ (ih _)
    split
    · exact ⟨[], List.append_nil xs⟩
    · exact ⟨[y], rfl⟩

/-- **A bucket through any sequence of additions.** Adding the requests in order to an empty
bucket, its index sends each address to the place of its one entry and to nothing else, and has
as many keys, none twice, as the bucket has entries. The entries list each requested address
once, in the order first requested: an addition appends only an address not listed yet, and no
entry ever moves, since the addresses listed after part of the requests lead those listed after
all of them. An entry is writable exactly when some addition of its address asked for it. -/
theorem Bucket.foldl_add_contract (reqs : List (Pubkey × Bool)) :
    let b := reqs.foldl (fun b e => b.add e.1 e.2) Bucket.empty
    (∀ k i, b.position? k = some i ↔ (b.metas[i]?).map (·.pubkey) = some k) ∧
      (b.positions.map Prod.fst).Nodup ∧ b.positions.length = b.metas.length ∧
      (b.metas.map (·.pubkey)).Nodup ∧
      b.metas.map (·.pubkey) = (reqs.map Prod.fst).eraseDups ∧
      (∀ pre post, reqs = pre ++ post →
        (pre.foldl (fun b e => b.add e.1 e.2) Bucket.empty).metas.map (·.pubkey) <+:
          b.metas.map (·.pubkey)) ∧
      (∀ m ∈ b.metas, m.isWritable = reqs.any fun q => decide (q.1 = m.pubkey) && q.2) := by
  intro b
  have hidx : b.Indexed := indexed_empty.foldl reqs
  have htracks := tracks_empty.foldl reqs
  refine ⟨hidx.position?_eq_some_iff, ?_, ?_, hidx.nodup, ?_, ?_, fun m hm => ?_⟩
  · rw [hidx.positions_eq, List.zipIdx_map_fst]
    exact hidx.nodup
  · rw [hidx.positions_eq, List.length_zipIdx, List.length_map]
  · rw [keys_foldl_add reqs indexed_empty, ← appendNew_nil_eq_eraseDups]
    rfl
  · -- the later requests only append to what the earlier ones listed
    intro pre post hsplit
    have hrun : b = post.foldl (fun b e => b.add e.1 e.2)
        (pre.foldl (fun b e => b.add e.1 e.2) Bucket.empty) := by
      rw [← List.foldl_append, ← hsplit]
    rw [hrun, keys_foldl_add post (indexed_empty.foldl pre)]
    exact appendNew_extends _ _
  · have hw := htracks.writable m hm
    rw [List.nil_append] at hw
    rw [Bool.eq_iff_iff, hw, List.any_eq_true]
    constructor
    · intro h
      exact ⟨_, h, by simp⟩
    · rintro ⟨⟨k, w⟩, hq, hkw⟩
      simp only [Bool.and_eq_true, decide_eq_true_eq] at hkw
      obtain ⟨rfl, rfl⟩ := hkw
      exact hq

namespace Buckets

theorem bucket_empty (t : BucketKind) : empty.bucket t = Bucket.empty := by
  cases t <;> rfl

/-- A bucket filled by a list of requests lists the addresses requested of it, each once, in the
order first requested. -/
theorem keys_foldl_request (qs : List Request) (t : BucketKind) :
    ((qs.foldl request empty).bucket t).metas.map (·.pubkey) =
      ((Request.forKind t qs).map Prod.fst).eraseDups := by
  rw [bucket_foldl_request, bucket_empty, Bucket.keys_foldl_add _ Bucket.indexed_empty,
    ← appendNew_nil_eq_eraseDups]
  rfl

/-- No bucket filled by requests lists an address twice. -/
theorem nodup_keys_foldl_request (qs : List Request) (t : BucketKind) :
    (((qs.foldl request empty).bucket t).metas.map (·.pubkey)).Nodup := by
  rw [bucket_foldl_request, bucket_empty, Bucket.keys_foldl_add _ Bucket.indexed_empty]
  exact nodup_appendNew List.nodup_nil _

/-- Three buckets that each list an address at most once list no address twice in all exactly
when no address is in two of them. -/
theorem nodup_metas_iff (b : Buckets)
    (hn : ∀ t, ((b.bucket t).metas.map (·.pubkey)).Nodup) :
    (b.metas.map (·.pubkey)).Nodup ↔
      ∀ k t t', k ∈ (b.bucket t).metas.map (·.pubkey) →
        k ∈ (b.bucket t').metas.map (·.pubkey) → t = t' := by
  have ho := hn .oracle
  have hs := hn .spot
  have hp := hn .perp
  rw [metas_eq, List.map_append, List.map_append, List.nodup_append, List.nodup_append]
  simp only [ho, hs, hp, List.mem_append, true_and]
  constructor
  · -- two different buckets holding `k` contradict one of the three disjointness facts
    rintro ⟨hos, hsp⟩ k t t' hk hk'
    cases t <;> cases t'
    all_goals first
      | rfl
      | exact absurd rfl (hos k hk k hk')
      | exact absurd rfl (hos k hk' k hk)
      | exact absurd rfl (hsp k (.inl hk) k hk')
      | exact absurd rfl (hsp k (.inl hk') k hk)
      | exact absurd rfl (hsp k (.inr hk) k hk')
      | exact absurd rfl (hsp k (.inr hk') k hk)
  · intro h
    refine ⟨fun k hk k' hk' e => ?_, fun k hk k' hk' e => ?_⟩
    · subst e
      exact nomatch h k .oracle .spot hk hk'
    · subst e
      rcases hk with hk | hk
      · exact nomatch h k .oracle .perp hk hk'
      · exact nomatch h k .spot .perp hk hk'

end Buckets

/-! ## 2. The table lists its markets in ascending index order -/

namespace SlotTable

/-- The indexes that remain after an eviction come out ascending, as the table lists them. -/
theorem retainNewerThan_ascending (t : SlotTable) (slot : UInt64) :
    (t.retainNewerThan slot).2.1.Pairwise (· < ·) ∧
      (t.retainNewerThan slot).2.2.Pairwise (· < ·) :=
  ⟨List.pairwise_map.mpr (t.perp_ascending.filter _),
    List.pairwise_map.mpr (t.spot_ascending.filter _)⟩

end SlotTable

/-! ## 3. The order of a resolution -/

namespace Resolver

/-- The address requests of a resolution, in the order of its traversal: market by market along
`resolvedMarkets`, each market's own address, then its oracle, then, for a perp market, those of
its quote spot market. -/
def resolvedRequests (r : Resolver) (p : RemainingParams) (markets : MarketLookup)
    (table : SlotTable) (userSlot : Option UInt64) : List Request :=
  (resolvedMarkets r p table userSlot).flatMap (·.requests r markets)

/-- The table's markets come perps first, then spots, each in ascending index order. -/
theorem tableMarkets_ascending (p : RemainingParams) (table : SlotTable)
    (userSlot : Option UInt64) :
    ∃ perps spots : List UInt16,
      tableMarkets p table userSlot = perps.map (.perp · false) ++ spots.map (.spot · false) ∧
        perps.Pairwise (· < ·) ∧ spots.Pairwise (· < ·) := by
  unfold tableMarkets
  split
  · rename_i slot _ _
    obtain ⟨hp, hs⟩ := table.retainNewerThan_ascending slot
    exact ⟨_, _, rfl, hp, hs⟩
  · exact ⟨[], [], rfl, .nil, .nil⟩

/-- **The order of the remaining accounts.** A resolution that succeeds lists an oracle group,
then a spot-market group, then a perp-market group. Each group lists the addresses its bucket is
asked for, in the order the traversal first asks for them, so a later request never moves an
entry. The traversal goes through the users' open positions, then the table's markets, then the
requested ones (`resolvedMarkets`). The table's markets come perps first, then spots, each in
ascending index order. -/
theorem resolve_order (r : Resolver) (p : RemainingParams) (markets : MarketLookup)
    (table table' : SlotTable) (userSlot : Option UInt64) (metas : List AccountMeta)
    (h : r.resolve p markets table userSlot = (table', .ok metas)) :
    (∃ oracles spots perps : List AccountMeta, metas = oracles ++ spots ++ perps ∧
      oracles.map (·.pubkey) = ((Request.forKind .oracle
        (resolvedRequests r p markets table userSlot)).map Prod.fst).eraseDups ∧
      spots.map (·.pubkey) = ((Request.forKind .spot
        (resolvedRequests r p markets table userSlot)).map Prod.fst).eraseDups ∧
      perps.map (·.pubkey) = ((Request.forKind .perp
        (resolvedRequests r p markets table userSlot)).map Prod.fst).eraseDups) ∧
    (∃ perpIndexes spotIndexes : List UInt16,
      tableMarkets p table userSlot =
        perpIndexes.map (.perp · false) ++ spotIndexes.map (.spot · false) ∧
      perpIndexes.Pairwise (· < ·) ∧ spotIndexes.Pairwise (· < ·)) := by
  obtain ⟨b, hb, rfl⟩ := resolve_eq_ok h
  have hfold := resolveBuckets_eq_ok hb
  refine ⟨⟨b.oracles.metas, b.spotMarkets.metas, b.perpMarkets.metas, rfl, ?_, ?_, ?_⟩,
    tableMarkets_ascending p table userSlot⟩
  · rw [hfold]
    exact Buckets.keys_foldl_request _ .oracle
  · rw [hfold]
    exact Buckets.keys_foldl_request _ .spot
  · rw [hfold]
    exact Buckets.keys_foldl_request _ .perp

theorem resolve_order_prelaunch :
    Resolver.default.resolve prelaunchParams prelaunchMarkets SlotTable.empty none =
        (SlotTable.empty, .ok prelaunchMetas) ∧
      (∃ oracles spots perps : List AccountMeta, prelaunchMetas = oracles ++ spots ++ perps ∧
        oracles.map (·.pubkey) = ((Request.forKind .oracle (resolvedRequests Resolver.default
          prelaunchParams prelaunchMarkets SlotTable.empty none)).map Prod.fst).eraseDups ∧
        spots.map (·.pubkey) = ((Request.forKind .spot (resolvedRequests Resolver.default
          prelaunchParams prelaunchMarkets SlotTable.empty none)).map Prod.fst).eraseDups ∧
        perps.map (·.pubkey) = ((Request.forKind .perp (resolvedRequests Resolver.default
          prelaunchParams prelaunchMarkets SlotTable.empty none)).map Prod.fst).eraseDups) ∧
      (∃ perpIndexes spotIndexes : List UInt16,
        tableMarkets prelaunchParams SlotTable.empty none =
          perpIndexes.map (.perp · false) ++ spotIndexes.map (.spot · false) ∧
        perpIndexes.Pairwise (· < ·) ∧ spotIndexes.Pairwise (· < ·)) :=
  ⟨rfl, resolve_order _ _ _ _ _ _ _ rfl⟩

/-! ## 4. Which addresses a resolution lists twice -/

variable {r : Resolver} {markets : MarketLookup}

/-- The addresses of bucket `t` for an instruction: those the markets it needs bring to `t`. The
perp markets it needs bring their own addresses and oracles. The spot markets it needs, quote
markets included, bring theirs. -/
def BucketAddress (r : Resolver) (p : RemainingParams) (markets : MarketLookup)
    (table : SlotTable) (userSlot : Option UInt64) (t : BucketKind) (k : Pubkey) : Prop :=
  (∃ i m, NeedsPerp r p table userSlot i ∧ markets.perp i = some m ∧
      KindAddress .perp t m.pubkey m.oracle k) ∨
    ∃ j m, NeedsSpot r p markets table userSlot j ∧ markets.spot j = some m ∧
      KindAddress .spot t m.pubkey m.oracle k

/-- The group of bucket `t` in a resolution that succeeds: the bucket the traversal's requests
fill. -/
def requestedGroup (r : Resolver) (p : RemainingParams) (markets : MarketLookup)
    (table : SlotTable) (userSlot : Option UInt64) (t : BucketKind) : List AccountMeta :=
  (((resolvedRequests r p markets table userSlot).foldl Buckets.request Buckets.empty).bucket t).metas

/-- The addresses bucket `t` is asked for along the traversal, each once, in the order first
asked: the addresses of its group. -/
def requestedKeys (r : Resolver) (p : RemainingParams) (markets : MarketLookup)
    (table : SlotTable) (userSlot : Option UInt64) (t : BucketKind) : List Pubkey :=
  ((Request.forKind t (resolvedRequests r p markets table userSlot)).map Prod.fst).eraseDups

section RequestedKeys

variable {p : RemainingParams} {table : SlotTable} {userSlot : Option UInt64} {t : BucketKind}
  {k : Pubkey}

theorem requestedKeys_eq_bucket_keys :
    requestedKeys r p markets table userSlot t =
      (requestedGroup r p markets table userSlot t).map (·.pubkey) :=
  (Buckets.keys_foldl_request _ t).symm

theorem mem_requestedKeys_iff :
    k ∈ requestedKeys r p markets table userSlot t ↔ BucketAddress r p markets table userSlot t k := by
  rw [requestedKeys_eq_bucket_keys, requestedGroup, Buckets.mem_keys_foldl_request,
    resolvedRequests, kind_key_mem_requests]
  simp only [exists_perp_mem_resolvedMarkets, exists_spot_mem_resolvedMarkets]
  exact Iff.rfl

theorem nodup_requestedKeys : (requestedKeys r p markets table userSlot t).Nodup := by
  rw [requestedKeys_eq_bucket_keys]
  exact Buckets.nodup_keys_foldl_request _ t

open Classical in
/-- A bucket's group lists each of its addresses once, and no other. -/
theorem count_requestedKeys :
    (requestedKeys r p markets table userSlot t).count k =
      if BucketAddress r p markets table userSlot t k then 1 else 0 := by
  by_cases hk : BucketAddress r p markets table userSlot t k
  · rw [if_pos hk]
    exact List.count_eq_one_of_mem nodup_requestedKeys (mem_requestedKeys_iff.mpr hk)
  · rw [if_neg hk, List.count_eq_zero]
    exact fun hm => hk (mem_requestedKeys_iff.mp hm)

end RequestedKeys

/-- A resolution that succeeds holds in each bucket the bucket's group. -/
theorem bucket_eq_requestedGroup {p : RemainingParams} {table table' : SlotTable}
    {userSlot : Option UInt64} {b : Buckets}
    (h : r.resolveBuckets p markets table userSlot = (table', .ok b)) (t : BucketKind) :
    (b.bucket t).metas = requestedGroup r p markets table userSlot t := by
  rw [resolveBuckets_eq_ok h]
  rfl

open Classical in
/-- **Repeated addresses.** A resolution that succeeds lists the oracle group, then the
spot-market group, then the perp-market group, and each group lists each address of its bucket
once and no other. Nothing compares addresses across buckets: an address is listed once for each
bucket it belongs to, so the whole list is free of repeats exactly when no address belongs to two
buckets. An oracle's address equal to a market's, or a spot market's equal to a perp market's,
is listed twice. -/
theorem resolve_nodup_iff (r : Resolver) (p : RemainingParams) (markets : MarketLookup)
    (table table' : SlotTable) (userSlot : Option UInt64) (metas : List AccountMeta)
    (h : r.resolve p markets table userSlot = (table', .ok metas)) :
    metas = requestedGroup r p markets table userSlot .oracle ++
        requestedGroup r p markets table userSlot .spot ++
        requestedGroup r p markets table userSlot .perp ∧
    (∀ t k, ((requestedGroup r p markets table userSlot t).map (·.pubkey)).count k =
      if BucketAddress r p markets table userSlot t k then 1 else 0) ∧
    (∀ k, (metas.map (·.pubkey)).count k =
      (if BucketAddress r p markets table userSlot .oracle k then 1 else 0) +
        (if BucketAddress r p markets table userSlot .spot k then 1 else 0) +
        (if BucketAddress r p markets table userSlot .perp k then 1 else 0)) ∧
    ((metas.map (·.pubkey)).Nodup ↔
      ∀ k t t', BucketAddress r p markets table userSlot t k →
        BucketAddress r p markets table userSlot t' k → t = t') := by
  obtain ⟨b, hb, rfl⟩ := resolve_eq_ok h
  have hgroup := bucket_eq_requestedGroup hb
  have hcount : ∀ t k, ((requestedGroup r p markets table userSlot t).map (·.pubkey)).count k =
      if BucketAddress r p markets table userSlot t k then 1 else 0 := fun t k => by
    rw [← requestedKeys_eq_bucket_keys, count_requestedKeys]
  have hn : ∀ t, ((b.bucket t).metas.map (·.pubkey)).Nodup := fun t => by
    rw [hgroup, ← requestedKeys_eq_bucket_keys]
    exact nodup_requestedKeys
  refine ⟨by rw [Buckets.metas_eq, hgroup, hgroup, hgroup], hcount, fun k => ?_, ?_⟩
  · rw [Buckets.metas_eq, List.map_append, List.map_append, List.count_append, List.count_append,
      hgroup, hgroup, hgroup, hcount, hcount, hcount]
  · rw [Buckets.nodup_metas_iff b hn]
    simp only [hgroup, ← requestedKeys_eq_bucket_keys, mem_requestedKeys_iff]

/-- A perp market whose address is also its quote spot market's; neither has an oracle. -/
def sharedAddressPerp : PerpMarket :=
  { (Inhabited.default : PerpMarket) with pubkey := Pubkey.ofBytes [1], marketIndex := 1 }

/-- The quote spot market, at the perp market's address. -/
def sharedAddressSpot : SpotMarket :=
  { (Inhabited.default : SpotMarket) with pubkey := Pubkey.ofBytes [1] }

/-- Perp market 1 and spot market 0 at one address, nothing else. -/
def sharedAddressMarkets : MarketLookup :=
  ⟨fun i => if i = 1 then some sharedAddressPerp else none,
    fun j => if j = 0 then some sharedAddressSpot else none⟩

/-- The quote market read, the perp market written: one address twice. -/
def sharedAddressMetas : List AccountMeta :=
  [⟨Pubkey.ofBytes [1], false, false⟩, ⟨Pubkey.ofBytes [1], false, true⟩]

/-- Writing a perp market whose quote spot market shares its address lists that address twice,
once in each market bucket. -/
theorem resolve_lists_shared_address_twice :
    Resolver.default.resolve prelaunchParams sharedAddressMarkets SlotTable.empty none =
        (SlotTable.empty, .ok sharedAddressMetas) ∧
      ¬(sharedAddressMetas.map (·.pubkey)).Nodup :=
  ⟨rfl, by decide⟩

open Classical in
theorem resolve_nodup_iff_sharedAddress :
    Resolver.default.resolve prelaunchParams sharedAddressMarkets SlotTable.empty none =
        (SlotTable.empty, .ok sharedAddressMetas) ∧
      sharedAddressMetas =
        requestedGroup Resolver.default prelaunchParams sharedAddressMarkets SlotTable.empty none
            .oracle ++
          requestedGroup Resolver.default prelaunchParams sharedAddressMarkets SlotTable.empty none
            .spot ++
          requestedGroup Resolver.default prelaunchParams sharedAddressMarkets SlotTable.empty none
            .perp ∧
      (∀ t k, ((requestedGroup Resolver.default prelaunchParams sharedAddressMarkets
          SlotTable.empty none t).map (·.pubkey)).count k =
        if BucketAddress Resolver.default prelaunchParams sharedAddressMarkets SlotTable.empty
          none t k then 1 else 0) ∧
      (∀ k, (sharedAddressMetas.map (·.pubkey)).count k =
        (if BucketAddress Resolver.default prelaunchParams sharedAddressMarkets SlotTable.empty
            none .oracle k then 1 else 0) +
          (if BucketAddress Resolver.default prelaunchParams sharedAddressMarkets SlotTable.empty
            none .spot k then 1 else 0) +
          (if BucketAddress Resolver.default prelaunchParams sharedAddressMarkets SlotTable.empty
            none .perp k then 1 else 0)) ∧
      ((sharedAddressMetas.map (·.pubkey)).Nodup ↔
        ∀ k t t',
          BucketAddress Resolver.default prelaunchParams sharedAddressMarkets SlotTable.empty
            none t k →
          BucketAddress Resolver.default prelaunchParams sharedAddressMarkets SlotTable.empty
            none t' k → t = t') :=
  ⟨rfl, resolve_nodup_iff _ _ _ _ _ _ _ rfl⟩

end Resolver

end PerpClient
