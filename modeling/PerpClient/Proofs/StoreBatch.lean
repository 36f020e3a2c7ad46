import PerpClient.Proofs.CacheHistory
import PerpClient.Store.AccountStore
/-!
# Applying a batch of raw accounts to the account store

A batch read at one slot is decoded entry by entry. An entry with bytes is decoded from them,
an entry without bytes is decoded from no bytes when it is the quote asset's oracle (priced
without a feed account) and is missing otherwise; an entry that does not decode is a failure.
Everything that decoded is then written to the cache as one batch at the batch's slot.

The store's loop keeps three lists at once; `decodeBatch_eq` shows they are the decoded, the
missing and the failed entries of the batch, each in batch order (`decodeEntry`,
`missingAddress`, `entryFailure`). `untrackedOracles_spec` shows the discovered oracles are the
untracked oracles of the decoded markets, each once. `applyBatch_contract` puts it together with
the cache's own laws (`Proofs.CacheHistory`), for any decoder.
-/

namespace PerpClient

/-! ## 1. Loops that collect -/

theorem toList_append_filterMap {α β : Type} (g : α → Option β) (a : α) (as : List α) :
    (g a).toList ++ as.filterMap g = (a :: as).filterMap g := by
  rw [List.filterMap_cons]
  cases g a <;> rfl

/-- A loop that appends what each entry gives to three lists builds the entries' three
`filterMap`s, in order. -/
theorem foldl_eq_filterMap₃ {α β γ δ : Type}
    (f : List β × List γ × List δ → α → List β × List γ × List δ)
    (g₁ : α → Option β) (g₂ : α → Option γ) (g₃ : α → Option δ)
    (hf : ∀ acc a, f acc a =
      (acc.1 ++ (g₁ a).toList, acc.2.1 ++ (g₂ a).toList, acc.2.2 ++ (g₃ a).toList))
    (as : List α) (acc : List β × List γ × List δ) :
    as.foldl f acc =
      (acc.1 ++ as.filterMap g₁, acc.2.1 ++ as.filterMap g₂, acc.2.2 ++ as.filterMap g₃) := by
  induction as generalizing acc with
  | nil => simp
  | cons a rest ih =>
    rw [List.foldl_cons, hf, ih]
    simp only [List.append_assoc, toList_append_filterMap]

/-- One step of such a loop appends the item it picks when the item is eligible and new. -/
theorem collect_step {α β : Type} [DecidableEq β] {f : List β → α → List β}
    {pick : α → Option β} {ok : β → Prop} [DecidablePred ok]
    (hnone : ∀ found a, pick a = none → f found a = found)
    (hsome : ∀ found a o, pick a = some o →
      f found a = if ok o ∧ o ∉ found then found ++ [o] else found)
    (a : α) {found : List β} (hnd : found.Nodup) :
    (f found a).Nodup ∧ ∀ x, x ∈ f found a ↔ x ∈ found ∨ pick a = some x ∧ ok x := by
  cases hp : pick a with
  | none =>
    rw [hnone found a hp]
    simp [hnd]
  | some o =>
    rw [hsome found a o hp]
    by_cases hok : ok o ∧ o ∉ found
    · rw [if_pos hok]
      have hnew : ∀ b ∈ found, ∀ c ∈ [o], b ≠ c := by
        rintro b hb c hc rfl
        exact hok.2 (List.mem_singleton.mp hc ▸ hb)
      refine ⟨List.nodup_append.mpr ⟨hnd, List.pairwise_singleton _ o, hnew⟩, fun x => ?_⟩
      simp only [List.mem_append, List.mem_singleton, Option.some.injEq]
      constructor
      · rintro (hx | rfl)
        · exact .inl hx
        · exact .inr ⟨rfl, hok.1⟩
      · rintro (hx | ⟨rfl, -⟩)
        · exact .inl hx
        · exact .inr rfl
    · rw [if_neg hok]
      refine ⟨hnd, fun x => ⟨.inl, ?_⟩⟩
      rintro (hx | ⟨hx, hokx⟩)
      · exact hx
      · rw [Option.some.injEq] at hx
        subst hx
        exact Decidable.byContradiction fun hn => hok ⟨hokx, hn⟩

/-- A loop that appends each eligible item it has not collected yet collects every eligible
item exactly once. -/
theorem foldl_collect {α β : Type} [DecidableEq β] (f : List β → α → List β)
    (pick : α → Option β) (ok : β → Prop) [DecidablePred ok]
    (hnone : ∀ found a, pick a = none → f found a = found)
    (hsome : ∀ found a o, pick a = some o →
      f found a = if ok o ∧ o ∉ found then found ++ [o] else found)
    (as : List α) (found : List β) (hnd : found.Nodup) :
    (as.foldl f found).Nodup ∧
      ∀ x, x ∈ as.foldl f found ↔ x ∈ found ∨ ∃ a ∈ as, pick a = some x ∧ ok x := by
  induction as generalizing found with
  | nil => simp [hnd]
  | cons a rest ih =>
    rw [List.foldl_cons]
    obtain ⟨hnd₁, hmem₁⟩ := collect_step hnone hsome a hnd
    obtain ⟨hnd', hmem⟩ := ih (f found a) hnd₁
    refine ⟨hnd', fun x => ?_⟩
    rw [hmem, hmem₁]
    simp only [List.mem_cons, or_and_right, exists_or, exists_eq_left, or_assoc]

/-! ## 2. The entries of a batch -/

namespace AccountStore

/-- A raw account of a batch: its address, the layout it holds, and its bytes if it exists. -/
abbrev RawAccount := Pubkey × AccountKind × Option (List UInt8)

/-- The account an entry decodes to, with its address; none when it is missing or fails. -/
def decodeEntry (dec : AccountDecoder) (a : RawAccount) : Option (Pubkey × DecodedAccount) :=
  (entryBytes a.2.1 a.2.2).bind fun d => (dec.decode a.2.1 d).toOption.map (a.1, ·)

/-- The failure of an entry whose bytes do not decode. -/
def entryFailure (dec : AccountDecoder) (a : RawAccount) : Option DecodeFailure :=
  (entryBytes a.2.1 a.2.2).bind fun d =>
    match dec.decode a.2.1 d with
    | .ok _ => none
    | .error e => some ⟨a.1, a.2.1, e⟩

/-- The address of an entry with no bytes that is not the quote asset's oracle. -/
def missingAddress (a : RawAccount) : Option Pubkey :=
  if a.2.2 = none ∧ a.2.1 ≠ .oracle .quoteAsset then some a.1 else none

theorem entryBytes_eq_none (kind : AccountKind) (data? : Option (List UInt8)) :
    entryBytes kind data? = none ↔ data? = none ∧ kind ≠ .oracle .quoteAsset := by
  cases data? with
  | some d => simp [entryBytes]
  | none =>
    by_cases hq : kind = .oracle .quoteAsset
    · simp [entryBytes, hq]
    · simp [entryBytes, hq]

/-- An entry is missing exactly when it has no bytes to decode. -/
theorem missingAddress_eq (a : RawAccount) :
    missingAddress a = if entryBytes a.2.1 a.2.2 = none then some a.1 else none := by
  unfold missingAddress
  simp only [entryBytes_eq_none]

theorem fst_of_decodeEntry {dec : AccountDecoder} {a : RawAccount} {e : Pubkey × DecodedAccount}
    (h : decodeEntry dec a = some e) : e.1 = a.1 := by
  unfold decodeEntry at h
  obtain ⟨d, -, h⟩ := Option.bind_eq_some_iff.mp h
  obtain ⟨acct, -, rfl⟩ := Option.map_eq_some_iff.mp h
  rfl

/-- **One entry of the loop**: it is decoded, missing or a failure, and goes to that list. -/
theorem decodeStep_eq (dec : AccountDecoder)
    (acc : List (Pubkey × DecodedAccount) × List Pubkey × List DecodeFailure) (a : RawAccount) :
    decodeStep dec acc a =
      (acc.1 ++ (decodeEntry dec a).toList, acc.2.1 ++ (missingAddress a).toList,
        acc.2.2 ++ (entryFailure dec a).toList) := by
  obtain ⟨k, kind, data?⟩ := a
  unfold decodeStep decodeEntry entryFailure
  rw [missingAddress_eq]
  dsimp only
  cases entryBytes kind data? with
  | none => simp
  | some d => cases hd : dec.decode kind d <;> simp [hd, Except.toOption]

/-- **The loop**: a batch decodes into its decoded, missing and failed entries, each in batch
order. -/
theorem decodeBatch_eq (dec : AccountDecoder) (accounts : List RawAccount) :
    decodeBatch dec accounts = (accounts.filterMap (decodeEntry dec),
      accounts.filterMap missingAddress, accounts.filterMap (entryFailure dec)) := by
  unfold decodeBatch
  rw [foldl_eq_filterMap₃ _ _ _ _ (decodeStep_eq dec)]
  simp

/-- An entry decodes to nothing exactly when it is missing or fails. -/
theorem decodeEntry_eq_none_iff (dec : AccountDecoder) (a : RawAccount) :
    decodeEntry dec a = none ↔ (missingAddress a).isSome ∨ (entryFailure dec a).isSome := by
  obtain ⟨k, kind, data?⟩ := a
  unfold decodeEntry entryFailure
  rw [missingAddress_eq]
  dsimp only
  cases entryBytes kind data? with
  | none => simp
  | some d => cases hd : dec.decode kind d <;> simp [hd, Except.toOption]

/-! ## 3. The oracles a batch discovers -/

/-- An oracle is untracked when no tracked oracle has its address, whatever the feed. -/
theorem not_contains_oracles_iff (s : AccountStore) (k : Pubkey) :
    (!Ordered.contains Pubkey.compareBytes k s.tracked.oracles) = true ↔
      ∀ src, (k, src) ∉ s.tracked.oracles := by
  rw [Bool.not_eq_true', ← Bool.not_eq_true, Ordered.contains_iff]
  constructor
  · intro h src hp
    exact h ⟨(k, src), hp, (Pubkey.compareBytes_eq_eq_iff k k).mpr rfl⟩
  · rintro h ⟨⟨k', src⟩, hp, hk⟩
    obtain rfl := (Pubkey.compareBytes_eq_eq_iff k k').mp hk
    exact h src hp

theorem addUntracked_of_none (s : AccountStore) (found : List OracleInfo)
    (e : Pubkey × DecodedAccount) (h : marketOracle e.2 = none) :
    s.addUntracked found e = found := by
  unfold addUntracked
  rw [h]

theorem addUntracked_of_some (s : AccountStore) (found : List OracleInfo)
    (e : Pubkey × DecodedAccount) (o : OracleInfo) (h : marketOracle e.2 = some o) :
    s.addUntracked found e =
      if (o.pubkey ≠ Program.noOracle ∧
          (!Ordered.contains Pubkey.compareBytes o.pubkey s.tracked.oracles) = true) ∧ o ∉ found
        then found ++ [o] else found := by
  unfold addUntracked
  rw [h]
  simp only [and_assoc]

/-- The oracles a batch discovers are the real, untracked oracles of its decoded markets, each
once. -/
theorem untrackedOracles_spec (s : AccountStore) (decoded : List (Pubkey × DecodedAccount)) :
    (s.untrackedOracles decoded).Nodup ∧ ∀ o, o ∈ s.untrackedOracles decoded ↔
      ∃ e ∈ decoded, marketOracle e.2 = some o ∧ o.pubkey ≠ Program.noOracle ∧
        ∀ src, (o.pubkey, src) ∉ s.tracked.oracles := by
  obtain ⟨hnd, hmem⟩ := foldl_collect s.addUntracked (fun e => marketOracle e.2)
    (fun o => o.pubkey ≠ Program.noOracle ∧
      (!Ordered.contains Pubkey.compareBytes o.pubkey s.tracked.oracles) = true)
    (addUntracked_of_none s) (addUntracked_of_some s) decoded [] List.nodup_nil
  refine ⟨hnd, fun o => ?_⟩
  rw [untrackedOracles, hmem]
  simp only [not_contains_oracles_iff, List.not_mem_nil, false_or]

/-! ## 4. The batch as a whole -/

/-- **Applying a batch.** The cache changes exactly as one batch write, at the batch's slot, of
the entries that decoded, in batch order; a key all of whose entries are missing or failed
keeps its cached value and slot, and so does every key outside the batch. The outcome lists
the missing addresses and the failures in batch order, counts the decoded entries the cache
admitted, is an error exactly when something failed, and names each real, untracked oracle of
the decoded markets once. This holds for every decoder. -/
theorem applyBatch_contract (s : AccountStore) (accounts : List RawAccount) (slot : UInt64) :
    (s.applyBatch accounts slot).1 = { s with
        cache := (s.cache.putBatch (accounts.filterMap (decodeEntry s.decoder)) slot).1 } ∧
      (∀ k, (∀ a ∈ accounts, a.1 = k →
          (missingAddress a).isSome ∨ (entryFailure s.decoder a).isSome) →
        (s.applyBatch accounts slot).1.cache.get? k = s.cache.get? k) ∧
      (s.applyBatch accounts slot).2.missing = accounts.filterMap missingAddress ∧
      (s.applyBatch accounts slot).2.failures = accounts.filterMap (entryFailure s.decoder) ∧
      (s.applyBatch accounts slot).2.applied =
        (accounts.filterMap (decodeEntry s.decoder)).countP
          (fun e => (s.cache.get? e.1).all (·.slot ≤ slot)) ∧
      ((s.applyBatch accounts slot).2.result = .ok () ↔
        (s.applyBatch accounts slot).2.failures = []) ∧
      (∀ f rest, (s.applyBatch accounts slot).2.failures = f :: rest →
        (s.applyBatch accounts slot).2.result = .error (.decode f rest)) ∧
      (s.applyBatch accounts slot).2.discoveredOracles.Nodup ∧
      ∀ o, o ∈ (s.applyBatch accounts slot).2.discoveredOracles ↔
        ∃ e ∈ accounts.filterMap (decodeEntry s.decoder), marketOracle e.2 = some o ∧
          o.pubkey ≠ Program.noOracle ∧ ∀ src, (o.pubkey, src) ∉ s.tracked.oracles := by
  have happly : s.applyBatch accounts slot =
      ({ s with cache := (s.cache.putBatch (accounts.filterMap (decodeEntry s.decoder)) slot).1 },
        ⟨(s.cache.putBatch (accounts.filterMap (decodeEntry s.decoder)) slot).2,
          accounts.filterMap missingAddress, accounts.filterMap (entryFailure s.decoder),
          s.untrackedOracles (accounts.filterMap (decodeEntry s.decoder))⟩) := by
    unfold applyBatch
    rw [decodeBatch_eq]
  rw [happly]
  obtain ⟨hnd, hmem⟩ := untrackedOracles_spec s (accounts.filterMap (decodeEntry s.decoder))
  refine ⟨rfl, fun k hk => ?_, rfl, rfl, ?_, ?_, ?_, hnd, hmem⟩
  · apply SlotCache.get?_putBatch_of_not_mem
    intro hmem'
    obtain ⟨e, he, rfl⟩ := List.mem_map.mp hmem'
    obtain ⟨a, ha, hae⟩ := List.mem_filterMap.mp he
    have hnone := (decodeEntry_eq_none_iff s.decoder a).mpr (hk a ha (fst_of_decodeEntry hae).symm)
    rw [hnone] at hae
    cases hae
  · simp only [SlotCache.putBatch_snd, SlotCache.admits_eq_all]
  · dsimp only [BatchOutcome.result]
    cases accounts.filterMap (entryFailure s.decoder) <;> simp [ClientError.ofDecodeFailures]
  · intro f rest hf
    dsimp only [BatchOutcome.result] at hf ⊢
    rw [hf]
    rfl

end AccountStore

end PerpClient
