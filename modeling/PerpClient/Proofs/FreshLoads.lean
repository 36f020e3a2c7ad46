import Mathlib.Data.List.Basic
import PerpClient.Proofs.TrackedMerge
import PerpClient.Proofs.AccountOrder
/-!
# Loading freshly tracked accounts

When the store starts tracking accounts while it is live, each account is loaded through the
coalescing loader and applied with the slot its own load answered. The first failed load, in
list order, fails the whole before anything is applied. Otherwise the accounts are grouped by
slot, each group is applied as one batch, lowest slot first, and every decode failure of every
group is reported.

What a key holds afterwards does not hang on the grouping. In the cache's history
(`Proofs.CacheHistory`) a key holds the write with the highest slot, and of several at that slot
the last; grouping by slot keeps the order of the writes within each slot. So a key holds the
latest of its earlier writes and of its loads, each at its own slot, and an account loaded once
ends as applying its own load alone, at its slot, would leave it.

* `mapM_zip_eq_error`, `mapM_zip_eq_ok`: the loads fail with the first failure, or give every
  account;
* `perm_flatMap_filter`, `filter_flatMap_filter`: grouping by slot is a permutation that keeps
  the order within each slot;
* `SlotCache.isLatest_iff`: the latest write said slot by slot, so `SlotCache.Reflects.congr`;
* `run_foldlM_applyBatch`: the group loop, run;
* `applyLoaded_contract`: the whole.
-/

namespace PerpClient

/-! ## 1. A run of loads -/

section Loads

variable {α β γ ε : Type} (g : α → γ → β)

/-- Loads that succeed and then meet a failure fail with that failure. -/
theorem mapM_zip_eq_error :
    ∀ {as : List α} {xs : List (Except ε γ)} {pre post : List (Except ε γ)} {e : ε},
      (as.zip xs).map (·.2) = pre ++ .error e :: post → (∀ x ∈ pre, ∃ c, x = .ok c) →
        (as.zip xs).mapM (fun p => p.2.map (g p.1)) = .error e
  | [], _, pre, _, _, h, _ => by cases pre <;> simp at h
  | _ :: _, [], pre, _, _, h, _ => by cases pre <;> simp at h
  | a :: as, x :: xs, [], post, e, h, _ => by
    simp only [List.zip_cons_cons, List.map_cons, List.nil_append, List.cons.injEq] at h
    rw [List.zip_cons_cons, List.mapM_cons, h.1]
    rfl
  | a :: as, x :: xs, y :: pre, post, e, h, hpre => by
    simp only [List.zip_cons_cons, List.map_cons, List.cons_append, List.cons.injEq] at h
    obtain ⟨rfl, hrest⟩ := h
    obtain ⟨c, rfl⟩ := hpre _ List.mem_cons_self
    rw [List.zip_cons_cons, List.mapM_cons,
      mapM_zip_eq_error hrest fun z hz => hpre z (List.mem_cons_of_mem _ hz)]
    rfl

/-- Loads that all succeed give every account, in order. -/
theorem mapM_zip_eq_ok :
    ∀ {as : List α} {xs : List (Except ε γ)} {cs : List γ},
      (as.zip xs).map (·.2) = cs.map .ok →
        (as.zip xs).mapM (fun p => p.2.map (g p.1)) = .ok ((as.zip cs).map fun p => g p.1 p.2)
  | [], _, [], _ => rfl
  | [], _, _ :: _, h => by simp at h
  | _ :: _, [], [], _ => rfl
  | _ :: _, [], _ :: _, h => by simp at h
  | a :: as, x :: xs, [], h => by simp at h
  | a :: as, x :: xs, c :: cs, h => by
    simp only [List.zip_cons_cons, List.map_cons, List.cons.injEq] at h
    rw [List.zip_cons_cons, List.mapM_cons, h.1, mapM_zip_eq_ok h.2]
    rfl

end Loads

/-! ## 2. Grouping by a key -/

section Grouping

variable {α β γ : Type} [DecidableEq β] (key : α → β)

/-- Of a repeat-free list of keys, an entry that is not the key asked for is filtered out. -/
theorem flatMap_ite_eq {X : List γ} (s : β) :
    ∀ {keys : List β}, keys.Nodup →
      (keys.flatMap fun m => if m = s then X else []) = if s ∈ keys then X else []
  | [], _ => rfl
  | m :: rest, hnd => by
    obtain ⟨hm, hnd'⟩ := List.nodup_cons.mp hnd
    rw [List.flatMap_cons, flatMap_ite_eq s hnd']
    by_cases hms : m = s
    · subst hms
      simp [hm]
    · simp [hms, Ne.symm hms]

/-- Taking, for each key of a repeat-free list that covers the entries' keys, the entries of that
key, group after group, permutes the entries. -/
theorem perm_flatMap_filter :
    ∀ (keys : List β) (l : List α), keys.Nodup → (∀ a ∈ l, key a ∈ keys) →
      (keys.flatMap fun m => l.filter (key · = m)).Perm l
  | [], l, _, hcov => by
    have hl : l = [] := List.eq_nil_iff_forall_not_mem.mpr fun a ha => by simpa using hcov a ha
    simp [hl]
  | m :: rest, l, hnd, hcov => by
    obtain ⟨hm, hnd'⟩ := List.nodup_cons.mp hnd
    -- the later groups draw only on the entries whose key is not `m`
    have hrest : (rest.flatMap fun m' => l.filter (key · = m')) =
        rest.flatMap fun m' => (l.filter fun a => !decide (key a = m)).filter (key · = m') := by
      apply List.flatMap_congr
      intro m' hm'
      rw [List.filter_filter]
      apply List.filter_congr
      intro a _
      by_cases ha : key a = m'
      · have hne : m' ≠ m := fun h => hm (h ▸ hm')
        simp [ha, hne]
      · simp [ha]
    have hcov' : ∀ a ∈ l.filter (fun a => !decide (key a = m)), key a ∈ rest := by
      intro a ha
      rw [List.mem_filter] at ha
      have hne : key a ≠ m := by simpa using ha.2
      rcases List.mem_cons.mp (hcov a ha.1) with h | h
      · exact absurd h hne
      · exact h
    rw [List.flatMap_cons, hrest]
    exact ((perm_flatMap_filter rest _ hnd' hcov').append_left _).trans
      (List.filter_append_perm _ l)

/-- Grouping keeps the entries of each key in their order. -/
theorem filter_flatMap_filter (keys : List β) (l : List α) (hnd : keys.Nodup)
    (hcov : ∀ a ∈ l, key a ∈ keys) (s : β) :
    (keys.flatMap fun m => l.filter (key · = m)).filter (key · = s) = l.filter (key · = s) := by
  rw [List.filter_flatMap]
  have hgroup : ∀ m, (l.filter (key · = m)).filter (key · = s) =
      if m = s then l.filter (key · = s) else [] := by
    intro m
    rw [List.filter_filter]
    by_cases hms : m = s
    · subst hms
      simp
    · rw [if_neg hms]
      apply List.filter_eq_nil_iff.mpr
      intro a _ ha
      simp only [Bool.and_eq_true, decide_eq_true_eq] at ha
      exact hms (ha.2 ▸ ha.1)
  simp only [hgroup]
  rw [flatMap_ite_eq s hnd]
  by_cases hs : s ∈ keys
  · rw [if_pos hs]
  · rw [if_neg hs, eq_comm, List.filter_eq_nil_iff]
    intro a ha hk
    exact hs ((of_decide_eq_true hk) ▸ hcov a ha)

/-- Filtering the images of a map that keeps the key is filtering the entries first. -/
theorem filter_filterMap_of_key {δ : Type} (slotOf : δ → β) (f : α → Option δ)
    (hf : ∀ a d, f a = some d → slotOf d = key a) (l : List α) (s : β) :
    (l.filterMap f).filter (slotOf · = s) = (l.filter (key · = s)).filterMap f := by
  induction l with
  | nil => rfl
  | cons a rest ih =>
    cases hfa : f a with
    | none => by_cases hk : key a = s <;> simp [hfa, hk, ih]
    | some d => by_cases hk : key a = s <;> simp [hfa, hk, hf a d hfa, ih]

end Grouping

/-! ## 3. The latest write, slot by slot -/

namespace SlotCache

section Latest

variable {α : Type} {ws ws' : List (α × UInt64)} {e : Stamped α}

/-- The latest write is the newest, and the last of the writes at its slot. -/
theorem isLatest_iff : IsLatest ws e ↔
    (∀ w ∈ ws, w.2 ≤ e.slot) ∧ (ws.filter (·.2 = e.slot)).getLast? = some (e.data, e.slot) := by
  constructor
  · intro h
    refine ⟨h.slot_le, ?_⟩
    obtain ⟨pre, post, rfl, -, hpost⟩ := h
    have hnone : post.filter (·.2 = e.slot) = [] :=
      List.filter_eq_nil_iff.mpr fun w hw hs => by
        have hlt := hpost w hw
        simp only [decide_eq_true_eq] at hs
        rw [hs] at hlt
        exact UInt64.lt_irrefl _ hlt
    simp [List.filter_append, hnone]
  · rintro ⟨hle, hlast⟩
    -- the last write at the slot splits the writes; every later one is older
    induction ws using List.reverseRecOn with
    | nil => simp at hlast
    | append_singleton ws w ih =>
      have hle' : ∀ x ∈ ws, x.2 ≤ e.slot := fun x hx => hle x (List.mem_append_left _ hx)
      by_cases hw : w.2 = e.slot
      · simp only [List.filter_append, List.filter_cons, List.filter_nil, hw, decide_true,
          if_true, List.getLast?_append, List.getLast?_singleton, Option.some_or,
          Option.some.injEq] at hlast
        exact ⟨ws, [], by rw [hlast], hle', by simp⟩
      · have hlt : w.2 < e.slot :=
          UInt64.lt_of_le_of_ne (hle w (List.mem_append_right _ (List.mem_singleton_self w))) hw
        simp only [List.filter_append, List.filter_cons, List.filter_nil, hw, decide_false,
          Bool.false_eq_true, ↓reduceIte, List.append_nil] at hlast
        obtain ⟨pre, post, hws, hpre, hpost⟩ := ih hle' hlast
        refine ⟨pre, post ++ [w], by simp [hws], hpre, fun x hx => ?_⟩
        rcases List.mem_append.mp hx with hx | hx
        · exact hpost x hx
        · rw [List.mem_singleton.mp hx]
          exact hlt

/-- Writes with the same members and, at every slot, the same last write reflect the same
answer. -/
theorem Reflects.congr (hmem : ∀ w, w ∈ ws ↔ w ∈ ws')
    (hlast : ∀ slot, (ws.filter (·.2 = slot)).getLast? = (ws'.filter (·.2 = slot)).getLast?)
    {r : Option (Stamped α)} (h : Reflects ws r) : Reflects ws' r := by
  cases r with
  | none =>
    have hnil : ws = [] := h
    refine List.eq_nil_iff_forall_not_mem.mpr fun w hw => ?_
    rw [← hmem w, hnil] at hw
    exact List.not_mem_nil hw
  | some e =>
    obtain ⟨hle, hl⟩ := isLatest_iff.mp h
    exact isLatest_iff.mpr ⟨fun w hw => hle w ((hmem w).mpr hw), (hlast e.slot) ▸ hl⟩

/-- The same writes before two lists keep them alike. -/
theorem Reflects.congr_append {pre : List (α × UInt64)} (hmem : ∀ w, w ∈ ws ↔ w ∈ ws')
    (hlast : ∀ slot, (ws.filter (·.2 = slot)).getLast? = (ws'.filter (·.2 = slot)).getLast?)
    {r : Option (Stamped α)} (h : Reflects (pre ++ ws) r) : Reflects (pre ++ ws') r := by
  refine h.congr (fun w => ?_) (fun slot => ?_)
  · simp only [List.mem_append, hmem]
  · simp only [List.filter_append, List.getLast?_append, hlast]

/-- Writes that agree slot by slot reflect the same answer. -/
theorem Reflects.congr_filter {pre : List (α × UInt64)}
    (h : ∀ slot, ws.filter (·.2 = slot) = ws'.filter (·.2 = slot))
    {r : Option (Stamped α)} (hr : Reflects (pre ++ ws) r) : Reflects (pre ++ ws') r := by
  refine hr.congr_append (fun w => ?_) (fun slot => by rw [h slot])
  have hw : ∀ l : List (α × UInt64), w ∈ l ↔ w ∈ l.filter (·.2 = w.2) := fun l => by simp
  rw [hw ws, hw ws', h w.2]

/-- Two answers that reflect the same writes are the same. -/
theorem Reflects.eq {r r' : Option (Stamped α)} (h : Reflects ws r) (h' : Reflects ws r') :
    r = r' := by
  cases r with
  | none => exact (h'.eq_none_iff.mpr h).symm
  | some e => exact ((h'.eq_some_iff e).mpr h).symm

variable {κ : Type} [DecidableEq κ]

/-- What a cache answers for a key reflects that answer as the one write. -/
theorem reflects_get? (c : SlotCache κ α) (k : κ) :
    Reflects ((c.get? k).toList.map fun x => (x.data, x.slot)) (c.get? k) := by
  cases c.get? k with
  | none => rfl
  | some x => exact ⟨[], [], rfl, by simp, by simp⟩

end Latest

end SlotCache

/-! ## 4. The accounts a run of loads applies -/

namespace Session

/-- A load that succeeded: the account, its layout, and what the load read at which slot. -/
abbrev LoadedAccount := Pubkey × AccountKind × Stamped (Option (List UInt8))

/-- The accounts of successful loads, in list order. -/
def loadedAccounts (added : List (Pubkey × AccountKind))
    (loads : List (Stamped (Option (List UInt8)))) : List LoadedAccount :=
  (added.zip loads).map fun p => (p.1.1, p.1.2, p.2)

/-- The raw account a load gives a batch. -/
def loadedRaw (e : LoadedAccount) : AccountStore.RawAccount := (e.1, e.2.1, e.2.2.data)

/-- The write of key `k` a loaded account makes: its record, at the slot of its own load, when it
is an account of `k` that decodes. -/
def loadWrite (dec : AccountDecoder) (k : Pubkey) (e : LoadedAccount) :
    Option (DecodedAccount × UInt64) :=
  if e.1 = k then (AccountStore.decodeEntry dec (loadedRaw e)).map fun d => (d.2, e.2.2.slot)
  else none

/-- The decode failures of loaded accounts, in list order. -/
def loadFailures (dec : AccountDecoder) (entries : List LoadedAccount) : List DecodeFailure :=
  entries.filterMap fun e => AccountStore.entryFailure dec (loadedRaw e)

/-- The loaded accounts in the order they are applied: grouped by slot, lowest slot first, each
group in list order. -/
def bySlot (entries : List LoadedAccount) : List LoadedAccount :=
  (ascendingSlots (entries.map (·.2.2.slot))).flatMap fun m => entries.filter (·.2.2.slot = m)

theorem ascendingSlots_eq (slots : List UInt64) :
    ascendingSlots slots = (appendNew [] slots).mergeSort fun a b => decide (a ≤ b) := rfl

theorem nodup_ascendingSlots (slots : List UInt64) : (ascendingSlots slots).Nodup := by
  rw [ascendingSlots_eq, (List.mergeSort_perm _ _).nodup_iff]
  exact nodup_appendNew List.nodup_nil slots

theorem mem_ascendingSlots {x : UInt64} (slots : List UInt64) :
    x ∈ ascendingSlots slots ↔ x ∈ slots := by
  rw [ascendingSlots_eq, List.mem_mergeSort, mem_appendNew]
  simp

theorem slot_mem_ascendingSlots (entries : List LoadedAccount) :
    ∀ e ∈ entries, e.2.2.slot ∈ ascendingSlots (entries.map (·.2.2.slot)) :=
  fun _ he => (mem_ascendingSlots _).mpr (List.mem_map_of_mem he)

/-- Applying by slot applies every loaded account once. -/
theorem bySlot_perm (entries : List LoadedAccount) : (bySlot entries).Perm entries :=
  perm_flatMap_filter (fun e : LoadedAccount => e.2.2.slot) _ entries (nodup_ascendingSlots _)
    (slot_mem_ascendingSlots entries)

/-- A key's writes are at the slots of their loads. -/
theorem slot_of_loadWrite {dec : AccountDecoder} {k : Pubkey} {e : LoadedAccount}
    {w : DecodedAccount × UInt64} (h : loadWrite dec k e = some w) : w.2 = e.2.2.slot := by
  unfold loadWrite at h
  split at h
  · obtain ⟨d, -, rfl⟩ := Option.map_eq_some_iff.mp h
    rfl
  · cases h

/-- Applying by slot makes the writes of a key in their order within each slot. -/
theorem filter_bySlot_writes (dec : AccountDecoder) (k : Pubkey) (entries : List LoadedAccount)
    (slot : UInt64) :
    ((bySlot entries).filterMap (loadWrite dec k)).filter (·.2 = slot) =
      (entries.filterMap (loadWrite dec k)).filter (·.2 = slot) := by
  have hkey := filter_filterMap_of_key (fun e : LoadedAccount => e.2.2.slot)
    (fun w : DecodedAccount × UInt64 => w.2) (loadWrite dec k) (fun _ _ h => slot_of_loadWrite h)
  rw [hkey, hkey, bySlot, filter_flatMap_filter (fun e : LoadedAccount => e.2.2.slot) _ entries
    (nodup_ascendingSlots _) (slot_mem_ascendingSlots entries)]

/-! ## 5. Applying the groups -/

/-- The cache after writing, slot after slot, what decoded of each slot's batch. -/
def writeBatches (dec : AccountDecoder) (batchOf : UInt64 → List AccountStore.RawAccount)
    (slots : List UInt64) (c : SlotCache Pubkey DecodedAccount) : SlotCache Pubkey DecodedAccount :=
  slots.foldl (fun c slot =>
    (c.putBatch ((batchOf slot).filterMap (AccountStore.decodeEntry dec)) slot).1) c

theorem writeBatches_cons (dec : AccountDecoder) (batchOf : UInt64 → List AccountStore.RawAccount)
    (slot : UInt64) (slots : List UInt64) (c : SlotCache Pubkey DecodedAccount) :
    writeBatches dec batchOf (slot :: slots) c =
      writeBatches dec batchOf slots
        (c.putBatch ((batchOf slot).filterMap (AccountStore.decodeEntry dec)) slot).1 := rfl

/-- **The group loop.** Applying batches of raw accounts one slot after another reports the
failures of every batch in order and leaves the cache written batch after batch with what
decoded; nothing else of the session changes. -/
theorem run_foldlM_applyBatch (batchOf : UInt64 → List AccountStore.RawAccount) :
    ∀ (slots : List UInt64) (acc : List DecodeFailure) (s : Session),
      (slots.foldlM (fun acc slot => do
          let o ← applyBatch (batchOf slot) slot
          pure (acc ++ o.failures)) acc).run s =
        (acc ++ slots.flatMap fun slot =>
            (batchOf slot).filterMap (AccountStore.entryFailure s.store.decoder),
          { s with store :=
            { s.store with cache := writeBatches s.store.decoder batchOf slots s.store.cache } })
  | [], acc, s => by simp; rfl
  | slot :: slots, acc, s => by
    obtain ⟨hstore, -, -, hfail, -⟩ := AccountStore.applyBatch_contract s.store (batchOf slot) slot
    rw [List.foldlM_cons, run_bind_pair, run_bind_pair, applyBatch_run]
    dsimp only [run_pure_pair]
    rw [run_foldlM_applyBatch batchOf slots, hstore, hfail]
    simp only [List.flatMap_cons, writeBatches, List.foldl_cons, List.append_assoc]

/-- The batches' writes of one key, each at its batch's slot, keep the invariant of the cache's
history. -/
theorem reflects_foldl_putBatch (dec : AccountDecoder) (batchOf : UInt64 → List AccountStore.RawAccount)
    (k : Pubkey) :
    ∀ (slots : List UInt64) (c : SlotCache Pubkey DecodedAccount) (ws : List (DecodedAccount × UInt64)),
      SlotCache.Reflects ws (c.get? k) →
      SlotCache.Reflects (ws ++ slots.flatMap fun slot =>
          ((((batchOf slot).filterMap (AccountStore.decodeEntry dec)).filter (·.1 = k)).map
            fun e => (e.2, slot)))
        ((writeBatches dec batchOf slots c).get? k)
  | [], c, ws, h => by simpa [writeBatches] using h
  | slot :: slots, c, ws, h => by
    have h' := reflects_foldl_putBatch dec batchOf k slots _ _
      (h.putBatch ((batchOf slot).filterMap (AccountStore.decodeEntry dec)) slot)
    simpa only [List.flatMap_cons, List.append_assoc, writeBatches_cons] using h'

/-- A group's writes of a key are its accounts' writes, when they are all at the group's slot. -/
theorem group_writes (dec : AccountDecoder) (k : Pubkey) (slot : UInt64) :
    ∀ (l : List LoadedAccount), (∀ e ∈ l, e.2.2.slot = slot) →
      (((l.map loadedRaw).filterMap (AccountStore.decodeEntry dec)).filter (·.1 = k)).map
          (fun d => (d.2, slot)) = l.filterMap (loadWrite dec k)
  | [], _ => rfl
  | e :: rest, hslot => by
    have ih := group_writes dec k slot rest fun x hx => hslot x (List.mem_cons_of_mem _ hx)
    have he : e.2.2.slot = slot := hslot e List.mem_cons_self
    cases hd : AccountStore.decodeEntry dec (loadedRaw e) with
    | none =>
      have hw : loadWrite dec k e = none := by simp [loadWrite, hd]
      simp only [List.map_cons, List.filterMap_cons, hd, hw]
      exact ih
    | some d =>
      have hd1 : d.1 = e.1 := AccountStore.fst_of_decodeEntry hd
      by_cases hk : e.1 = k
      · have hw : loadWrite dec k e = some (d.2, slot) := by simp [loadWrite, hd, hk, he]
        simp only [List.map_cons, List.filterMap_cons, hd, hw, List.filter_cons, hd1, hk,
          decide_true, ↓reduceIte, ih]
      · have hw : loadWrite dec k e = none := by simp [loadWrite, hk]
        simp only [List.map_cons, List.filterMap_cons, hd, hw, List.filter_cons, hd1, hk,
          decide_false, Bool.false_eq_true, ↓reduceIte]
        exact ih

/-- The batch of one slot: the raw accounts of the loads at that slot, in list order. -/
def slotBatch (entries : List LoadedAccount) (slot : UInt64) : List AccountStore.RawAccount :=
  (entries.filter (·.2.2.slot = slot)).map loadedRaw

/-- The first failed load fails the whole and leaves the session as it was. -/
theorem run_applyLoaded_of_error {added : List (Pubkey × AccountKind)}
    {answers : List Loader.LoadAnswer} {pre post : List Loader.LoadAnswer} {e : ClientError}
    (h : (added.zip answers).map (·.2) = pre ++ .error e :: post)
    (hpre : ∀ a ∈ pre, ∃ st, a = .ok st) (s : Session) :
    (applyLoaded added answers).run s = (.error e, s) := by
  unfold applyLoaded
  rw [mapM_zip_eq_error (fun kk st => (kk.1, kk.2, st)) h hpre]
  rfl

/-- When every load succeeds, the slots' batches are applied lowest slot first, and nothing but
the cache changes. -/
theorem run_applyLoaded_of_ok {added : List (Pubkey × AccountKind)}
    {answers : List Loader.LoadAnswer} {loads : List (Stamped (Option (List UInt8)))}
    (h : (added.zip answers).map (·.2) = loads.map .ok) (s : Session) :
    (applyLoaded added answers).run s =
      ((⟨0, [], loadFailures s.store.decoder (bySlot (loadedAccounts added loads)), []⟩ :
          BatchOutcome).result,
        { s with store := { s.store with
          cache := writeBatches s.store.decoder (slotBatch (loadedAccounts added loads))
            (ascendingSlots ((loadedAccounts added loads).map (·.2.2.slot))) s.store.cache } }) := by
  unfold applyLoaded
  rw [mapM_zip_eq_ok (fun kk st => (kk.1, kk.2, st)) h]
  dsimp only
  rw [run_bind_pair, run_foldlM_applyBatch, run_pure_pair]
  show (BatchOutcome.result ⟨0, [], _, []⟩, _) = (BatchOutcome.result ⟨0, [], _, []⟩, _)
  congr 3
  simp only [List.nil_append, loadFailures, bySlot, List.filterMap_flatMap, List.filterMap_map]
  rfl

/-! ## 6. What every key holds -/

/-- A key's write comes from a load of that key. -/
theorem fst_of_loadWrite {dec : AccountDecoder} {k : Pubkey} {e : LoadedAccount}
    {w : DecodedAccount × UInt64} (h : loadWrite dec k e = some w) : e.1 = k := by
  unfold loadWrite at h
  split at h
  · assumption
  · cases h

/-- Applying the slots' batches, lowest slot first, makes the writes of every key that the loaded
accounts make in list order, as far as the cache's history tells them apart. -/
theorem reflects_writeBatches (dec : AccountDecoder) (entries : List LoadedAccount) (k : Pubkey)
    {c : SlotCache Pubkey DecodedAccount} {ws : List (DecodedAccount × UInt64)}
    (h : SlotCache.Reflects ws (c.get? k)) :
    SlotCache.Reflects (ws ++ entries.filterMap (loadWrite dec k))
      ((writeBatches dec (slotBatch entries) (ascendingSlots (entries.map (·.2.2.slot))) c).get?
        k) := by
  have hrun := reflects_foldl_putBatch dec (slotBatch entries) k
    (ascendingSlots (entries.map (·.2.2.slot))) c ws h
  have hgroups : ((ascendingSlots (entries.map (·.2.2.slot))).flatMap fun slot =>
      ((((slotBatch entries slot).filterMap (AccountStore.decodeEntry dec)).filter (·.1 = k)).map
        fun e => (e.2, slot))) = (bySlot entries).filterMap (loadWrite dec k) := by
    rw [bySlot, List.filterMap_flatMap]
    apply List.flatMap_congr
    intro slot _
    exact group_writes dec k slot _ fun e he => of_decide_eq_true (List.mem_filter.mp he).2
  rw [hgroups] at hrun
  exact hrun.congr_filter (filter_bySlot_writes dec k entries)

/-- A key no loaded account names keeps what it held. -/
theorem get?_writeBatches_of_not_mem (dec : AccountDecoder) (entries : List LoadedAccount)
    (c : SlotCache Pubkey DecodedAccount) {k : Pubkey} (hk : k ∉ entries.map (·.1)) :
    (writeBatches dec (slotBatch entries) (ascendingSlots (entries.map (·.2.2.slot))) c).get? k =
      c.get? k := by
  have hnil : entries.filterMap (loadWrite dec k) = [] := by
    rw [List.filterMap_eq_nil_iff]
    intro e he
    have hne : e.1 ≠ k := fun h => hk (h ▸ List.mem_map_of_mem he)
    simp [loadWrite, hne]
  have h := reflects_writeBatches dec entries k (SlotCache.reflects_get? c k)
  rw [hnil, List.append_nil] at h
  exact h.eq (SlotCache.reflects_get? c k)

/-- Lists with the same members, all alike, end alike. -/
theorem getLast?_eq_of_mem_iff {γ : Type} {l l' : List γ} (hmem : ∀ w, w ∈ l ↔ w ∈ l')
    (hsub : ∀ w ∈ l, ∀ w' ∈ l, w = w') : l.getLast? = l'.getLast? := by
  cases hl : l.getLast? with
  | none =>
    rw [List.getLast?_eq_none_iff] at hl
    subst hl
    symm
    rw [List.getLast?_eq_none_iff]
    exact List.eq_nil_iff_forall_not_mem.mpr fun w hw => List.not_mem_nil ((hmem w).mpr hw)
  | some a =>
    have ha := List.mem_of_getLast? hl
    cases hl' : l'.getLast? with
    | none =>
      rw [List.getLast?_eq_none_iff] at hl'
      exact absurd ((hmem a).mp ha) (by simp [hl'])
    | some b => rw [hsub a ha b ((hmem b).mpr (List.mem_of_getLast? hl'))]

/-- An account whose every load is the same load ends as applying that load alone, at its slot,
would leave it. -/
theorem get?_writeBatches_of_unique (s : AccountStore) (entries : List LoadedAccount)
    {e : LoadedAccount} (he : e ∈ entries) (huniq : ∀ e' ∈ entries, e'.1 = e.1 → e' = e) :
    (writeBatches s.decoder (slotBatch entries) (ascendingSlots (entries.map (·.2.2.slot)))
        s.cache).get? e.1 =
      (s.applyBatch [loadedRaw e] e.2.2.slot).1.cache.get? e.1 := by
  have h0 := SlotCache.reflects_get? s.cache e.1
  have hone : SlotCache.Reflects (((s.cache.get? e.1).toList.map fun x => (x.data, x.slot)) ++
      [e].filterMap (loadWrite s.decoder e.1))
      ((s.applyBatch [loadedRaw e] e.2.2.slot).1.cache.get? e.1) := by
    obtain ⟨hstore, -⟩ := AccountStore.applyBatch_contract s [loadedRaw e] e.2.2.slot
    have hg := group_writes s.decoder e.1 e.2.2.slot [e] (by simp)
    have hput := h0.putBatch ([loadedRaw e].filterMap (AccountStore.decodeEntry s.decoder))
      e.2.2.slot
    rw [List.map_singleton] at hg
    rw [hg] at hput
    rw [hstore]
    exact hput
  have hmem : ∀ w, w ∈ [e].filterMap (loadWrite s.decoder e.1) ↔
      w ∈ entries.filterMap (loadWrite s.decoder e.1) := by
    intro w
    simp only [List.mem_filterMap, List.mem_singleton]
    constructor
    · rintro ⟨a, ha, hw⟩
      rw [ha] at hw
      exact ⟨e, he, hw⟩
    · rintro ⟨e', he', hw⟩
      exact ⟨e', huniq e' he' (fst_of_loadWrite hw), hw⟩
  have hsub : ∀ w ∈ [e].filterMap (loadWrite s.decoder e.1),
      ∀ w' ∈ [e].filterMap (loadWrite s.decoder e.1), w = w' := by
    intro w hw w' hw'
    simp only [List.filterMap_cons, List.filterMap_nil] at hw hw'
    cases hl : loadWrite s.decoder e.1 e with
    | none => simp [hl] at hw
    | some x =>
      simp only [hl, List.mem_singleton] at hw hw'
      rw [hw, hw']
  have hall := reflects_writeBatches s.decoder entries e.1 h0
  refine hall.eq (hone.congr_append hmem fun slot => getLast?_eq_of_mem_iff (fun w => ?_) ?_)
  · simp only [List.mem_filter, hmem]
  · intro w hw w' hw'
    exact hsub w (List.mem_filter.mp hw).1 w' (List.mem_filter.mp hw').1

/-! ## 7. Loading freshly tracked accounts -/

/-- A batch's outcome is `Ok` when nothing failed, and otherwise the decode error listing every
failure. -/
theorem BatchOutcome.result_cases (o : BatchOutcome) :
    (o.result = .ok () ∧ o.failures = []) ∨
      ∃ f rest, o.result = .error (.decode f rest) ∧ o.failures = f :: rest := by
  unfold BatchOutcome.result
  cases o.failures with
  | nil => exact .inl ⟨rfl, rfl⟩
  | cons f rest => exact .inr ⟨f, rest, rfl, rfl⟩

/-- **Loading freshly tracked accounts.** Given any answers of the loader, in list order: when
some load fails after loads that succeeded, the whole fails with that failure and the session is
left as it was. When every load succeeds, only the cache changes: every key holds the latest of
what it held and of its loads, each at the slot of its own load; an account whose loads are all
one load ends as applying that load alone, at its slot, would leave it; a key no load names
keeps what it held; and the answer is `Ok` when no account failed to decode, else the decode
error listing every failure once. -/
theorem applyLoaded_contract (added : List (Pubkey × AccountKind))
    (answers : List Loader.LoadAnswer) (s : Session) :
    (∀ pre e post, (added.zip answers).map (·.2) = pre ++ .error e :: post →
      (∀ a ∈ pre, ∃ st, a = .ok st) → (applyLoaded added answers).run s = (.error e, s)) ∧
    ∀ loads, (added.zip answers).map (·.2) = loads.map .ok →
      ((applyLoaded added answers).run s).2 = { s with store :=
          { s.store with cache := ((applyLoaded added answers).run s).2.store.cache } } ∧
      (∀ k ws, SlotCache.Reflects ws (s.store.cache.get? k) →
        SlotCache.Reflects (ws ++ (loadedAccounts added loads).filterMap (loadWrite s.store.decoder k))
          (((applyLoaded added answers).run s).2.store.cache.get? k)) ∧
      (∀ e ∈ loadedAccounts added loads, (∀ e' ∈ loadedAccounts added loads, e'.1 = e.1 → e' = e) →
        ((applyLoaded added answers).run s).2.store.cache.get? e.1 =
          (s.store.applyBatch [loadedRaw e] e.2.2.slot).1.cache.get? e.1) ∧
      (∀ k, k ∉ (loadedAccounts added loads).map (·.1) →
        ((applyLoaded added answers).run s).2.store.cache.get? k = s.store.cache.get? k) ∧
      ((((applyLoaded added answers).run s).1 = .ok () ∧
          loadFailures s.store.decoder (loadedAccounts added loads) = []) ∨
        ∃ f rest, ((applyLoaded added answers).run s).1 = .error (.decode f rest) ∧
          (f :: rest).Perm (loadFailures s.store.decoder (loadedAccounts added loads))) := by
  refine ⟨fun pre e post h hpre => run_applyLoaded_of_error h hpre s, fun loads h => ?_⟩
  rw [run_applyLoaded_of_ok h s]
  -- the accounts are applied grouped by slot, so each failure is reported once
  have hperm : (loadFailures s.store.decoder (bySlot (loadedAccounts added loads))).Perm
      (loadFailures s.store.decoder (loadedAccounts added loads)) :=
    (bySlot_perm _).filterMap _
  refine ⟨rfl, fun k ws hws => reflects_writeBatches _ _ k hws,
    fun e he huniq => get?_writeBatches_of_unique s.store _ he huniq,
    fun k hk => get?_writeBatches_of_not_mem _ _ _ hk, ?_⟩
  rcases BatchOutcome.result_cases
      ⟨0, [], loadFailures s.store.decoder (bySlot (loadedAccounts added loads)), []⟩ with
    ⟨hok, hnil⟩ | ⟨f, rest, herr, hfs⟩
  · have hnil' : loadFailures s.store.decoder (bySlot (loadedAccounts added loads)) = [] := hnil
    rw [hnil'] at hperm
    exact .inl ⟨hok, hperm.nil_eq.symm⟩
  · have hfs' : loadFailures s.store.decoder (bySlot (loadedAccounts added loads)) = f :: rest :=
      hfs
    rw [hfs'] at hperm
    exact .inr ⟨f, rest, herr, hperm⟩

end Session

end PerpClient
