import PerpClient.Cache
/-!
# The slot-stamped cache over a history of operations

Polling ticks, push notifications and readers share one cache, and each operation takes the
cache's lock, so what the cache holds is the result of one sequence of operations, in whatever
order the writers reached it. This module says what that result is without the cache's own
rule: a key holds the write with the highest slot among those made since the key was last
removed or the cache cleared, and of several writes at that slot the last one.

* `Op`, `perform`, `replay`: the operations that change a cache, and a history of them;
* `writesSince`: the writes of a key since it was last dropped, a batch counting as its entries
  written one after another at the batch's slot;
* `IsLatest`: the write a reader should see among them (`IsLatest.unique`: there is one);
* `Reflects.run`: the invariant every run keeps, from which `reflects_replay` reads off what a
  key holds after any history, and `slot_le_foldl` that its slot never decreases until dropped;
* `putBatch_snd`: a batch applies exactly the entries whose key admitted its slot beforehand.
-/

namespace PerpClient.SlotCache

variable {κ α : Type} [DecidableEq κ]

/-! ## 1. Operations and histories -/

/-- An operation that changes a cache. -/
inductive Op (κ α : Type) where
  | put (k : κ) (v : α) (slot : UInt64)
  | putBatch (batch : List (κ × α)) (slot : UInt64)
  | remove (k : κ)
  | clear

/-- The keys an operation names; `clear` names none, though it empties the cache. -/
def Op.keys : Op κ α → List κ
  | .put k _ _ => [k]
  | .putBatch batch _ => batch.map (·.1)
  | .remove k => [k]
  | .clear => []

/-- The operation drops `k`: it removes `k`, or clears the cache. -/
def Op.Drops (k : κ) : Op κ α → Prop
  | .remove k' => k' = k
  | .clear => True
  | _ => False

/-- The cache after one operation. -/
def perform (c : SlotCache κ α) : Op κ α → SlotCache κ α
  | .put k v slot => (c.put k v slot).1
  | .putBatch batch slot => (c.putBatch batch slot).1
  | .remove k => (c.remove k).1
  | .clear => empty

/-- The cache a history of operations leaves, from a new one. -/
def replay (ops : List (Op κ α)) : SlotCache κ α := ops.foldl perform empty

/-- The writes of `k` since it was last dropped, after one more operation. -/
def logWrites (k : κ) (ws : List (α × UInt64)) : Op κ α → List (α × UInt64)
  | .put k' v slot => if k' = k then ws ++ [(v, slot)] else ws
  | .putBatch batch slot => ws ++ (batch.filter (·.1 = k)).map fun e => (e.2, slot)
  | .remove k' => if k' = k then [] else ws
  | .clear => []

/-- The writes of `k` in a history since `k` was last removed or the cache cleared, in order. -/
def writesSince (k : κ) (ops : List (Op κ α)) : List (α × UInt64) :=
  ops.foldl (logWrites k) []

/-- `e` is the write a reader should see among `ws`: it is one of them, none has a higher slot,
and every write after it has a lower one, so of the writes at the highest slot it is the last. -/
def IsLatest (ws : List (α × UInt64)) (e : Stamped α) : Prop :=
  ∃ pre post, ws = pre ++ (e.data, e.slot) :: post ∧
    (∀ w ∈ pre, w.2 ≤ e.slot) ∧ ∀ w ∈ post, w.2 < e.slot

/-- What a cache answers for a key agrees with the writes since the key was dropped: nothing
when there are none, else the latest of them. -/
def Reflects (ws : List (α × UInt64)) : Option (Stamped α) → Prop
  | none => ws = []
  | some e => IsLatest ws e

/-! ## 2. The cache's own operations, key by key -/

theorem admits_eq_all (c : SlotCache κ α) (k : κ) (slot : UInt64) :
    c.admits k slot = (c.get? k).all (·.slot ≤ slot) := by
  unfold admits
  cases c.get? k <;> rfl

/-- A write answers whether it applied, which is whether the key admitted its slot. -/
theorem put_snd (c : SlotCache κ α) (k : κ) (v : α) (slot : UInt64) :
    (c.put k v slot).2 = c.admits k slot := by
  unfold put
  by_cases h : c.admits k slot
  · simp only [h, if_true]
    split <;> rfl
  · simp [h]

/-- A write at a slot leaves every key admitting that slot as it did: the written key held a
slot no newer before, and holds the slot itself after. -/
theorem admits_put (c : SlotCache κ α) (k k' : κ) (v : α) (slot : UInt64) :
    (c.put k v slot).1.admits k' slot = c.admits k' slot := by
  by_cases hk : k' = k
  · subst hk
    by_cases ha : c.admits k' slot
    · rw [ha, admits_eq_all, get?_put, if_pos ha]
      simp
    · rw [admits_eq_all, get?_put, if_neg ha, ← admits_eq_all]
  · rw [admits_eq_all, get?_put_of_ne _ _ _ _ _ hk, ← admits_eq_all]

@[simp] theorem get?_empty (k : κ) : (empty : SlotCache κ α).get? k = none := rfl

theorem get?_remove_self (c : SlotCache κ α) (k : κ) : (c.remove k).1.get? k = none := by
  simp [remove, get?, List.find?_filter]

theorem get?_remove_of_ne (c : SlotCache κ α) (k k' : κ) (h : k' ≠ k) :
    (c.remove k).1.get? k' = c.get? k' := by
  simp only [remove, get?, List.find?_filter]
  congr 2
  funext e
  by_cases he : e.1 = k' <;> simp_all

/-- The batch loop started from a count of `n` ends `n` above the batch's own count. -/
private theorem putBatch_from (batch : List (κ × α)) (slot : UInt64) (c : SlotCache κ α)
    (n : Nat) :
    batch.foldl (fun (acc : SlotCache κ α × Nat) (kv : κ × α) =>
      let (c', applied) := acc.1.put kv.1 kv.2 slot
      (c', if applied then acc.2 + 1 else acc.2)) (c, n) =
      ((c.putBatch batch slot).1, (c.putBatch batch slot).2 + n) := by
  induction batch generalizing c n with
  | nil => simp [putBatch]
  | cons kv rest ih =>
    simp only [putBatch, List.foldl_cons] at ih ⊢
    rw [ih, ih _ (if (c.put kv.1 kv.2 slot).2 then 0 + 1 else 0)]
    split
    · simp
      omega
    · simp

@[simp] theorem putBatch_nil (c : SlotCache κ α) (slot : UInt64) :
    c.putBatch [] slot = (c, 0) := rfl

/-- A batch is its first entry written, then the rest of the batch. -/
theorem putBatch_cons (c : SlotCache κ α) (kv : κ × α) (batch : List (κ × α))
    (slot : UInt64) :
    c.putBatch (kv :: batch) slot =
      (((c.put kv.1 kv.2 slot).1.putBatch batch slot).1,
        ((c.put kv.1 kv.2 slot).1.putBatch batch slot).2 +
          if c.admits kv.1 slot then 1 else 0) := by
  have h := putBatch_from batch slot (c.put kv.1 kv.2 slot).1 (if c.admits kv.1 slot then 1 else 0)
  rw [← h, ← put_snd c kv.1 kv.2 slot]
  simp only [putBatch, List.foldl_cons]

/-- A key absent from a batch keeps what it held. -/
theorem get?_putBatch_of_not_mem (c : SlotCache κ α) (batch : List (κ × α)) (slot : UInt64)
    (k : κ) (h : k ∉ batch.map (·.1)) : (c.putBatch batch slot).1.get? k = c.get? k := by
  induction batch generalizing c with
  | nil => rfl
  | cons kv rest ih =>
    simp only [List.map_cons, List.mem_cons, not_or] at h
    rw [putBatch_cons, ih _ h.2, get?_put_of_ne _ _ _ _ _ h.1]

/-- A batch applies exactly the entries whose key admitted the batch's slot before the batch:
an entry that applied leaves its key at that slot, so a later entry of the key applies too, and
one that did not leaves a newer slot in place. -/
theorem putBatch_snd (c : SlotCache κ α) (batch : List (κ × α)) (slot : UInt64) :
    (c.putBatch batch slot).2 = batch.countP fun kv => c.admits kv.1 slot := by
  induction batch generalizing c with
  | nil => rfl
  | cons kv rest ih =>
    rw [putBatch_cons]
    dsimp only
    rw [ih, List.countP_cons]
    congr 1
    apply List.countP_congr
    intro kv' _
    rw [admits_put]

example : (SlotCache.empty.put "a" 1 10 |>.1.put "b" 1 30 |>.1.putBatch
    [("a", 2), ("b", 2), ("c", 2)] 20).2 = 2 := by decide

/-! ## 3. The latest write -/

/-- Two ways of cutting one list around an element: the elements are the same, or one lies
after the other. -/
private theorem eq_or_mem_of_append_cons {β : Type} {pre post pre' post' : List β} {x y : β}
    (h : pre ++ x :: post = pre' ++ y :: post') : x = y ∨ y ∈ post ∨ x ∈ post' := by
  rcases List.append_eq_append_iff.mp h with ⟨as, rfl, h1⟩ | ⟨bs, rfl, h2⟩
  · cases as with
    | nil => exact .inl (List.cons.inj h1).1
    | cons a as =>
      simp only [List.cons_append, List.cons.injEq] at h1
      exact .inr (.inl (by simp [h1.2]))
  · cases bs with
    | nil => exact .inl (List.cons.inj h2).1.symm
    | cons b bs =>
      simp only [List.cons_append, List.cons.injEq] at h2
      exact .inr (.inr (by simp [h2.2]))

section Latest

variable {ws : List (α × UInt64)} {e e' : Stamped α}

theorem IsLatest.mem (h : IsLatest ws e) : (e.data, e.slot) ∈ ws := by
  obtain ⟨pre, post, rfl, -, -⟩ := h
  simp

/-- No write has a higher slot than the latest. -/
theorem IsLatest.slot_le (h : IsLatest ws e) : ∀ w ∈ ws, w.2 ≤ e.slot := by
  obtain ⟨pre, post, rfl, hpre, hpost⟩ := h
  intro w hw
  simp only [List.mem_append, List.mem_cons] at hw
  rcases hw with hw | rfl | hw
  · exact hpre w hw
  · exact UInt64.le_refl _
  · exact UInt64.le_of_lt (hpost w hw)

/-- The writes name one latest write. -/
theorem IsLatest.unique (h : IsLatest ws e) (h' : IsLatest ws e') : e = e' := by
  have hs : e.slot = e'.slot := UInt64.le_antisymm (h'.slot_le _ h.mem) (h.slot_le _ h'.mem)
  obtain ⟨pre, post, hws, -, hpost⟩ := h
  obtain ⟨pre', post', hws', -, hpost'⟩ := h'
  -- the two stand at one place: either one after the other would have a lower slot
  rcases eq_or_mem_of_append_cons (hws.symm.trans hws') with heq | hmem | hmem
  · cases e
    cases e'
    simp_all
  · exact absurd (hpost _ hmem) (by rw [hs]; exact UInt64.lt_irrefl _)
  · exact absurd (hpost' _ hmem) (by rw [← hs]; exact UInt64.lt_irrefl _)

/-- A write at a slot no lower than every earlier one is the latest. -/
theorem isLatest_append_of_le {v : α} {slot : UInt64} (h : ∀ w ∈ ws, w.2 ≤ slot) :
    IsLatest (ws ++ [(v, slot)]) ⟨v, slot⟩ :=
  ⟨ws, [], rfl, h, by simp⟩

/-- A write at a lower slot leaves the latest write as it was. -/
theorem IsLatest.append_of_lt {v : α} {slot : UInt64} (h : IsLatest ws e) (hlt : slot < e.slot) :
    IsLatest (ws ++ [(v, slot)]) e := by
  obtain ⟨pre, post, rfl, hpre, hpost⟩ := h
  refine ⟨pre, post ++ [(v, slot)], by simp, hpre, ?_⟩
  intro w hw
  simp only [List.mem_append, List.mem_singleton] at hw
  rcases hw with hw | rfl
  · exact hpost w hw
  · exact hlt

end Latest

/-! ## 4. The invariant of a run -/

section Run

variable {c : SlotCache κ α} {k : κ} {ws : List (α × UInt64)}

/-- A cache reflects the writes of a key: it answers nothing exactly when there are none. -/
theorem Reflects.eq_none_iff {r : Option (Stamped α)} (h : Reflects ws r) :
    r = none ↔ ws = [] := by
  cases r with
  | none => exact ⟨fun _ => h, (fun _ => rfl)⟩
  | some e =>
    refine ⟨(fun h' => nomatch h'), fun hws => ?_⟩
    have hm := IsLatest.mem h
    simp [hws] at hm

/-- A cache reflects the writes of a key: what it answers is their latest write. -/
theorem Reflects.eq_some_iff {r : Option (Stamped α)} (h : Reflects ws r) (e : Stamped α) :
    r = some e ↔ IsLatest ws e := by
  cases r with
  | none =>
    refine ⟨(fun h' => nomatch h'), fun ⟨pre, post, hws, _⟩ => ?_⟩
    have hws' : ws = [] := h
    simp [hws'] at hws
  | some e' =>
    refine ⟨(fun h' => ?_), fun he => ?_⟩
    · cases h'
      exact h
    · rw [IsLatest.unique h he]

/-- One write of the key keeps the invariant. -/
theorem Reflects.put (h : Reflects ws (c.get? k)) (v : α) (slot : UInt64) :
    Reflects (ws ++ [(v, slot)]) ((c.put k v slot).1.get? k) := by
  rw [get?_put]
  have ha := admits_eq_all c k slot
  by_cases hadm : c.admits k slot
  · rw [if_pos hadm]
    apply isLatest_append_of_le
    intro w hw
    cases hg : c.get? k with
    | none =>
      have hws : ws = [] := by rw [hg] at h; exact h
      simp [hws] at hw
    | some e =>
      rw [hg] at h ha
      exact UInt64.le_trans (h.slot_le w hw) (by simpa [hadm] using ha)
  · rw [if_neg hadm]
    cases hg : c.get? k with
    | none => simp [hg, hadm] at ha
    | some e =>
      rw [hg] at h ha
      exact h.append_of_lt (UInt64.not_le.mp (by simpa [hadm] using ha))

/-- Writing a batch keeps the invariant, the batch's entries of the key counting as writes one
after another at the batch's slot. -/
theorem Reflects.putBatch (h : Reflects ws (c.get? k)) (batch : List (κ × α)) (slot : UInt64) :
    Reflects (ws ++ (batch.filter (·.1 = k)).map fun e => (e.2, slot))
      ((c.putBatch batch slot).1.get? k) := by
  induction batch generalizing c ws with
  | nil => simpa using h
  | cons kv rest ih =>
    obtain ⟨k', v⟩ := kv
    rw [putBatch_cons]
    by_cases hk : k' = k
    · subst hk
      simpa using ih (h.put v slot)
    · have h' : Reflects ws ((c.put k' v slot).1.get? k) := by
        rw [get?_put_of_ne _ _ _ _ _ (Ne.symm hk)]
        exact h
      simpa [hk] using ih h'

/-- **The step lemma**: every operation keeps the invariant. -/
theorem Reflects.step (h : Reflects ws (c.get? k)) (op : Op κ α) :
    Reflects (logWrites k ws op) ((c.perform op).get? k) := by
  cases op with
  | put k' v slot =>
    by_cases hk : k' = k
    · subst hk
      simpa [logWrites, perform] using h.put v slot
    · simpa [logWrites, perform, hk, get?_put_of_ne _ _ _ _ _ (Ne.symm hk)] using h
  | putBatch batch slot => exact h.putBatch batch slot
  | remove k' =>
    by_cases hk : k' = k
    · subst hk
      simp [logWrites, perform, get?_remove_self, Reflects]
    · simpa [logWrites, perform, hk, get?_remove_of_ne _ _ _ (Ne.symm hk)] using h
  | clear => simp [logWrites, perform, Reflects]

/-- **The run lemma**: every run keeps the invariant. -/
theorem Reflects.run (h : Reflects ws (c.get? k)) (ops : List (Op κ α)) :
    Reflects (ops.foldl (logWrites k) ws) ((ops.foldl perform c).get? k) := by
  induction ops generalizing c ws with
  | nil => exact h
  | cons op rest ih => exact ih (h.step op)

end Run

/-- A history from a new cache reflects, key by key, the writes since the key was dropped. -/
theorem reflects_replay (ops : List (Op κ α)) (k : κ) :
    Reflects (writesSince k ops) ((replay ops).get? k) :=
  Reflects.run (show Reflects [] ((empty : SlotCache κ α).get? k) from rfl) ops

example : (replay [.put 1 5 50, .put 1 7 50, .put 1 9 40] : SlotCache Nat Nat).get? 1 =
    some ⟨7, 50⟩ := by decide

/-- Until `k` is dropped, its writes only grow. -/
theorem foldl_logWrites_of_no_drop {k : κ} (ws : List (α × UInt64)) (ops : List (Op κ α))
    (h : ∀ op ∈ ops, ¬ op.Drops k) : ∃ more, ops.foldl (logWrites k) ws = ws ++ more := by
  induction ops generalizing ws with
  | nil => exact ⟨[], by simp⟩
  | cons op rest ih =>
    have hop := h op List.mem_cons_self
    have hstep : ∃ more, logWrites k ws op = ws ++ more := by
      cases op with
      | put k' v slot => by_cases hk : k' = k <;> simp [logWrites, hk]
      | putBatch batch slot => exact ⟨_, rfl⟩
      | remove k' =>
        have hk : k' ≠ k := hop
        exact ⟨[], by simp [logWrites, hk]⟩
      | clear => exact absurd trivial hop
    obtain ⟨m1, h1⟩ := hstep
    obtain ⟨m2, h2⟩ := ih (logWrites k ws op) fun op' h' => h op' (List.mem_cons_of_mem _ h')
    exact ⟨m1 ++ m2, by rw [List.foldl_cons, h2, h1, List.append_assoc]⟩

/-- Until `k` is dropped, the slot it holds never decreases, whatever the cache held before. -/
theorem slot_le_foldl (c : SlotCache κ α) (ops : List (Op κ α)) (k : κ) (e : Stamped α)
    (hops : ∀ op ∈ ops, ¬ op.Drops k) (he : c.get? k = some e) :
    ∃ e', (ops.foldl perform c).get? k = some e' ∧ e.slot ≤ e'.slot := by
  have h0 : Reflects [(e.data, e.slot)] (c.get? k) := by
    rw [he]
    exact ⟨[], [], rfl, by simp, by simp⟩
  have hrun := h0.run ops
  obtain ⟨more, hmore⟩ := foldl_logWrites_of_no_drop [(e.data, e.slot)] ops hops
  rw [hmore] at hrun
  cases hr : (ops.foldl perform c).get? k with
  | none =>
    rw [hr] at hrun
    simp [Reflects] at hrun
  | some e' =>
    have hl : IsLatest ([(e.data, e.slot)] ++ more) e' := by rw [hr] at hrun; exact hrun
    exact ⟨e', rfl, hl.slot_le (e.data, e.slot) (by simp)⟩

/-- An operation other than a clear leaves every key it does not name as it was. -/
theorem get?_perform_of_not_mem (c : SlotCache κ α) (op : Op κ α) (k : κ) (hop : op ≠ .clear)
    (h : k ∉ op.keys) : (c.perform op).get? k = c.get? k := by
  cases op with
  | put k' v slot =>
    simp only [Op.keys, List.mem_singleton] at h
    exact get?_put_of_ne _ _ _ _ _ h
  | putBatch batch slot => exact get?_putBatch_of_not_mem c batch slot k h
  | remove k' =>
    simp only [Op.keys, List.mem_singleton] at h
    exact get?_remove_of_ne _ _ _ h
  | clear => exact absurd rfl hop

/-! ## 5. The cache's contract -/

/-- **The slot-stamped cache.** After any history of operations, a key holds nothing when it has
not been written since it was last removed or the cache cleared, and otherwise the latest of
those writes: the highest slot, the last writer on a tie. Until a key is dropped its slot never
decreases; a write answers whether the key was absent or held a slot no newer; a batch answers
how many of its entries so applied; and only a clear changes a key an operation does not name. -/
theorem history_contract :
    (∀ (ops : List (Op κ α)) (k : κ),
      ((replay ops).get? k = none ↔ writesSince k ops = []) ∧
      ∀ e, (replay ops).get? k = some e ↔ IsLatest (writesSince k ops) e) ∧
    (∀ (c : SlotCache κ α) (ops : List (Op κ α)) (k : κ) (e : Stamped α),
      (∀ op ∈ ops, ¬ op.Drops k) → c.get? k = some e →
      ∃ e', (ops.foldl perform c).get? k = some e' ∧ e.slot ≤ e'.slot) ∧
    (∀ (c : SlotCache κ α) (k : κ) (v : α) (slot : UInt64),
      (c.put k v slot).2 = (c.get? k).all (·.slot ≤ slot)) ∧
    (∀ (c : SlotCache κ α) (batch : List (κ × α)) (slot : UInt64),
      (c.putBatch batch slot).2 = batch.countP fun kv => (c.get? kv.1).all (·.slot ≤ slot)) ∧
    (∀ (c : SlotCache κ α) (op : Op κ α) (k : κ),
      op ≠ .clear → k ∉ op.keys → (c.perform op).get? k = c.get? k) := by
  refine ⟨fun ops k => ?_, slot_le_foldl, fun c k v slot => ?_, fun c batch slot => ?_,
    get?_perform_of_not_mem⟩
  · have h := reflects_replay ops k
    exact ⟨h.eq_none_iff, h.eq_some_iff⟩
  · rw [put_snd, admits_eq_all]
  · simp only [putBatch_snd, admits_eq_all]

end PerpClient.SlotCache
