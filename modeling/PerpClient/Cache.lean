/-!
# The slot-stamped cache

A map from keys to values, each stamped with the ledger slot it was observed at. A write is
applied exactly when its slot is at least the stored one, so two sources of updates racing on
a key can never move it back in time; a write at the stored slot wins (the last writer). A batch
is applied entry by entry, all at the batch's slot.

* `SlotCache.get?` is the view every operation is described by;
* `get?_put`: after a write, the key holds the new value iff the write applied, and
  `get?_put_of_ne`: other keys are untouched.
-/

namespace PerpClient

/-- A value with the slot it was observed at. -/
structure Stamped (α : Type) where
  data : α
  slot : UInt64
  deriving DecidableEq, Inhabited

/-- The stamped value with its data changed. -/
def Stamped.map {α β : Type} (f : α → β) (s : Stamped α) : Stamped β := ⟨f s.data, s.slot⟩

/-- Keys with stamped values, at most one entry per key, in the order keys were first written. -/
structure SlotCache (κ α : Type) where
  entries : List (κ × Stamped α)

namespace SlotCache

variable {κ α : Type} [DecidableEq κ]

/-- The empty cache. -/
def empty : SlotCache κ α := ⟨[]⟩

instance : Inhabited (SlotCache κ α) := ⟨empty⟩

/-- The stamped value of a key. -/
def get? (c : SlotCache κ α) (k : κ) : Option (Stamped α) :=
  (c.entries.find? (·.1 = k)).map (·.2)

/-- Whether a write at `slot` applies: the key is absent or its slot is not newer. -/
def admits (c : SlotCache κ α) (k : κ) (slot : UInt64) : Bool :=
  match c.get? k with
  | some e => e.slot ≤ slot
  | none => true

/-- Writes `v` at `slot` if the write applies; answers whether it did. -/
def put (c : SlotCache κ α) (k : κ) (v : α) (slot : UInt64) : SlotCache κ α × Bool :=
  if c.admits k slot then
    match c.get? k with
    | some _ => (⟨c.entries.map fun e => if e.1 = k then (k, ⟨v, slot⟩) else e⟩, true)
    | none => (⟨c.entries ++ [(k, ⟨v, slot⟩)]⟩, true)
  else (c, false)

/-- Writes a batch entry by entry at one slot; answers how many writes applied. -/
def putBatch (c : SlotCache κ α) (batch : List (κ × α)) (slot : UInt64) : SlotCache κ α × Nat :=
  batch.foldl (fun (acc : SlotCache κ α × Nat) (kv : κ × α) =>
    let (c', applied) := acc.1.put kv.1 kv.2 slot
    (c', if applied then acc.2 + 1 else acc.2)) (c, 0)

/-- The stamped values of several keys. -/
def getMany (c : SlotCache κ α) (ks : List κ) : List (Option (Stamped α)) := ks.map c.get?

/-- Whether a key is present. -/
def contains (c : SlotCache κ α) (k : κ) : Bool := (c.get? k).isSome

/-- Removes a key; answers what it held. -/
def remove (c : SlotCache κ α) (k : κ) : SlotCache κ α × Option (Stamped α) :=
  (⟨c.entries.filter (·.1 ≠ k)⟩, c.get? k)

/-- The number of keys. -/
def size (c : SlotCache κ α) : Nat := c.entries.length

/-- Whether the cache holds nothing. -/
def isEmpty (c : SlotCache κ α) : Bool := c.entries.isEmpty

/-- Every key with its stamped value. -/
def toList (c : SlotCache κ α) : List (κ × Stamped α) := c.entries

theorem get?_map_eq (entries : List (κ × Stamped α)) (k : κ) (s : Stamped α) :
    (entries.map fun e => if e.1 = k then (k, s) else e).find? (·.1 = k) =
      (entries.find? (·.1 = k)).map fun _ => (k, s) := by
  induction entries with
  | nil => rfl
  | cons e rest ih =>
    by_cases h : e.1 = k
    · simp [h]
    · simp [h, ih]

theorem find?_map_of_ne (entries : List (κ × Stamped α)) (k k' : κ) (s : Stamped α)
    (h : k' ≠ k) :
    (entries.map fun e => if e.1 = k then (k, s) else e).find? (·.1 = k') =
      entries.find? (·.1 = k') := by
  induction entries with
  | nil => rfl
  | cons e rest ih =>
    by_cases he : e.1 = k
    · simp [he, ih, Ne.symm h]
    · simp only [List.map_cons, he, if_false, List.find?_cons, ih]

/-- After a write the key holds the written value iff the write applied. -/
theorem get?_put (c : SlotCache κ α) (k : κ) (v : α) (slot : UInt64) :
    (c.put k v slot).1.get? k = if c.admits k slot then some ⟨v, slot⟩ else c.get? k := by
  unfold put
  by_cases ha : c.admits k slot
  · simp only [ha, if_true]
    cases hg : c.get? k with
    | some e =>
      simp only [get?] at hg ⊢
      rw [get?_map_eq]
      cases hf : c.entries.find? (·.1 = k) with
      | none => simp [hf] at hg
      | some x => simp
    | none =>
      simp only [get?] at hg ⊢
      rw [List.find?_append]
      simp only [Option.map_eq_none_iff] at hg
      simp [hg]
  · simp [ha]

/-- A write leaves every other key alone. -/
theorem get?_put_of_ne (c : SlotCache κ α) (k k' : κ) (v : α) (slot : UInt64) (h : k' ≠ k) :
    (c.put k v slot).1.get? k' = c.get? k' := by
  unfold put
  by_cases ha : c.admits k slot
  · simp only [ha, if_true]
    cases c.get? k with
    | some _ =>
      simp only [get?]
      congr 1
      exact find?_map_of_ne c.entries k k' ⟨v, slot⟩ h
    | none =>
      simp only [get?, List.find?_append]
      cases hf : c.entries.find? (·.1 = k') with
      | some _ => simp
      | none => simp [Ne.symm h]
  · simp [ha]

end SlotCache

end PerpClient
