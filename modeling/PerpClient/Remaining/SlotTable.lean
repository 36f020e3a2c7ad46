import PerpClient.Ordered
/-!
# The last-active slot table

For each perp and each spot market, the latest slot at which a confirmed transaction made the
market matter to the active user. Recording keeps the maximum, so the table never moves back
in time. Once the user's own snapshot is at least as new as an entry, the snapshot already
shows that market and the entry is evicted (`retainNewerThan`).

Each side lists its markets in strictly ascending index order, and a table carries the proof:
recording inserts by index (`keysAscending_insert`) and evicting only drops entries.

* `perpSlot_recordPerp`: recording answers the maximum of the old and the new slot.
-/

namespace PerpClient

namespace SlotTable

/-- One side of a table, its market indexes strictly ascending. -/
def KeysAscending {α : Type} (side : List (UInt16 × α)) : Prop :=
  side.Pairwise fun a b => a.1 < b.1

instance decidableKeysAscending {α : Type} (side : List (UInt16 × α)) :
    Decidable (KeysAscending side) :=
  inferInstanceAs (Decidable (side.Pairwise fun a b => a.1 < b.1))

/-- Inserting by index keeps the indexes strictly ascending. -/
theorem keysAscending_insert {α : Type} {side : List (UInt16 × α)} (h : KeysAscending side)
    (k : UInt16) (v : α) : KeysAscending (Ordered.insert compareIndex k v side) := by
  -- ascending indexes are a map sorted under `compareIndex`, a strict total order
  have hsorted : Ordered.Sorted compareIndex side := h.imp compareIndex_lt_iff.mpr
  have htrans : ∀ {a b c : UInt16}, compareIndex a b = .lt → compareIndex b c = .lt →
      compareIndex a c = .lt := fun hab hbc =>
    compareIndex_lt_iff.mpr
      (UInt16.lt_trans (compareIndex_lt_iff.mp hab) (compareIndex_lt_iff.mp hbc))
  exact (hsorted.insert (fun _ _ => compareIndex_eq_iff) compareIndex_swap htrans k v).imp
    compareIndex_lt_iff.mp

end SlotTable

/-- Slots by market index, each side in strictly ascending index order. -/
structure SlotTable where
  perp : List (UInt16 × UInt64)
  spot : List (UInt16 × UInt64)
  perp_ascending : SlotTable.KeysAscending perp
  spot_ascending : SlotTable.KeysAscending spot
  deriving DecidableEq

namespace SlotTable

/-- The empty table. -/
def empty : SlotTable := ⟨[], [], .nil, .nil⟩

instance inhabitedSlotTable : Inhabited SlotTable := ⟨empty⟩

/-- Raises a side's slot for a market to at least `slot`. -/
def raise (side : List (UInt16 × UInt64)) (i : UInt16) (slot : UInt64) : List (UInt16 × UInt64) :=
  Ordered.insert compareIndex i (max ((Ordered.find? compareIndex i side).getD 0) slot) side

/-- Records that a perp market mattered at `slot`. -/
def recordPerp (t : SlotTable) (i : UInt16) (slot : UInt64) : SlotTable :=
  { t with perp := raise t.perp i slot, perp_ascending := keysAscending_insert t.perp_ascending _ _ }

/-- Records that a spot market mattered at `slot`. -/
def recordSpot (t : SlotTable) (i : UInt16) (slot : UInt64) : SlotTable :=
  { t with spot := raise t.spot i slot, spot_ascending := keysAscending_insert t.spot_ascending _ _ }

/-- Records that the given perp markets, then the given spot markets, mattered at `slot`. -/
def stamp (t : SlotTable) (perps spots : List UInt16) (slot : UInt64) : SlotTable :=
  spots.foldl (fun t i => t.recordSpot i slot) (perps.foldl (fun t i => t.recordPerp i slot) t)

/-- The slot of a perp market. -/
def perpSlot (t : SlotTable) (i : UInt16) : Option UInt64 := Ordered.find? compareIndex i t.perp

/-- The slot of a spot market. -/
def spotSlot (t : SlotTable) (i : UInt16) : Option UInt64 := Ordered.find? compareIndex i t.spot

/-- Whether nothing is recorded. -/
def isEmpty (t : SlotTable) : Bool := t.perp.isEmpty && t.spot.isEmpty

/-- Keeps only the entries newer than the user's snapshot; answers the table and the perp and
spot indexes that remain, ascending. -/
def retainNewerThan (t : SlotTable) (userSlot : UInt64) :
    SlotTable × List UInt16 × List UInt16 :=
  let perp := t.perp.filter fun e => userSlot < e.2
  let spot := t.spot.filter fun e => userSlot < e.2
  (⟨perp, spot, t.perp_ascending.filter _, t.spot_ascending.filter _⟩, perp.map (·.1),
    spot.map (·.1))

/-- Recording answers the maximum of the old and the new slot. -/
theorem perpSlot_recordPerp (t : SlotTable) (i : UInt16) (slot : UInt64) :
    (t.recordPerp i slot).perpSlot i = some (max ((t.perpSlot i).getD 0) slot) := by
  simp [recordPerp, perpSlot, raise, Ordered.find?_insert_self compareIndex compareIndex_self]

end SlotTable

end PerpClient
