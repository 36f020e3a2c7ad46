/-!
# Ordered association lists

A map kept as a list of pairs in ascending key order under a comparison `cmp`, at most one pair
per key. This is the order a search tree would list its entries in, so walking the list is
walking the map in key order.

* `Ordered.insert` puts a key in its place, replacing the pair of an equal key;
* `Ordered.ofList` builds a map from pairs, a later pair of a key winning;
* `Ordered.find?_insert_self`: a key holds what was last inserted for it;
* `Ordered.contains_iff`: a key is present when some pair's key compares equal to it.
-/

namespace PerpClient.Ordered

variable {κ α : Type}

/-- Inserts a pair in key order; a pair with an equal key is replaced. -/
def insert (cmp : κ → κ → Ordering) (k : κ) (v : α) : List (κ × α) → List (κ × α)
  | [] => [(k, v)]
  | (k', v') :: rest =>
    match cmp k k' with
    | .lt => (k, v) :: (k', v') :: rest
    | .eq => (k, v) :: rest
    | .gt => (k', v') :: insert cmp k v rest

/-- The value of a key. -/
def find? (cmp : κ → κ → Ordering) (k : κ) : List (κ × α) → Option α
  | [] => none
  | (k', v') :: rest => if cmp k k' = .eq then some v' else find? cmp k rest

/-- Whether a key is present. -/
def contains (cmp : κ → κ → Ordering) (k : κ) (m : List (κ × α)) : Bool := (find? cmp k m).isSome

/-- A key is present exactly when some pair's key compares equal to it. -/
theorem contains_iff (cmp : κ → κ → Ordering) (k : κ) (m : List (κ × α)) :
    contains cmp k m = true ↔ ∃ p ∈ m, cmp k p.1 = .eq := by
  unfold contains
  induction m with
  | nil => simp [find?]
  | cons p rest ih =>
    obtain ⟨k', v'⟩ := p
    by_cases h : cmp k k' = .eq
    · simp [find?, h]
    · simp [find?, h, ih]

/-- The map of a list of pairs; of two pairs with one key, the later one stays. -/
def ofList (cmp : κ → κ → Ordering) (pairs : List (κ × α)) : List (κ × α) :=
  pairs.foldl (fun m (kv : κ × α) => insert cmp kv.1 kv.2 m) []

/-- Sets a key to `f` of what it holds. -/
def alter (cmp : κ → κ → Ordering) (k : κ) (f : Option α → α) (m : List (κ × α)) : List (κ × α) :=
  insert cmp k (f (find? cmp k m)) m

/-- Removes a key. -/
def erase (cmp : κ → κ → Ordering) (k : κ) (m : List (κ × α)) : List (κ × α) :=
  m.filter fun e => cmp k e.1 ≠ .eq

/-- A key holds what was last inserted for it, when `cmp` knows every key equal to itself. -/
theorem find?_insert_self (cmp : κ → κ → Ordering) (hrefl : ∀ k, cmp k k = .eq)
    (k : κ) (v : α) (m : List (κ × α)) : find? cmp k (insert cmp k v m) = some v := by
  induction m with
  | nil => simp [insert, find?, hrefl]
  | cons kv rest ih =>
    obtain ⟨k', v'⟩ := kv
    simp only [insert]
    split <;> simp_all [find?]

/-- A pair of a map after an insertion is the inserted one or one that was there. -/
theorem mem_insert (cmp : κ → κ → Ordering) (k : κ) (v : α) (m : List (κ × α)) {e : κ × α}
    (he : e ∈ insert cmp k v m) : e = (k, v) ∨ e ∈ m := by
  induction m with
  | nil => simpa [insert] using he
  | cons kv rest ih =>
    obtain ⟨k', v'⟩ := kv
    simp only [insert] at he
    split at he
    · simpa using he
    · simp only [List.mem_cons] at he ⊢
      rcases he with rfl | he
      · exact .inl rfl
      · exact .inr (.inr he)
    · simp only [List.mem_cons] at he ⊢
      rcases he with rfl | he
      · exact .inr (.inl rfl)
      · rcases ih he with h | h
        · exact .inl h
        · exact .inr (.inr h)

/-- A map whose keys strictly ascend under `cmp`: the order `insert` keeps. -/
def Sorted (cmp : κ → κ → Ordering) (m : List (κ × α)) : Prop :=
  m.Pairwise fun a b => cmp a.1 b.1 = .lt

/-- **Insertion keeps a map sorted**, under a comparison that is a strict total order: only
equal keys compare equal, the comparison turns around with its arguments, and `.lt` chains. -/
theorem Sorted.insert {cmp : κ → κ → Ordering} (hcmp : ∀ a b, cmp a b = .eq ↔ a = b)
    (hswap : ∀ a b, cmp b a = (cmp a b).swap)
    (htrans : ∀ {a b c}, cmp a b = .lt → cmp b c = .lt → cmp a c = .lt)
    {m : List (κ × α)} (h : Sorted cmp m) (k : κ) (v : α) :
    Sorted cmp (Ordered.insert cmp k v m) := by
  induction m with
  | nil => exact List.pairwise_singleton _ _
  | cons kv rest ih =>
    obtain ⟨k', v'⟩ := kv
    unfold Sorted at h ih ⊢
    rw [List.pairwise_cons] at h
    simp only [Ordered.insert]
    split
    · rename_i hlt
      refine List.pairwise_cons.mpr ⟨fun e he => ?_, List.pairwise_cons.mpr h⟩
      rcases List.mem_cons.mp he with rfl | he
      · exact hlt
      · exact htrans hlt (h.1 e he)
    · rename_i heq
      obtain rfl := (hcmp k k').mp heq
      exact List.pairwise_cons.mpr h
    · rename_i hgt
      have hlt : cmp k' k = .lt := by rw [hswap, hgt]; rfl
      refine List.pairwise_cons.mpr ⟨fun e he => ?_, ih h.2⟩
      rcases mem_insert cmp k v rest he with rfl | he
      · exact hlt
      · exact h.1 e he

/-- In a sorted map, the only pair of a key after inserting it is the inserted one. -/
theorem Sorted.eq_of_mem_insert {cmp : κ → κ → Ordering} (hcmp : ∀ a b, cmp a b = .eq ↔ a = b)
    (hswap : ∀ a b, cmp b a = (cmp a b).swap) {m : List (κ × α)} (h : Sorted cmp m) {k : κ}
    {v : α} {e : κ × α} (he : e ∈ Ordered.insert cmp k v m) (hk : e.1 = k) : e = (k, v) := by
  have hrefl : cmp k k = .eq := (hcmp k k).mpr rfl
  induction m with
  | nil => simpa [Ordered.insert] using he
  | cons kv rest ih =>
    obtain ⟨k', v'⟩ := kv
    unfold Sorted at h ih
    rw [List.pairwise_cons] at h
    simp only [Ordered.insert] at he
    split at he
    · rename_i hlt
      rcases List.mem_cons.mp he with rfl | he
      · rfl
      rcases List.mem_cons.mp he with rfl | he
      · obtain rfl : k' = k := hk
        rw [hrefl] at hlt
        cases hlt
      · have h1 := h.1 e he
        rw [hk, hswap, hlt] at h1
        cases h1
    · rename_i heq
      rcases List.mem_cons.mp he with rfl | he
      · rfl
      · have h1 := h.1 e he
        rw [hk, hswap, heq] at h1
        cases h1
    · rename_i hgt
      rcases List.mem_cons.mp he with rfl | he
      · obtain rfl : k' = k := hk
        rw [hrefl] at hgt
        cases hgt
      · exact ih h.2 he

end PerpClient.Ordered

namespace PerpClient

/-- Compares market indexes. -/
def compareIndex (a b : UInt16) : Ordering := compare a.toNat b.toNat

theorem compareIndex_self (i : UInt16) : compareIndex i i = .eq := by simp [compareIndex]

theorem compareIndex_eq_iff {a b : UInt16} : compareIndex a b = .eq ↔ a = b := by
  simp [compareIndex, UInt16.toNat_inj]

theorem compareIndex_lt_iff {a b : UInt16} : compareIndex a b = .lt ↔ a < b := by
  simp [compareIndex, Nat.compare_eq_lt, UInt16.lt_iff_toNat_lt]

theorem compareIndex_swap (a b : UInt16) : compareIndex b a = (compareIndex a b).swap :=
  Std.OrientedOrd.eq_swap

end PerpClient
