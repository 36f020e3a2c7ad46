import PerpClient.Proofs.SessionFrame
import PerpClient.Proofs.AccountOrder
import PerpClient.Proofs.ResolveOutcome
/-!
# The last-active table over a history of sends and resolutions

A confirmed send stamps the markets it names with its slot, keeping the larger of the old and
the new slot; a resolution that reaches the table step with its user snapshot at slot `u`
evicts every entry at most `u`. Over any history of the two (`SlotTable.Event`), a market's
entry is the largest slot among the confirmed sends that named it since the last resolution
that evicted it, and there is no entry when no such send exists (`slotOf_run`). A send that
fails records nothing, and confirmed sends recorded in another order leave the same table
(`run_perm`).

Everything else the session does, loading, watching, polling and sending, leaves the table
alone (`Session.keeps_send`, `Session.keeps_settle`), so the calls a client makes are such a
history (`Session.runCalls_slotTable`).

* `slotOf_stamp`, `slotOf_retainNewerThan`: what a send and an eviction do to one entry;
* `slotOf_apply`: the step lemma; `slotOf_run_of_neverEvicts` its run;
* `ext_of_slotOf`: a table is determined by its entries.
-/

namespace PerpClient

/-! ## 1. The largest of a list of slots -/

/-- Of two slots the larger is one of them, and it is at most a bound exactly when both are; so
`List.max?` of slots is a member that bounds every other (`List.max?_eq_some_iff`). -/
instance lawfulOrderMax_uint64 : Std.LawfulOrderMax UInt64 := by
  apply Std.LawfulOrderMax.of_max_le_iff
  · intro a b c
    simp only [max, UInt64.le_iff_toNat_le]
    split <;> omega
  · intro a b
    simp only [max]
    split <;> simp

/-- The largest of a list, put before more entries, leaves the largest of them all. -/
theorem max?_toList_append {α : Type} [Max α] (xs ys : List α) :
    (xs.max?.toList ++ ys).max? = (xs ++ ys).max? := by
  cases xs with
  | nil => rfl
  | cons a as => simp [List.max?, List.foldl_append]

theorem max?_toList (o : Option UInt64) : o.toList.max? = o := by
  cases o <;> rfl

/-- One more slot raises the largest to at least that slot. -/
theorem max?_toList_append_singleton (o : Option UInt64) (slot : UInt64) :
    (o.toList ++ [slot]).max? = some (max (o.getD 0) slot) := by
  cases o with
  | none =>
    have h0 : max 0 slot = slot := by simp [max, UInt64.le_iff_toNat_le]
    simp [h0]
  | some v => rfl

/-- The largest slot does not depend on the order of the list. -/
theorem max?_perm {xs ys : List UInt64} (h : xs.Perm ys) : xs.max? = ys.max? := by
  cases hx : xs.max? with
  | none =>
    have hnil : xs = [] := List.max?_eq_none_iff.mp hx
    subst hnil
    rw [← h.nil_eq]
    rfl
  | some v =>
    obtain ⟨hv, hbound⟩ := List.max?_eq_some_iff.mp hx
    exact (List.max?_eq_some_iff.mpr ⟨h.mem_iff.mp hv, fun w hw => hbound w (h.mem_iff.mpr hw)⟩).symm

/-! ## 2. Looking up a market on one side -/

namespace SlotTable

section Side

variable {α : Type}

@[simp] theorem find?_cons_self (i : UInt16) (v : α) (rest : List (UInt16 × α)) :
    Ordered.find? compareIndex i ((i, v) :: rest) = some v := by
  simp [Ordered.find?, compareIndex_self]

@[simp] theorem find?_cons_of_ne {i k : UInt16} (h : i ≠ k) (v : α) (rest : List (UInt16 × α)) :
    Ordered.find? compareIndex i ((k, v) :: rest) = Ordered.find? compareIndex i rest := by
  simp [Ordered.find?, compareIndex_eq_iff, h]

/-- Inserting a market leaves every other market's value. -/
theorem find?_insert_of_ne {j k : UInt16} (h : j ≠ k) (v : α) (m : List (UInt16 × α)) :
    Ordered.find? compareIndex j (Ordered.insert compareIndex k v m) =
      Ordered.find? compareIndex j m := by
  induction m with
  | nil => simp [Ordered.insert, h]
  | cons kv rest ih =>
    obtain ⟨k', v'⟩ := kv
    simp only [Ordered.insert]
    split
    · simp [h]
    · rename_i heq
      obtain rfl : k = k' := compareIndex_eq_iff.mp heq
      simp [h]
    · by_cases hj : j = k'
      · subst hj
        simp
      · simp [hj, ih]

/-- A market below every market of a side is not on it. -/
theorem find?_eq_none_of_lt {i : UInt16} {m : List (UInt16 × α)} (h : ∀ e ∈ m, i < e.1) :
    Ordered.find? compareIndex i m = none := by
  induction m with
  | nil => rfl
  | cons kv rest ih =>
    obtain ⟨k, v⟩ := kv
    have hne : i ≠ k := UInt16.ne_of_lt (h (k, v) List.mem_cons_self)
    rw [find?_cons_of_ne hne]
    exact ih fun e he => h e (List.mem_cons_of_mem _ he)

/-- A market below the first of an ascending side is not on it. -/
theorem find?_cons_eq_none_of_lt {i k : UInt16} {v : α} {rest : List (UInt16 × α)}
    (hrest : ∀ e ∈ rest, k < e.1) (hlt : i < k) :
    Ordered.find? compareIndex i ((k, v) :: rest) = none :=
  find?_eq_none_of_lt fun e he => by
    rcases List.mem_cons.mp he with rfl | he
    · exact hlt
    · exact UInt16.lt_trans hlt (hrest e he)

/-- On an ascending side, keeping the pairs whose value passes a test looks up as the old value,
if it passes. -/
theorem find?_filter {m : List (UInt16 × α)} (hm : KeysAscending m) (p : α → Bool) (i : UInt16) :
    Ordered.find? compareIndex i (m.filter fun e => p e.2) =
      (Ordered.find? compareIndex i m).filter p := by
  induction m with
  | nil => rfl
  | cons kv rest ih =>
    obtain ⟨k, v⟩ := kv
    rw [KeysAscending, List.pairwise_cons] at hm
    have ih := ih hm.2
    by_cases hi : i = k
    · subst hi
      have hnone : Ordered.find? compareIndex i rest = none := find?_eq_none_of_lt hm.1
      by_cases hp : p v = true
      · simp [hp, Option.filter_some]
      · simp [hp, ih, hnone, Option.filter_some]
    · by_cases hp : p v = true
      · simp [hp, hi, ih]
      · simp [hp, hi, ih]

/-- Two ascending sides that look up alike are equal. -/
theorem eq_of_find? {a b : List (UInt16 × α)} (ha : KeysAscending a) (hb : KeysAscending b)
    (h : ∀ i, Ordered.find? compareIndex i a = Ordered.find? compareIndex i b) : a = b := by
  induction a generalizing b with
  | nil =>
    cases b with
    | nil => rfl
    | cons kv rest =>
      obtain ⟨k, v⟩ := kv
      simpa [Ordered.find?, compareIndex_self] using h k
  | cons kv ra ih =>
    obtain ⟨k, v⟩ := kv
    cases b with
    | nil => simpa [Ordered.find?, compareIndex_self] using h k
    | cons kv' rb =>
      obtain ⟨k', v'⟩ := kv'
      rw [KeysAscending, List.pairwise_cons] at ha hb
      -- the smaller of two different first markets would be missing from the other side
      have hk : k = k' := by
        by_contra hne
        rcases UInt16.lt_or_lt_of_ne hne with hlt | hgt
        · simpa [find?_cons_eq_none_of_lt hb.1 hlt] using h k
        · simpa [find?_cons_eq_none_of_lt ha.1 hgt] using (h k').symm
      subst hk
      have hv : v = v' := by simpa using h k
      subst hv
      have htail : ∀ j, Ordered.find? compareIndex j ra = Ordered.find? compareIndex j rb := by
        intro j
        by_cases hj : j = k
        · subst hj
          rw [find?_eq_none_of_lt ha.1, find?_eq_none_of_lt hb.1]
        · simpa [hj] using h j
      rw [ih ha.2 hb.2 htail]

end Side

/-! ## 3. One entry of the table -/

/-- The two sides of the table. -/
inductive Side where
  | perp
  | spot
  deriving DecidableEq

/-- The entries of a side. -/
def entries (t : SlotTable) : Side → List (UInt16 × UInt64)
  | .perp => t.perp
  | .spot => t.spot

/-- The slot of a market of a side. -/
def slotOf (t : SlotTable) (side : Side) (i : UInt16) : Option UInt64 :=
  Ordered.find? compareIndex i (t.entries side)

/-- The markets a send names on a side. -/
def Side.pick : Side → List UInt16 → List UInt16 → List UInt16
  | .perp, perps, _ => perps
  | .spot, _, spots => spots

theorem slotOf_empty (side : Side) (i : UInt16) : empty.slotOf side i = none := by
  cases side <;> rfl

theorem foldl_recordPerp (is : List UInt16) (t : SlotTable) (slot : UInt64) :
    (is.foldl (fun t i => t.recordPerp i slot) t).perp = is.foldl (fun e i => raise e i slot) t.perp ∧
      (is.foldl (fun t i => t.recordPerp i slot) t).spot = t.spot := by
  induction is generalizing t with
  | nil => exact ⟨rfl, rfl⟩
  | cons i is ih => exact ih _

theorem foldl_recordSpot (is : List UInt16) (t : SlotTable) (slot : UInt64) :
    (is.foldl (fun t i => t.recordSpot i slot) t).spot = is.foldl (fun e i => raise e i slot) t.spot ∧
      (is.foldl (fun t i => t.recordSpot i slot) t).perp = t.perp := by
  induction is generalizing t with
  | nil => exact ⟨rfl, rfl⟩
  | cons i is ih => exact ih _

/-- A stamp raises each named market of a side in turn. -/
theorem entries_stamp (t : SlotTable) (perps spots : List UInt16) (slot : UInt64) (side : Side) :
    (t.stamp perps spots slot).entries side =
      (side.pick perps spots).foldl (fun e i => raise e i slot) (t.entries side) := by
  cases side
  · simp only [stamp, entries, Side.pick, (foldl_recordSpot _ _ _).2, (foldl_recordPerp _ _ _).1]
  · simp only [stamp, entries, Side.pick, (foldl_recordSpot _ _ _).1, (foldl_recordPerp _ _ _).2]

theorem find?_raise (e : List (UInt16 × UInt64)) (i j : UInt16) (slot : UInt64) :
    Ordered.find? compareIndex j (raise e i slot) =
      if j = i then some (max ((Ordered.find? compareIndex j e).getD 0) slot)
      else Ordered.find? compareIndex j e := by
  split
  · rename_i hj
    subst hj
    exact Ordered.find?_insert_self compareIndex compareIndex_self _ _ _
  · exact find?_insert_of_ne ‹_› _ _

/-- Raising several markets at one slot raises each named one once. -/
theorem find?_foldl_raise (is : List UInt16) (e : List (UInt16 × UInt64)) (j : UInt16)
    (slot : UInt64) :
    Ordered.find? compareIndex j (is.foldl (fun e i => raise e i slot) e) =
      if j ∈ is then some (max ((Ordered.find? compareIndex j e).getD 0) slot)
      else Ordered.find? compareIndex j e := by
  induction is generalizing e with
  | nil => simp
  | cons i is ih =>
    rw [List.foldl_cons, ih, find?_raise]
    by_cases hj : j = i
    · subst hj
      simp [Std.Associative.assoc, Std.max_self]
    · simp [hj]

/-- **A send's stamp on one entry**: a named market's entry rises to at least the slot, every
other entry stays. -/
theorem slotOf_stamp (t : SlotTable) (perps spots : List UInt16) (slot : UInt64) (side : Side)
    (i : UInt16) :
    (t.stamp perps spots slot).slotOf side i =
      if i ∈ side.pick perps spots then some (max ((t.slotOf side i).getD 0) slot)
      else t.slotOf side i := by
  rw [slotOf, entries_stamp, find?_foldl_raise]
  rfl

/-- **An eviction on one entry**: the entry stays if it is newer than the snapshot. -/
theorem slotOf_retainNewerThan (t : SlotTable) (u : UInt64) (side : Side) (i : UInt16) :
    (t.retainNewerThan u).1.slotOf side i = (t.slotOf side i).filter (u < ·) := by
  cases side
  · exact find?_filter t.perp_ascending (fun v => decide (u < v)) i
  · exact find?_filter t.spot_ascending (fun v => decide (u < v)) i

/-- A table is determined by its entries. -/
theorem ext_of_slotOf {a b : SlotTable} (h : ∀ side i, a.slotOf side i = b.slotOf side i) :
    a = b := by
  have hp : a.perp = b.perp := eq_of_find? a.perp_ascending b.perp_ascending (h .perp)
  have hs : a.spot = b.spot := eq_of_find? a.spot_ascending b.spot_ascending (h .spot)
  cases a
  cases b
  simp only at hp hs
  subst hp hs
  rfl

/-! ## 4. Histories -/

/-- What a client call does to the table: a send for markets, with its outcome, or a resolution
of remaining accounts against the markets it saw, at the active user's snapshot slot. -/
inductive Event where
  | sent (perps spots : List UInt16) (outcome : Outcome (Signature × UInt64))
  | resolved (r : Resolver) (p : RemainingParams) (markets : MarketLookup)
      (userSlot : Option UInt64)

namespace Event

/-- The table after the event. -/
def apply : Event → SlotTable → SlotTable
  | .sent perps spots (.ok (_, slot)), t => t.stamp perps spots slot
  | .sent _ _ (.error _), t => t
  | .resolved r p markets userSlot, t => (r.resolve p markets t userSlot).1

/-- The slot the event stamps on a market of a side: a confirmed send's own, when it names the
market. -/
def stampsOn (side : Side) (i : UInt16) : Event → List UInt64
  | .sent perps spots (.ok (_, slot)) => if i ∈ side.pick perps spots then [slot] else []
  | .sent _ _ (.error _) => []
  | .resolved .. => []

/-- The event evicts a market's entry: a resolution that reaches the table step at a snapshot
slot at least the entry's. -/
def Evicts (side : Side) (i : UInt16) (t : SlotTable) : Event → Prop
  | .sent .. => False
  | .resolved _ p markets userSlot =>
    ∃ u v, Resolver.ReachesTable p markets userSlot u ∧ t.slotOf side i = some v ∧ v ≤ u

/-- A confirmed send. -/
def Confirmed : Event → Prop
  | .sent _ _ (.ok _) => True
  | .sent _ _ (.error _) => False
  | .resolved .. => False

/-- The table a resolution leaves: the entries newer than its snapshot slot when it reaches the
table step, else the table unchanged. -/
theorem apply_resolved (r : Resolver) (p : RemainingParams) (markets : MarketLookup)
    (userSlot : Option UInt64) (t : SlotTable) :
    (∃ u, Resolver.ReachesTable p markets userSlot u ∧
        (resolved r p markets userSlot).apply t = (t.retainNewerThan u).1) ∨
      ((∀ u, ¬Resolver.ReachesTable p markets userSlot u) ∧
        (resolved r p markets userSlot).apply t = t) := by
  by_cases hr : ∃ u, Resolver.ReachesTable p markets userSlot u
  · obtain ⟨u, hu⟩ := hr
    exact .inl ⟨u, hu, Resolver.resolveBuckets_fst_of_reachesTable hu⟩
  · have hno : ∀ u, ¬Resolver.ReachesTable p markets userSlot u := not_exists.mp hr
    exact .inr ⟨hno, Resolver.resolveBuckets_fst_of_not_reachesTable hno⟩

theorem Confirmed.not_evicts {e : Event} (he : e.Confirmed) (side : Side) (i : UInt16)
    (t : SlotTable) : ¬e.Evicts side i t := by
  cases e with
  | sent => exact id
  | resolved => exact he.elim

end Event

/-- **The step lemma**: an event that does not evict a market's entry leaves the largest of the
entry and the slot it stamps. -/
theorem slotOf_apply {t : SlotTable} {e : Event} {side : Side} {i : UInt16}
    (he : ¬e.Evicts side i t) :
    (e.apply t).slotOf side i = ((t.slotOf side i).toList ++ e.stampsOn side i).max? := by
  cases e with
  | sent perps spots outcome =>
    cases outcome with
    | error f => simp [Event.apply, Event.stampsOn, max?_toList]
    | ok a =>
      obtain ⟨_, slot⟩ := a
      rw [Event.apply, slotOf_stamp, Event.stampsOn]
      split
      · rw [max?_toList_append_singleton]
      · rw [List.append_nil, max?_toList]
  | resolved r p markets userSlot =>
    rw [Event.stampsOn, List.append_nil, max?_toList]
    rcases Event.apply_resolved r p markets userSlot t with ⟨u, hu, heq⟩ | ⟨-, heq⟩
    · rw [heq, slotOf_retainNewerThan]
      cases hv : t.slotOf side i with
      | none => rfl
      | some v =>
        -- the entry is kept: it is newer than the snapshot, or the resolution would evict it
        have hlt : u < v := by
          by_contra hle
          exact he ⟨u, v, hu, hv, UInt64.not_lt.mp hle⟩
        simp [hlt]
    · rw [heq]

/-- An event that evicts a market's entry leaves none. -/
theorem slotOf_apply_of_evicts {t : SlotTable} {e : Event} {side : Side} {i : UInt16}
    (he : e.Evicts side i t) : (e.apply t).slotOf side i = none := by
  cases e with
  | sent => exact he.elim
  | resolved r p markets userSlot =>
    obtain ⟨u, v, hu, hv, hle⟩ := he
    have heq : (Event.resolved r p markets userSlot).apply t = (t.retainNewerThan u).1 :=
      Resolver.resolveBuckets_fst_of_reachesTable hu
    rw [heq, slotOf_retainNewerThan, hv]
    simp [hle]

/-- The table after a history of events, in order. -/
def run (t : SlotTable) (evs : List Event) : SlotTable := evs.foldl (fun t e => e.apply t) t

/-- The slots a history stamps on a market of a side, in order. -/
def stampsOn (side : Side) (i : UInt16) (evs : List Event) : List UInt64 :=
  evs.flatMap (Event.stampsOn side i)

/-- No event of a history evicts a market's entry, each judged on the table it meets. -/
def NeverEvicts (side : Side) (i : UInt16) : SlotTable → List Event → Prop
  | _, [] => True
  | t, e :: rest => ¬e.Evicts side i t ∧ NeverEvicts side i (e.apply t) rest

@[simp] theorem stampsOn_nil (side : Side) (i : UInt16) : stampsOn side i [] = [] := rfl

@[simp] theorem stampsOn_cons (side : Side) (i : UInt16) (e : Event) (evs : List Event) :
    stampsOn side i (e :: evs) = e.stampsOn side i ++ stampsOn side i evs := List.flatMap_cons

@[simp] theorem run_nil (t : SlotTable) : t.run [] = t := rfl

@[simp] theorem run_cons (t : SlotTable) (e : Event) (evs : List Event) :
    t.run (e :: evs) = (e.apply t).run evs := rfl

/-- **The run lemma**: over a history that never evicts a market's entry, the entry is the
largest of the old entry and every slot the history stamps on the market. -/
theorem slotOf_run_of_neverEvicts {side : Side} {i : UInt16} :
    ∀ {t : SlotTable} (evs : List Event), NeverEvicts side i t evs →
      (t.run evs).slotOf side i = ((t.slotOf side i).toList ++ stampsOn side i evs).max?
  | t, [], _ => by simp [max?_toList]
  | t, e :: evs, ⟨he, hrest⟩ => by
    rw [run_cons, slotOf_run_of_neverEvicts evs hrest, slotOf_apply he,
      max?_toList_append, stampsOn_cons, List.append_assoc]

/-- **A market's entry after any history**: either nothing in the history evicted it, and it is
the largest of the old entry and the slots stamped on it; or some event evicted it last, and it
is the largest slot stamped on it since, none when no confirmed send named it since. -/
theorem slotOf_run (t : SlotTable) (side : Side) (i : UInt16) (evs : List Event) :
    (NeverEvicts side i t evs ∧
        (t.run evs).slotOf side i = ((t.slotOf side i).toList ++ stampsOn side i evs).max?) ∨
      ∃ pre e post, evs = pre ++ e :: post ∧ e.Evicts side i (t.run pre) ∧
        NeverEvicts side i (t.run (pre ++ [e])) post ∧
        (t.run evs).slotOf side i = (stampsOn side i post).max? := by
  induction evs generalizing t with
  | nil => exact .inl ⟨trivial, by simp [max?_toList]⟩
  | cons e rest ih =>
    rcases ih (e.apply t) with ⟨hrest, hslot⟩ | ⟨pre, e', post, rfl, he', hpost, hslot⟩
    · by_cases he : e.Evicts side i t
      · refine .inr ⟨[], e, rest, rfl, he, hrest, ?_⟩
        rw [run_cons, hslot, slotOf_apply_of_evicts he]
        rfl
      · refine .inl ⟨⟨he, hrest⟩, ?_⟩
        rw [run_cons, hslot, slotOf_apply he, max?_toList_append, stampsOn_cons,
          List.append_assoc]
    · exact .inr ⟨e :: pre, e', post, rfl, he', hpost, hslot⟩

/-- A later confirmed send at a lower slot leaves the higher one. -/
example : (empty.run [.sent [1] [] (.ok (Signature.zero, 7)),
    .sent [1, 2] [] (.ok (Signature.zero, 5))]).slotOf .perp 1 = some 7 := by decide

theorem neverEvicts_of_confirmed {side : Side} {i : UInt16} :
    ∀ {t : SlotTable} {evs : List Event}, (∀ e ∈ evs, e.Confirmed) → NeverEvicts side i t evs
  | _, [], _ => trivial
  | t, e :: _, hc =>
    ⟨(hc e List.mem_cons_self).not_evicts side i t,
      neverEvicts_of_confirmed fun e' he' => hc e' (List.mem_cons_of_mem _ he')⟩

/-- **Confirmed sends commute**: recording them in another order leaves the same table. -/
theorem run_perm (t : SlotTable) {evs evs' : List Event} (hc : ∀ e ∈ evs, e.Confirmed)
    (hp : evs.Perm evs') : t.run evs = t.run evs' := by
  have hc' : ∀ e ∈ evs', e.Confirmed := fun e he => hc e (hp.mem_iff.mpr he)
  refine ext_of_slotOf fun side i => ?_
  rw [slotOf_run_of_neverEvicts evs (neverEvicts_of_confirmed hc),
    slotOf_run_of_neverEvicts evs' (neverEvicts_of_confirmed hc')]
  exact max?_perm ((hp.flatMap_right _).append_left _)

end SlotTable

/-! ## 5. The calls a client makes -/

namespace Session

/-- **A send for markets, as the table sees it**: the table after it is the event of its outcome
applied to the table before; sending itself leaves the table alone. -/
theorem sendForMarkets_slotTable (tx : Transaction) (keys : List Signing.Keypair)
    (perps spots : List UInt16) (s : Session) :
    ((sendForMarkets tx keys perps spots).run s).2.slotTable =
      (SlotTable.Event.sent perps spots ((sendForMarkets tx keys perps spots).run s).1).apply
        s.slotTable := by
  have hsend : ((send tx keys none false).run s).2.slotTable = s.slotTable :=
    congrArg Prod.fst (keeps_send tx keys none false s)
  rcases hr : (send tx keys none false).run s with ⟨r, s1⟩
  rw [hr] at hsend
  simp only [sendForMarkets, StateT.run_bind, hr]
  cases r with
  | error f => exact hsend
  | ok a =>
    obtain ⟨_, slot⟩ := a
    show (s1.slotTable.stamp perps spots slot) = s.slotTable.stamp perps spots slot
    rw [hsend]

theorem remainingAccounts_slotTable (p : RemainingParams) (s : Session) :
    ((remainingAccounts p).run s).2.slotTable =
      (SlotTable.Event.resolved s.resolver p s.store.markets
        ((activeUserAccount s).map (·.slot))).apply s.slotTable := rfl

/-- A client call that writes the last-active table. -/
inductive TableCall where
  | sendForMarkets (tx : Transaction) (keys : List Signing.Keypair) (perps spots : List UInt16)
  | remainingAccounts (p : RemainingParams)

/-- Makes the call, then lets the session settle as after every step of a client; answers what
the table saw. -/
def TableCall.run : TableCall → Sim SlotTable.Event
  | .sendForMarkets tx keys perps spots => do
    let r ← Session.sendForMarkets tx keys perps spots
    settle
    pure (.sent perps spots r)
  | .remainingAccounts p => do
    let s ← get
    let _ ← Session.remainingAccounts p
    settle
    pure (.resolved s.resolver p s.store.markets ((activeUserAccount s).map (·.slot)))

/-- Makes the calls in order; answers the events the table saw. -/
def runCalls : List TableCall → Sim (List SlotTable.Event)
  | [] => pure []
  | c :: cs => do
    let e ← c.run
    let es ← runCalls cs
    pure (e :: es)

theorem settle_slotTable (s : Session) : (settle.run s).2.slotTable = s.slotTable :=
  congrArg Prod.fst (keeps_settle s)

theorem TableCall.run_slotTable (c : TableCall) (s : Session) :
    (c.run.run s).2.slotTable = (c.run.run s).1.apply s.slotTable := by
  cases c with
  | sendForMarkets tx keys perps spots =>
    show (settle.run ((Session.sendForMarkets tx keys perps spots).run s).2).2.slotTable =
      (SlotTable.Event.sent perps spots
        ((Session.sendForMarkets tx keys perps spots).run s).1).apply s.slotTable
    rw [settle_slotTable, sendForMarkets_slotTable]
  | remainingAccounts p =>
    show (settle.run ((Session.remainingAccounts p).run s).2).2.slotTable = _
    rw [settle_slotTable, remainingAccounts_slotTable]
    rfl

/-- **The calls, as the table sees them**: after any calls, the table is the run of the events
they made from the table before. -/
theorem runCalls_slotTable : ∀ (cs : List TableCall) (s : Session),
    ((runCalls cs).run s).2.slotTable = s.slotTable.run ((runCalls cs).run s).1
  | [], _ => rfl
  | c :: cs, s => by
    show ((runCalls cs).run (c.run.run s).2).2.slotTable =
      s.slotTable.run ((c.run.run s).1 :: ((runCalls cs).run (c.run.run s).2).1)
    rw [runCalls_slotTable cs, SlotTable.run_cons, TableCall.run_slotTable]

/-- **The last-active table over any history of client calls.** Sends for markets and
resolutions of remaining accounts, each followed by the session settling, change the table
exactly as their events say, whatever the session did before. From an empty table, a market's
entry is then the largest slot among the confirmed sends that named it since the last resolution
that evicted it, and there is none when no such send exists. A send that fails leaves the table
as it was, and confirmed sends recorded in another order leave the same table. -/
theorem lastActiveSlots_contract :
    (∀ (s : Session) (cs : List TableCall),
      ((runCalls cs).run s).2.slotTable = s.slotTable.run ((runCalls cs).run s).1) ∧
    (∀ (s : Session) (cs : List TableCall) (side : SlotTable.Side) (i : UInt16),
      s.slotTable = .empty →
      let evs := ((runCalls cs).run s).1
      let t := ((runCalls cs).run s).2.slotTable
      (SlotTable.NeverEvicts side i .empty evs ∧
          t.slotOf side i = (SlotTable.stampsOn side i evs).max?) ∨
        ∃ pre e post, evs = pre ++ e :: post ∧ e.Evicts side i (SlotTable.empty.run pre) ∧
          SlotTable.NeverEvicts side i (SlotTable.empty.run (pre ++ [e])) post ∧
          t.slotOf side i = (SlotTable.stampsOn side i post).max?) ∧
    (∀ (tx : Transaction) (keys : List Signing.Keypair) (perps spots : List UInt16)
      (s : Session) (f : Failure),
      ((sendForMarkets tx keys perps spots).run s).1 = .error f →
      ((sendForMarkets tx keys perps spots).run s).2.slotTable = s.slotTable) ∧
    (∀ (t : SlotTable) (evs evs' : List SlotTable.Event),
      (∀ e ∈ evs, e.Confirmed) → evs.Perm evs' → t.run evs = t.run evs') := by
  refine ⟨fun s cs => runCalls_slotTable cs s, fun s cs side i hs => ?_, fun tx keys perps spots s f hf => ?_,
    fun t evs evs' hc hp => SlotTable.run_perm t hc hp⟩
  · intro evs t
    have ht : t = SlotTable.empty.run evs := by
      rw [← hs]
      exact runCalls_slotTable cs s
    rcases SlotTable.slotOf_run SlotTable.empty side i evs with
      ⟨hnever, hslot⟩ | ⟨pre, e, post, hevs, he, hnever, hslot⟩
    · refine .inl ⟨hnever, ?_⟩
      rw [ht, hslot, SlotTable.slotOf_empty]
      rfl
    · exact .inr ⟨pre, e, post, hevs, he, hnever, ht ▸ hslot⟩
  · rw [sendForMarkets_slotTable, hf]
    rfl

end Session

end PerpClient
