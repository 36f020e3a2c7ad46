import PerpClient.Proofs.SessionSteps
import PerpClient.Proofs.TrackedMerge
/-!
# What the subscriber's tasks keep, one step at a time

With notifications, each watched account has a watcher task that holds at most one subscription
of the notifier, and discovered oracles go from the watchers to the supervisor. This module says
what every step of every task, and every call of the caller up to its wait, does to these:

* `Subscriptions`: the watchers have distinct ids, one that has not run holds nothing, and the
  notifier's open subscriptions are, up to order, exactly those the running watchers hold, with
  distinct handles; the watcher map names each account at most once;
* `Appends`: a watcher's run appends to the supervisor's inbox only oracles it tracked itself,
  each new and named once (`HandedFresh`);
* `Quiet`: every other step keeps `Subscriptions` and hands the supervisor nothing: its inbox
  ends empty or no longer than the same supervisor's was.

A run of a watcher is followed through the watcher as its task holds it (`Holds`): closing the
stale subscription before a new one is opened keeps the open subscriptions those held
(`Holds.close`, `Holds.subscribe`), and `watchFrom_watches` carries this through every wait.
`runTask_spec`, built from `runWatcher_spec`, `quiet_runSupervisor` and `quiet_runTicker`, and
`phaseQuiet_begin` are the statements the moves of a session are built from.
-/

namespace PerpClient

/-! ## 1. Steps that lead to a related state -/

section Leads

variable {σ α γ : Type} {r : σ → σ → Prop}

/-- Run from `s`, the step `x` ends in a state `r` relates `s` to. -/
def LeadsAt (r : σ → σ → Prop) (x : StateM σ α) (s : σ) : Prop := r s (x.run s).2

/-- From every state, the step `x` ends in a state `r` relates it to. -/
def Leads (r : σ → σ → Prop) (x : StateM σ α) : Prop := ∀ s, LeadsAt r x s

theorem leads_pure [Std.Refl r] (a : α) : Leads r (pure a : StateM σ α) :=
  fun s => Std.Refl.refl s

theorem leadsAt_bind [Trans r r r] {x : StateM σ α} {k : α → StateM σ γ} {s : σ}
    (hx : LeadsAt r x s) (hk : LeadsAt r (k (x.run s).1) (x.run s).2) : LeadsAt r (x >>= k) s := by
  unfold LeadsAt at hx hk ⊢
  rw [run_bind_pair]
  exact Trans.trans hx hk

theorem Leads.bind [Trans r r r] {x : StateM σ α} {k : α → StateM σ γ} (hx : Leads r x)
    (hk : ∀ a, Leads r (k a)) : Leads r (x >>= k) :=
  fun s => leadsAt_bind (hx s) (hk _ _)

theorem leadsAt_get_bind {k : σ → StateM σ γ} {s : σ} (hk : LeadsAt r (k s) s) :
    LeadsAt r (get >>= k) s := hk

theorem leadsAt_set_bind [Trans r r r] {s s' : σ} {k : PUnit → StateM σ γ} (h : r s s')
    (hk : LeadsAt r (k ⟨⟩) s') : LeadsAt r (set s' >>= k) s :=
  Trans.trans (r := r) (s := r) h (show r s' _ from hk)

theorem leads_modify {g : σ → σ} (h : ∀ s, r s (g s)) : Leads r (modify g : StateM σ PUnit) := h

theorem leadsAt_modify_bind [Trans r r r] {g : σ → σ} {s : σ} {k : PUnit → StateM σ γ}
    (h : r s (g s)) (hk : LeadsAt r (k ⟨⟩) (g s)) : LeadsAt r (modify g >>= k) s :=
  Trans.trans (r := r) (s := r) h (show r (g s) _ from hk)

theorem Leads.of_keeps {β : Type} {f : σ → β} {x : StateM σ α}
    (hr : ∀ s s', f s' = f s → r s s') (h : Keeps f x) : Leads r x :=
  fun s => hr s _ (h s)

theorem Leads.forM [Std.Refl r] [Trans r r r] {g : α → StateM σ PUnit} :
    ∀ {l : List α}, (∀ a ∈ l, Leads r (g a)) → Leads r (l.forM g)
  | [], _ => leads_pure _
  | a :: l, h => by
    show Leads r (g a >>= fun _ => l.forM g)
    exact (h a List.mem_cons_self).bind fun _ =>
      Leads.forM fun b hb => h b (List.mem_cons_of_mem _ hb)

end Leads

/-! ## 2. What a merge adds -/

namespace Ordered

variable {κ α : Type} {cmp : κ → κ → Ordering} (skip : κ → Prop) [DecidablePred skip]

/-- **The pairs a merge adds have new keys**, none of them twice: a pair is added only when its key
is not present yet, and the map keeps every key it had. -/
theorem mergeAbsent_added_fresh (hcmp : ∀ a b, cmp a b = .eq ↔ a = b)
    (mine other : List (κ × α)) :
    ((mergeAbsent cmp skip mine other).2.map (·.1)).Nodup ∧
      ∀ k ∈ (mergeAbsent cmp skip mine other).2.map (·.1), k ∉ mine.map (·.1) := by
  unfold mergeAbsent
  -- the fold from any accumulator whose map holds `mine`'s keys and the keys added so far
  suffices h : ∀ acc : List (κ × α) × List (κ × α),
      (∀ k ∈ mine.map (·.1), k ∈ acc.1.map (·.1)) → (∀ k ∈ acc.2.map (·.1), k ∈ acc.1.map (·.1)) →
      (acc.2.map (·.1)).Nodup → (∀ k ∈ acc.2.map (·.1), k ∉ mine.map (·.1)) →
      ((other.foldl (mergeStep cmp skip) acc).2.map (·.1)).Nodup ∧
        ∀ k ∈ (other.foldl (mergeStep cmp skip) acc).2.map (·.1), k ∉ mine.map (·.1) from
    h _ (fun _ hk => hk) (fun _ hk => absurd hk List.not_mem_nil) List.nodup_nil
      (fun _ hk => absurd hk List.not_mem_nil)
  induction other with
  | nil => exact fun _ _ _ hnd hout => ⟨hnd, hout⟩
  | cons p rest ih =>
    intro acc hmine hadded hnd hout
    rw [List.foldl_cons]
    unfold mergeStep
    split
    · exact ih acc hmine hadded hnd hout
    · rename_i hnew
      have hp : p.1 ∉ acc.1.map (·.1) := fun hp =>
        hnew (.inr ((contains_iff_mem_keys hcmp _ _).mpr hp))
      refine ih _ (fun k hk => ?_) (fun k hk => ?_) ?_ (fun k hk => ?_)
      · exact (mem_keys_insert hcmp _ _ _ _).mpr (.inr (hmine k hk))
      · simp only [List.map_append, List.map_cons, List.map_nil, List.mem_append,
          List.mem_singleton] at hk
        rcases hk with hk | hk
        · exact (mem_keys_insert hcmp _ _ _ _).mpr (.inr (hadded k hk))
        · exact (mem_keys_insert hcmp _ _ _ _).mpr (.inl hk)
      · rw [List.map_append, List.nodup_append]
        refine ⟨hnd, List.nodup_singleton _, fun a ha b hb hab => hp ?_⟩
        simp only [List.map_cons, List.map_nil, List.mem_singleton] at hb
        rw [← hb, ← hab]
        exact hadded a ha
      · simp only [List.map_append, List.map_cons, List.map_nil, List.mem_append,
          List.mem_singleton] at hk
        rcases hk with hk | hk
        · exact hout k hk
        · exact hk ▸ fun hm => hp (hmine _ hm)

end Ordered

/-! ## 3. The subscriptions watchers hold -/

/-- The subscription a watcher holds, by handle, with its account. -/
def Watcher.subscription (w : Watcher) : Option (Nat × Pubkey) := w.handle.map (·, w.pubkey)

/-- What a watcher's subscriptions depend on: its id, its account, whether it has run, and its
handle. -/
def Watcher.holding (w : Watcher) : Nat × Pubkey × Bool × Option Nat :=
  (w.id, w.pubkey, w.started, w.handle)

namespace Session

/-- The subscriptions the running watchers hold. -/
def held (ws : List Watcher) : List (Nat × Pubkey) := ws.filterMap Watcher.subscription

/-- The running watchers with `w` in place of the one with its id, as saving `w` leaves them. -/
def savedAs (w : Watcher) (ws : List Watcher) : List Watcher :=
  ws.map fun x => if x.id = w.id then w else x

/-- How the running watchers, the notifier's open subscriptions and the watcher map fit
together. -/
structure Subscriptions (s : Session) : Prop where
  /-- The watcher map names each account at most once. -/
  map_nodup : (s.sub.watcherMap.map (·.1)).Nodup
  ids_nodup : (s.sub.watchers.map (·.id)).Nodup
  ids_fresh : ∀ w ∈ s.sub.watchers, w.id < s.nextTaskId
  /-- A watcher that has not run holds no subscription. -/
  unstarted : ∀ w ∈ s.sub.watchers, w.started = false → w.handle = none
  /-- The open subscriptions are, up to order, exactly those the running watchers hold. -/
  open_held : s.notifier.openHandles.Perm (held s.sub.watchers)
  handles_nodup : (s.notifier.openHandles.map (·.1)).Nodup
  handles_fresh : ∀ e ∈ s.notifier.openHandles, e.1 < s.notifier.nextHandle

theorem held_eq (ws : List Watcher) :
    held ws = (ws.map Watcher.holding).filterMap fun v => v.2.2.2.map (·, v.2.1) := by
  rw [held, List.filterMap_map]
  rfl

/-- Watchers alike in what their subscriptions depend on have the same properties. -/
theorem exists_of_holding {ws ws' : List Watcher}
    (h : ws'.map Watcher.holding = ws.map Watcher.holding) {w : Watcher} (hw : w ∈ ws') :
    ∃ v ∈ ws, v.holding = w.holding := by
  have hmem : w.holding ∈ ws.map Watcher.holding := h ▸ List.mem_map_of_mem hw
  exact List.mem_map.mp hmem

/-- `Subscriptions` reads the watchers only through what their subscriptions depend on, and the
next task id only as a bound. -/
theorem Subscriptions.congr {s s' : Session} (h : Subscriptions s)
    (hmap : s'.sub.watcherMap = s.sub.watcherMap)
    (hws : s'.sub.watchers.map Watcher.holding = s.sub.watchers.map Watcher.holding)
    (hnext : s.nextTaskId ≤ s'.nextTaskId)
    (hopen : s'.notifier.openHandles = s.notifier.openHandles)
    (hhandle : s'.notifier.nextHandle = s.notifier.nextHandle) : Subscriptions s' where
  map_nodup := hmap ▸ h.map_nodup
  ids_nodup := by
    have hids : s'.sub.watchers.map (·.id) = s.sub.watchers.map (·.id) := by
      simpa [Function.comp_def, Watcher.holding] using congrArg (List.map (·.1)) hws
    exact hids ▸ h.ids_nodup
  ids_fresh w hw := by
    obtain ⟨v, hv, hvw⟩ := exists_of_holding hws hw
    have hid : v.id = w.id := congrArg (·.1) hvw
    exact hid ▸ Nat.lt_of_lt_of_le (h.ids_fresh v hv) hnext
  unstarted w hw hst := by
    obtain ⟨v, hv, hvw⟩ := exists_of_holding hws hw
    have hst' : v.started = w.started := congrArg (·.2.2.1) hvw
    have hh : v.handle = w.handle := congrArg (·.2.2.2) hvw
    exact hh ▸ h.unstarted v hv (hst'.trans hst)
  open_held := by
    rw [hopen, held_eq, hws, ← held_eq]
    exact h.open_held
  handles_nodup := hopen ▸ h.handles_nodup
  handles_fresh := hopen ▸ hhandle ▸ h.handles_fresh

/-- `Subscriptions` reads only what the watchers' own machinery writes. -/
theorem Subscriptions.of_untouched {s s' : Session} (h : Subscriptions s)
    (he : untouched s' = untouched s) : Subscriptions s' := by
  simp only [untouched, Prod.mk.injEq] at he
  obtain ⟨_, hnext, hnot, hws, hmap⟩ := he
  exact h.congr hmap (by rw [hws]) (Nat.le_of_eq hnext.symm) (by rw [hnot]) (by rw [hnot])

/-! ### Saving a watcher -/

theorem run_saveWatcher (w : Watcher) (s : Session) :
    ((saveWatcher w).run s).2 =
      { s with sub := { s.sub with watchers := savedAs w s.sub.watchers } } := rfl

theorem ids_savedAs (w : Watcher) (ws : List Watcher) :
    (savedAs w ws).map (·.id) = ws.map (·.id) := by
  simp only [savedAs, List.map_map]
  refine List.map_congr_left fun x _ => ?_
  by_cases hx : x.id = w.id <;> simp [hx]

/-- Saving a watcher that is running as it is changes nothing. -/
theorem savedAs_of_mem {w : Watcher} {ws : List Watcher} (hnd : (ws.map (·.id)).Nodup)
    (hw : w ∈ ws) : savedAs w ws = ws := by
  refine (List.map_congr_left fun x hx => ?_).trans (List.map_id ws)
  by_cases hid : x.id = w.id
  · rw [if_pos hid]
    exact (List.inj_on_of_nodup_map hnd hw hx hid.symm)
  · rw [if_neg hid]
    rfl

theorem savedAs_savedAs {w w' : Watcher} (hid : w'.id = w.id) (ws : List Watcher) :
    savedAs w' (savedAs w ws) = savedAs w' ws := by
  simp only [savedAs, List.map_map]
  refine List.map_congr_left fun x _ => ?_
  by_cases hx : x.id = w.id <;> simp [hx, hid]

theorem holding_savedAs {w w' : Watcher} (hw : w'.holding = w.holding) (ws : List Watcher) :
    (savedAs w' ws).map Watcher.holding = (savedAs w ws).map Watcher.holding := by
  have hid : w'.id = w.id := congrArg (·.1) hw
  simp only [savedAs, List.map_map]
  refine List.map_congr_left fun x _ => ?_
  by_cases hx : x.id = w.id <;> simp [hx, hid, hw]

theorem filter_savedAs (w : Watcher) (ws : List Watcher) :
    (savedAs w ws).filter (·.id ≠ w.id) = ws.filter (·.id ≠ w.id) := by
  induction ws with
  | nil => rfl
  | cons x xs ih =>
    by_cases hx : x.id = w.id
    · simp [savedAs, hx] at ih ⊢
      exact ih
    · simp [savedAs, hx] at ih ⊢
      exact ih

theorem held_cons (x : Watcher) (xs : List Watcher) :
    held (x :: xs) = x.subscription.toList ++ held xs := by
  cases hx : x.subscription <;> simp [held, hx]

/-- **Saving a watcher** puts its own subscription in place of the one the watcher of its id
held. -/
theorem held_savedAs {w : Watcher} {ws : List Watcher} (hnd : (ws.map (·.id)).Nodup)
    (hmem : w.id ∈ ws.map (·.id)) :
    (held (savedAs w ws)).Perm (held (ws.filter (·.id ≠ w.id)) ++ w.subscription.toList) := by
  induction ws with
  | nil => cases hmem
  | cons x xs ih =>
    rw [List.map_cons, List.nodup_cons] at hnd
    by_cases hx : x.id = w.id
    · have hrest : ∀ y ∈ xs, y.id ≠ w.id := fun y hy hy' =>
        hnd.1 (hx ▸ hy' ▸ List.mem_map_of_mem hy)
      have hsaved : savedAs w (x :: xs) = w :: xs := by
        simp only [savedAs, List.map_cons, hx, ↓reduceIte, List.cons.injEq, true_and]
        exact (List.map_congr_left fun y hy => by simp [hrest y hy]).trans (List.map_id xs)
      have hfilter : (x :: xs).filter (·.id ≠ w.id) = xs := by
        rw [List.filter_cons_of_neg (by simp [hx])]
        exact List.filter_eq_self.mpr fun y hy => by simp [hrest y hy]
      rw [hsaved, hfilter, held_cons]
      exact List.perm_append_comm
    · have hmem' : w.id ∈ xs.map (·.id) := by
        rw [List.map_cons, List.mem_cons] at hmem
        exact hmem.resolve_left fun h => hx h.symm
      have hsaved : savedAs w (x :: xs) = x :: savedAs w xs := by
        simp [savedAs, hx]
      rw [hsaved, List.filter_cons_of_pos (by simp [hx]), held_cons, held_cons,
        List.append_assoc]
      exact (ih hnd.2 hmem').append_left _

/-- A watcher saved in place of another with its id is either the saved one or was there. -/
theorem mem_savedAs {w w' : Watcher} {ws : List Watcher} {x : Watcher} (hx : x ∈ savedAs w' ws)
    (hid : w'.id = w.id) : x = w' ∨ x ∈ savedAs w ws := by
  obtain ⟨y, hy, rfl⟩ := List.mem_map.mp hx
  by_cases hyw : y.id = w.id
  · exact .inl (by simp [hid, hyw])
  · refine .inr (List.mem_map.mpr ⟨y, hy, ?_⟩)
    simp [hid, hyw]

theorem self_mem_savedAs {w : Watcher} {ws : List Watcher} (hmem : w.id ∈ ws.map (·.id)) :
    w ∈ savedAs w ws := by
  obtain ⟨y, hy, hyw⟩ := List.mem_map.mp hmem
  exact List.mem_map.mpr ⟨y, hy, by simp [hyw]⟩

theorem mem_savedAs_of_mem_filter {w : Watcher} {ws : List Watcher} {x : Watcher}
    (hx : x ∈ ws.filter (·.id ≠ w.id)) : x ∈ savedAs w ws :=
  List.mem_of_mem_filter (filter_savedAs w ws ▸ hx)

/-- Closing the handle `hd` of subscriptions that are `L` and one more with that handle leaves
`L`. -/
theorem perm_filter_close {opens L : List (Nat × Pubkey)} {hd : Nat} {k : Pubkey}
    (hp : opens.Perm (L ++ [(hd, k)])) (hnd : (opens.map (·.1)).Nodup) :
    (opens.filter (·.1 ≠ hd)).Perm L := by
  have hnd' : ((L ++ [(hd, k)]).map (·.1)).Nodup := (hp.map _).nodup_iff.mp hnd
  rw [List.map_append, List.nodup_append] at hnd'
  have hL : L.filter (·.1 ≠ hd) = L := List.filter_eq_self.mpr fun e he => by
    have hne := hnd'.2.2 e.1 (List.mem_map_of_mem he) hd (by simp)
    simpa using hne
  refine (hp.filter _).trans ?_
  rw [List.filter_append, hL]
  simp

/-! ## 4. A watcher as its task holds it -/

/-- The watcher `w`, as its task holds it, is running and fits the session once saved. -/
def Holds (w : Watcher) (s : Session) : Prop :=
  w.id ∈ s.sub.watchers.map (·.id) ∧ Subscriptions ((saveWatcher w).run s).2

/-- A running watcher, as it is, fits the session. -/
theorem holds_of_mem {w : Watcher} {s : Session} (h : Subscriptions s) (hw : w ∈ s.sub.watchers) :
    Holds w s := by
  refine ⟨List.mem_map_of_mem hw, ?_⟩
  rw [run_saveWatcher, savedAs_of_mem h.ids_nodup hw]
  exact h

theorem Holds.of_untouched {w : Watcher} {s s' : Session} (h : Holds w s)
    (he : untouched s' = untouched s) : Holds w s' := by
  simp only [untouched, Prod.mk.injEq] at he
  obtain ⟨h1, h2, h3, h4, h5⟩ := he
  refine ⟨h4 ▸ h.1, h.2.of_untouched ?_⟩
  simp only [run_saveWatcher, untouched, h1, h2, h3, h4, h5]

theorem Holds.congr {w w' : Watcher} {s : Session} (h : Holds w s) (hw : w'.holding = w.holding) :
    Holds w' s := by
  have hid : w'.id = w.id := congrArg (·.1) hw
  refine ⟨hid ▸ h.1, h.2.congr rfl ?_ (Nat.le_refl _) rfl rfl⟩
  exact holding_savedAs hw _

theorem Holds.save {w : Watcher} {s : Session} (h : Holds w s) :
    Holds w ((saveWatcher w).run s).2 := by
  refine ⟨(ids_savedAs w _).symm ▸ h.1, ?_⟩
  rw [run_saveWatcher, run_saveWatcher, savedAs_savedAs rfl]
  exact h.2

theorem run_closeHandle (hd : Nat) (s : Session) :
    ((closeHandle hd).run s).2 = { s with notifier := { s.notifier with
      openHandles := s.notifier.openHandles.filter (·.1 ≠ hd) } } := rfl

theorem run_dropWatcher (id : Nat) (s : Session) :
    ((dropWatcher id).run s).2 =
      { s with sub := { s.sub with watchers := s.sub.watchers.filter (·.id ≠ id) } } := rfl

/-- What a fitting watcher's own subscription is, among the open ones. -/
theorem Holds.open_perm {w : Watcher} {s : Session} (h : Holds w s) :
    s.notifier.openHandles.Perm
      (held (s.sub.watchers.filter (·.id ≠ w.id)) ++ w.subscription.toList) := by
  obtain ⟨hmem, hs⟩ := h
  exact hs.open_held.trans (held_savedAs (ids_savedAs w _ ▸ hs.ids_nodup) hmem)

/-- **Stopping a watcher** closes the one subscription it holds, so what stays open is what the
other watchers hold. -/
theorem Holds.stop {w : Watcher} {s : Session} (h : Holds w s) :
    Subscriptions ((stopWatcher w).run s).2 := by
  have hperm := h.open_perm
  obtain ⟨hmem, hs⟩ := h
  simp only [run_saveWatcher] at hs
  have hnd : (s.sub.watchers.map (·.id)).Nodup := ids_savedAs w _ ▸ hs.ids_nodup
  have hrest : ∀ x ∈ s.sub.watchers.filter (·.id ≠ w.id), x ∈ savedAs w s.sub.watchers :=
    fun x hx => mem_savedAs_of_mem_filter hx
  have hids : ((s.sub.watchers.filter (·.id ≠ w.id)).map (·.id)).Nodup :=
    hnd.sublist (List.filter_sublist.map _)
  cases hh : w.handle with
  | none =>
    have hrun : ((stopWatcher w).run s).2 = ((dropWatcher w.id).run s).2 := by
      unfold stopWatcher
      simp only [hh]
    rw [Watcher.subscription, hh, Option.map_none, Option.toList_none, List.append_nil] at hperm
    rw [hrun, run_dropWatcher]
    exact ⟨hs.map_nodup, hids, fun x hx => hs.ids_fresh x (hrest x hx),
      fun x hx => hs.unstarted x (hrest x hx), hperm, hs.handles_nodup, hs.handles_fresh⟩
  | some hd =>
    have hrun : ((stopWatcher w).run s).2 = ((dropWatcher w.id).run ((closeHandle hd).run s).2).2 := by
      unfold stopWatcher
      simp only [hh]
      rfl
    rw [Watcher.subscription, hh, Option.map_some, Option.toList_some] at hperm
    rw [hrun, run_dropWatcher, run_closeHandle]
    refine ⟨hs.map_nodup, hids, fun x hx => hs.ids_fresh x (hrest x hx),
      fun x hx => hs.unstarted x (hrest x hx), perm_filter_close hperm hs.handles_nodup, ?_,
      fun e he => hs.handles_fresh e (List.mem_of_mem_filter he)⟩
    exact hs.handles_nodup.sublist (List.filter_sublist.map _)

/-- **Closing the stale subscription**: the watcher, holding none, fits the session with it
closed. -/
theorem Holds.close {w : Watcher} {s : Session} {hd : Nat} (h : Holds w s)
    (hh : w.handle = some hd) : Holds { w with handle := none } ((closeHandle hd).run s).2 := by
  have hperm := h.open_perm
  obtain ⟨hmem, hs⟩ := h
  simp only [run_saveWatcher] at hs
  have hnd : (s.sub.watchers.map (·.id)).Nodup := ids_savedAs w _ ▸ hs.ids_nodup
  rw [Watcher.subscription, hh, Option.map_some, Option.toList_some] at hperm
  have hself : w ∈ savedAs w s.sub.watchers := self_mem_savedAs hmem
  have hheld := held_savedAs (w := { w with handle := none }) hnd hmem
  rw [Watcher.subscription, Option.map_none, Option.toList_none, List.append_nil] at hheld
  refine ⟨hmem, ?_⟩
  simp only [run_saveWatcher, run_closeHandle]
  refine ⟨hs.map_nodup, (ids_savedAs _ _).symm ▸ hnd, fun x hx => ?_, fun x hx => ?_,
    (perm_filter_close hperm hs.handles_nodup).trans hheld.symm, ?_,
    fun e he => hs.handles_fresh e (List.mem_of_mem_filter he)⟩
  · rcases mem_savedAs (w := w) hx rfl with rfl | hx
    · exact hs.ids_fresh w hself
    · exact hs.ids_fresh x hx
  · rcases mem_savedAs (w := w) hx rfl with rfl | hx
    · exact fun _ => rfl
    · exact hs.unstarted x hx
  · exact hs.handles_nodup.sublist (List.filter_sublist.map _)

/-- Asking the notifier for a subscription: it fails and nothing opens, or the next handle opens
for the watcher's account. -/
theorem subscribeAccount_spec (w : Watcher) (s : Session) :
    ((subscribeAccount w).run s).2.sub = s.sub ∧
      ((subscribeAccount w).run s).2.nextTaskId = s.nextTaskId ∧
      (((subscribeAccount w).run s).1 = none ∧
          ((subscribeAccount w).run s).2.notifier.openHandles = s.notifier.openHandles ∧
          ((subscribeAccount w).run s).2.notifier.nextHandle = s.notifier.nextHandle ∨
        ((subscribeAccount w).run s).1 = some s.notifier.nextHandle ∧
          ((subscribeAccount w).run s).2.notifier.openHandles =
            s.notifier.openHandles ++ [(s.notifier.nextHandle, w.pubkey)] ∧
          ((subscribeAccount w).run s).2.notifier.nextHandle = s.notifier.nextHandle + 1) := by
  unfold subscribeAccount
  simp only [run_bind_pair, run_get_pair]
  split
  · exact ⟨rfl, rfl, .inl ⟨rfl, rfl, rfl⟩⟩
  · exact ⟨rfl, rfl, .inr ⟨rfl, rfl, rfl⟩⟩

/-- **Opening a subscription** for a watcher that holds none: the watcher, holding what it was
given, fits the session. -/
theorem Holds.subscribe {w : Watcher} {s : Session} (h : Holds w s) (hh : w.handle = none) :
    Holds { w with started := true, handle := ((subscribeAccount w).run s).1 }
      ((subscribeAccount w).run s).2 := by
  have hperm := h.open_perm
  obtain ⟨hmem, hs⟩ := h
  simp only [run_saveWatcher] at hs
  have hnd : (s.sub.watchers.map (·.id)).Nodup := ids_savedAs w _ ▸ hs.ids_nodup
  rw [Watcher.subscription, hh, Option.map_none, Option.toList_none, List.append_nil] at hperm
  have hself : w ∈ savedAs w s.sub.watchers := self_mem_savedAs hmem
  -- whatever the notifier answers, the watcher fits as far as ids and starting go
  have hids : ∀ r, ((savedAs { w with started := true, handle := r } s.sub.watchers).map
      (·.id)).Nodup := fun r => (ids_savedAs _ _).symm ▸ hnd
  have hfresh : ∀ r, ∀ x ∈ savedAs { w with started := true, handle := r } s.sub.watchers,
      x.id < s.nextTaskId := fun r x hx => by
    rcases mem_savedAs (w := w) hx rfl with rfl | hx
    · exact hs.ids_fresh w hself
    · exact hs.ids_fresh x hx
  have hstarted : ∀ r, ∀ x ∈ savedAs { w with started := true, handle := r } s.sub.watchers,
      x.started = false → x.handle = none := fun r x hx => by
    rcases mem_savedAs (w := w) hx rfl with rfl | hx
    · exact fun h => absurd h (by simp)
    · exact hs.unstarted x hx
  have hheld : ∀ r, (held (savedAs { w with started := true, handle := r } s.sub.watchers)).Perm
      (held (s.sub.watchers.filter (·.id ≠ w.id)) ++ (r.map (·, w.pubkey)).toList) := fun r =>
    held_savedAs (w := { w with started := true, handle := r }) hnd hmem
  obtain ⟨hsub, hnext, hopen⟩ := subscribeAccount_spec w s
  generalize (subscribeAccount w).run s = r at hsub hnext hopen ⊢
  obtain ⟨r, s'⟩ := r
  dsimp only at hsub hnext hopen ⊢
  refine ⟨hsub ▸ hmem, ?_⟩
  rw [run_saveWatcher, hsub]
  rcases hopen with ⟨rfl, hopen, hhandle⟩ | ⟨rfl, hopen, hhandle⟩
  · refine ⟨hs.map_nodup, hids none, hnext ▸ hfresh none, hstarted none, ?_, ?_, ?_⟩
    · rw [hopen]
      exact hperm.trans (by simpa using (hheld none).symm)
    · exact hopen ▸ hs.handles_nodup
    · exact hopen ▸ hhandle ▸ hs.handles_fresh
  · refine ⟨hs.map_nodup, hids _, hnext ▸ hfresh _, hstarted _, ?_, ?_, ?_⟩
    · rw [hopen]
      exact (hperm.append_right _).trans (hheld (some s.notifier.nextHandle)).symm
    · rw [hopen, List.map_append, List.nodup_append]
      refine ⟨hs.handles_nodup, by simp, fun a ha b hb => ?_⟩
      obtain ⟨e, he, rfl⟩ := List.mem_map.mp ha
      simp only [List.map_cons, List.map_nil, List.mem_singleton] at hb
      exact hb ▸ Nat.ne_of_lt (hs.handles_fresh e he)
    · intro e he
      rw [hopen] at he
      rw [hhandle]
      rcases List.mem_append.mp he with he | he
      · exact Nat.lt_succ_of_lt (hs.handles_fresh e he)
      · simp only [List.mem_singleton] at he
        subst he
        exact Nat.lt_succ_self _

/-! ## 5. What watchers hand to the supervisor -/

/-- The oracles the session tracks, by address. -/
def trackedOracles (s : Session) : List Pubkey := s.store.tracked.oracles.map (·.1)

/-- The supervisor's inbox, with the supervisor's id. -/
def inboxOf (s : Session) : Option (Nat × List (List (Pubkey × AccountKind))) :=
  s.sub.supervisor.map fun sp => (sp.id, sp.inbox)

/-- The supervisor's inbox and the tracked oracles. -/
def handView (s : Session) : Option (Nat × List (List (Pubkey × AccountKind))) × List Pubkey :=
  (inboxOf s, trackedOracles s)

theorem routine_handView : Routine handView :=
  ⟨fun _ _ => rfl, fun _ _ => rfl, fun _ _ => rfl, fun _ _ => rfl, fun _ _ => rfl,
    fun _ _ => rfl, fun _ _ => rfl, fun _ _ => rfl,
    fun s _ _ hsp => by simp [handView, inboxOf, trackedOracles, hsp]⟩

theorem trackedOracles_wake (t : TaskRef) (s : Session) :
    trackedOracles ((wake t).run s).2 = trackedOracles s :=
  congrArg Prod.snd (keeps_wake routine_handView t s)

theorem inboxOf_wake (t : TaskRef) (s : Session) : inboxOf ((wake t).run s).2 = inboxOf s :=
  congrArg Prod.fst (keeps_wake routine_handView t s)

/-- From `s` to `s'` the tracked oracles only grow, and the accounts of `l` are distinct, were not
tracked at `s` and are tracked at `s'`. -/
structure HandedFresh (s s' : Session) (l : List (Pubkey × AccountKind)) : Prop where
  grows : trackedOracles s ⊆ trackedOracles s'
  nodup : (l.map (·.1)).Nodup
  fresh : ∀ k ∈ l.map (·.1), k ∉ trackedOracles s ∧ k ∈ trackedOracles s'

theorem HandedFresh.nil {s s' : Session} (h : trackedOracles s ⊆ trackedOracles s') :
    HandedFresh s s' [] :=
  ⟨h, List.nodup_nil, fun _ hk => absurd hk List.not_mem_nil⟩

/-- Fresh accounts handed over one after the other are fresh together: the later ones were
untracked when the earlier ones already were tracked. -/
theorem HandedFresh.append {s s' s'' : Session} {l l' : List (Pubkey × AccountKind)}
    (h : HandedFresh s s' l) (h' : HandedFresh s' s'' l') : HandedFresh s s'' (l ++ l') := by
  refine ⟨fun k hk => h'.grows (h.grows hk), ?_, fun k hk => ?_⟩
  · rw [List.map_append, List.nodup_append]
    refine ⟨h.nodup, h'.nodup, fun a ha b hb hab => ?_⟩
    exact (h'.fresh b hb).1 (hab ▸ (h.fresh a ha).2)
  · rw [List.map_append, List.mem_append] at hk
    rcases hk with hk | hk
    · exact ⟨(h.fresh k hk).1, h'.grows (h.fresh k hk).2⟩
    · exact ⟨fun hs => (h'.fresh k hk).1 (h.grows hs), (h'.fresh k hk).2⟩

/-- A step of a watcher: it appends to the supervisor's inbox batches of oracles that it tracked
itself, and that are fresh. -/
def Appends (s s' : Session) : Prop :=
  ∃ B : List (List (Pubkey × AccountKind)),
    inboxOf s' = (inboxOf s).map (fun e => (e.1, e.2 ++ B)) ∧ HandedFresh s s' B.flatten

theorem appends_of_view {s s' : Session} (h : handView s' = handView s) : Appends s s' := by
  simp only [handView, Prod.mk.injEq] at h
  exact ⟨[], by simp [h.1], HandedFresh.nil (h.2 ▸ List.Subset.refl _)⟩

instance appends_refl : Std.Refl Appends := ⟨fun _ => appends_of_view rfl⟩

instance appends_trans : Trans Appends Appends Appends where
  trans := by
    rintro s s' s'' ⟨B, hB, hf⟩ ⟨B', hB', hf'⟩
    refine ⟨B ++ B', ?_, by simpa using hf.append hf'⟩
    rw [hB', hB, Option.map_map]
    simp [Function.comp_def]

/-- **Tracking discovered oracles** answers exactly the new ones, each once. -/
theorem trackDiscovered_fresh (o : BatchOutcome) (s : Session) :
    HandedFresh s ((trackDiscovered o).run s).2 ((trackDiscovered o).run s).1 ∧
      inboxOf ((trackDiscovered o).run s).2 = inboxOf s := by
  unfold trackDiscovered
  split
  · exact ⟨HandedFresh.nil (List.Subset.refl _), rfl⟩
  · refine ⟨?_, rfl⟩
    -- tracking only oracles adds only oracles, the ones the merge of the oracle maps adds
    have hkeys : ((s.store.tracked.merge (AccountStore.oraclesToTrack o.discoveredOracles)).2.map
        (·.1)) = (TrackedAccounts.mergeOracles s.store.tracked.oracles
          (AccountStore.oraclesToTrack o.discoveredOracles).oracles).2.map (·.1) := by
      rw [TrackedAccounts.snd_merge]
      simp [AccountStore.oraclesToTrack, TrackedAccounts.ofOracles, TrackedAccounts.ofParts,
        Ordered.ofList, TrackedAccounts.mergeMarkets, TrackedAccounts.mergeUsers]
    have hadded := Ordered.mergeAbsent_added_fresh (fun k : Pubkey => k = Program.noOracle)
      Pubkey.compareBytes_eq_eq_iff
      s.store.tracked.oracles (AccountStore.oraclesToTrack o.discoveredOracles).oracles
    have hperm := @Ordered.perm_mergeAbsent _ _ Pubkey.compareBytes
      (fun k : Pubkey => k = Program.noOracle) _
      s.store.tracked.oracles (AccountStore.oraclesToTrack o.discoveredOracles).oracles
    rw [← TrackedAccounts.mergeOracles_eq] at hadded hperm
    have hmem : ∀ k, k ∈ s.store.tracked.oracles.map (·.1) ∨
        k ∈ (TrackedAccounts.mergeOracles s.store.tracked.oracles
          (AccountStore.oraclesToTrack o.discoveredOracles).oracles).2.map (·.1) →
        k ∈ (TrackedAccounts.mergeOracles s.store.tracked.oracles
          (AccountStore.oraclesToTrack o.discoveredOracles).oracles).1.map (·.1) := by
      intro k hk
      rw [← List.mem_append, ← List.map_append] at hk
      exact (hperm.map _).symm.subset hk
    refine ⟨fun k hk => hmem k (.inl hk), ?_, fun k hk => ?_⟩
    · show ((s.store.tracked.merge _).2.map (·.1)).Nodup
      rw [hkeys]
      exact hadded.1
    · have hk' : k ∈ (TrackedAccounts.mergeOracles s.store.tracked.oracles
          (AccountStore.oraclesToTrack o.discoveredOracles).oracles).2.map (·.1) := by
        rw [← hkeys]
        exact hk
      exact ⟨hadded.2 k hk', hmem k (.inr hk')⟩

/-- Sending to a supervisor appends the batch to its inbox, if it is the one running. -/
theorem sendToSupervisor_inbox (id : Nat) (added : List (Pubkey × AccountKind)) (s : Session) :
    trackedOracles ((sendToSupervisor id added).run s).2 = trackedOracles s ∧
      (inboxOf ((sendToSupervisor id added).run s).2 = inboxOf s ∨
        inboxOf ((sendToSupervisor id added).run s).2 =
          (inboxOf s).map fun e => (e.1, e.2 ++ [added])) := by
  unfold sendToSupervisor
  simp only [run_bind_pair, run_get_pair]
  split
  · next sp hsp =>
    split
    · simp only [run_bind_pair, run_set_pair, trackedOracles_wake, inboxOf_wake]
      exact ⟨rfl, .inr (by simp [inboxOf, hsp])⟩
    · exact ⟨rfl, .inl rfl⟩
  · exact ⟨rfl, .inl rfl⟩

theorem HandedFresh.of_tracked {s s' s'' : Session} {l : List (Pubkey × AccountKind)}
    (h : HandedFresh s s' l) (ht : trackedOracles s'' = trackedOracles s') : HandedFresh s s'' l :=
  ⟨ht ▸ h.grows, h.nodup, fun k hk => ⟨(h.fresh k hk).1, ht ▸ (h.fresh k hk).2⟩⟩

/-- **A pushed update hands the supervisor only oracles it tracked itself.** -/
theorem leads_applyUpdate (w : Watcher) (data : List UInt8) (slot : UInt64) :
    Leads Appends (applyUpdate w data slot) := by
  intro s
  unfold applyUpdate
  refine leadsAt_bind (appends_of_view (keeps_applyBatch routine_handView.applyBatch _ _ s)) ?_
  generalize ((applyBatch _ slot).run s).2 = s₁
  unfold LeadsAt
  rw [run_bind_pair]
  obtain ⟨hf, hinbox⟩ := trackDiscovered_fresh ((applyBatch [(w.pubkey, w.kind, some data)] slot).run s).1 s₁
  generalize (trackDiscovered _).run s₁ = r at hf hinbox ⊢
  obtain ⟨added, s₂⟩ := r
  dsimp only at hf hinbox ⊢
  split
  · obtain ⟨ht, hsend⟩ := sendToSupervisor_inbox w.supervisor added s₂
    rcases hsend with hsame | happ
    · exact ⟨[], by simp [hsame, hinbox], HandedFresh.nil (ht ▸ hf.grows)⟩
    · exact ⟨[added], by rw [happ, hinbox], by simpa using hf.of_tracked ht⟩
  · exact ⟨[], show inboxOf s₂ = _ by simp [hinbox], HandedFresh.nil hf.grows⟩

/-! ## 6. A watcher's run, through every wait -/

theorem handView_subscribeAccount (w : Watcher) (s : Session) :
    handView ((subscribeAccount w).run s).2 = handView s := by
  unfold subscribeAccount
  simp only [run_bind_pair, run_get_pair]
  split <;> rfl

theorem handView_stopWatcher (w : Watcher) (s : Session) :
    handView ((stopWatcher w).run s).2 = handView s := by
  unfold stopWatcher
  cases w.handle <;> rfl

section Watches

variable {α β : Type}

/-- Run from a state that the watcher `w` fits, the step `x` ends with the subscriptions fitting,
having handed the supervisor only fresh oracles. -/
def WatchesAt (w : Watcher) (x : Sim α) (s : Session) : Prop :=
  Holds w s → Subscriptions (x.run s).2 ∧ Appends s (x.run s).2

/-- The step `x` is a part of the run of the watcher `w`'s task that keeps what it should. -/
def WatchesFrom (w : Watcher) (x : Sim α) : Prop := ∀ s, WatchesAt w x s

theorem watchesAt_get_bind {w : Watcher} {k : Session → Sim α} {s : Session}
    (hk : WatchesAt w (k s) s) : WatchesAt w (get >>= k) s := hk

/-- A step that leaves the watchers' machinery alone and hands over only fresh oracles, then
the rest of the run. -/
theorem watches_bind {w : Watcher} {x : Sim α} {k : α → Sim β} (hx : Keeps untouched x)
    (hx' : Leads Appends x) (hk : ∀ a, WatchesFrom w (k a)) : WatchesFrom w (x >>= k) := by
  intro s hs
  rw [run_bind_pair]
  obtain ⟨h1, h2⟩ := hk _ _ (hs.of_untouched (hx s))
  exact ⟨h1, Trans.trans (hx' s) h2⟩

theorem WatchesFrom.congr {w w' : Watcher} {x : Sim α} (h : WatchesFrom w' x)
    (hw : w'.holding = w.holding) : WatchesFrom w x :=
  fun s hs => h s (hs.congr hw)

theorem watches_save (w : Watcher) : WatchesFrom w (saveWatcher w) :=
  fun _ hs => ⟨hs.2, appends_of_view rfl⟩

theorem watches_save_bind {w w' : Watcher} {k : PUnit → Sim α} (hw : w'.holding = w.holding)
    (hk : WatchesFrom w' (k ⟨⟩)) : WatchesFrom w (saveWatcher w' >>= k) := by
  intro s hs
  rw [run_bind_pair]
  obtain ⟨h1, h2⟩ := hk _ (hs.congr hw).save
  exact ⟨h1, Trans.trans (appends_of_view rfl : Appends s ((saveWatcher w').run s).2) h2⟩

theorem watches_stop (w : Watcher) : WatchesFrom w (stopWatcher w) :=
  fun s hs => ⟨hs.stop, appends_of_view (handView_stopWatcher w s)⟩

theorem watches_close_bind {w : Watcher} {hd : Nat} {k : PUnit → Sim α}
    (hh : w.handle = some hd) (hk : WatchesFrom { w with handle := none } (k ⟨⟩)) :
    WatchesFrom w (closeHandle hd >>= k) := by
  intro s hs
  rw [run_bind_pair]
  obtain ⟨h1, h2⟩ := hk _ (hs.close hh)
  exact ⟨h1, Trans.trans (appends_of_view rfl : Appends s ((closeHandle hd).run s).2) h2⟩

/-- Opening a subscription for the account of `v`, the watcher `w` as its task holds it, which
holds none. -/
theorem watches_subscribe_bind {w v : Watcher} {k : Option Nat → Sim α} (hh : w.handle = none)
    (hv : subscribeAccount v = subscribeAccount w)
    (hk : ∀ r, WatchesFrom { w with started := true, handle := r } (k r)) :
    WatchesFrom w (subscribeAccount v >>= k) := by
  intro s hs
  rw [hv, run_bind_pair]
  obtain ⟨h1, h2⟩ := hk _ _ (hs.subscribe hh)
  exact ⟨h1, Trans.trans (appends_of_view (handView_subscribeAccount w s)) h2⟩

end Watches

/-- **A watcher from one wait to the next** keeps the subscriptions fitting and hands the
supervisor only fresh oracles: a queued update is saved before it is applied, and a silence
closes the stale subscription before it opens a new one. -/
theorem watchFrom_watches : ∀ fuel (w : Watcher), w.started = true →
    WatchesFrom w (watchFrom fuel w)
  | 0, w, _ => by
    rw [watchFrom]
    exact watches_save w
  | fuel + 1, w, hst => by
    rw [watchFrom]
    intro s
    apply watchesAt_get_bind
    split
    · exact watches_stop w s
    · split
      · refine watches_save_bind (by rfl) ?_ s
        exact watches_bind (keeps_applyUpdate _ _ _) (leads_applyUpdate _ _ _) fun _ =>
          watchFrom_watches fuel _ hst
      · split
        · exact watches_bind (keeps_newTimer routine_untouched _)
            (Leads.of_keeps (fun _ _ => appends_of_view) (keeps_newTimer routine_handView _))
            (fun _ => (watchFrom_watches fuel _ (by exact hst)).congr (by rfl)) s
        · split
          · extract_lets jp
            have hjp : ∀ v : Watcher, v.handle = none → v.id = w.id → v.pubkey = w.pubkey →
                WatchesFrom v (jp ⟨⟩) := fun v hv hid hpk =>
              watches_subscribe_bind hv (by unfold subscribeAccount; rw [hid, hpk])
                fun _ => (watchFrom_watches fuel _ (by exact hst)).congr (by
                  simp [Watcher.holding, hid, hpk, hst])
            clear_value jp
            cases hh : w.handle with
            | some hd => exact watches_close_bind hh (hjp _ rfl rfl rfl) s
            | none => exact hjp w hh rfl rfl s
          · exact watches_save w s

/-- **A watcher's task run**: the subscriptions still fit, and the supervisor got only fresh
oracles. -/
theorem runWatcher_spec (id : Nat) {s : Session} (h : Subscriptions s) :
    Subscriptions ((runWatcher id).run s).2 ∧ Appends s ((runWatcher id).run s).2 := by
  unfold runWatcher
  rw [run_bind_pair, run_get_pair]
  dsimp only
  split
  · exact ⟨h, Std.Refl.refl s⟩
  · next w hw =>
    have hmem : w ∈ s.sub.watchers := List.mem_of_find?_eq_some hw
    have hholds := holds_of_mem h hmem
    split
    · next hst => exact watchFrom_watches _ w hst s hholds
    · next hst =>
      have hh := h.unstarted w hmem (by simpa using hst)
      exact watches_subscribe_bind hh rfl (fun _ => watchFrom_watches _ _ rfl) s hholds

/-! ## 7. Every other step hands the supervisor nothing -/

/-- A step that is not a watcher's: it keeps the subscriptions fitting, the tracked oracles only
grow, and it hands the supervisor nothing: its inbox ends empty, or no longer than the same
supervisor's was. -/
structure Quiet (s s' : Session) : Prop where
  held : Subscriptions s → Subscriptions s'
  grows : trackedOracles s ⊆ trackedOracles s'
  inbox : ∀ i q, inboxOf s' = some (i, q) →
    q = [] ∨ ∃ q₀, inboxOf s = some (i, q₀) ∧ q.length ≤ q₀.length

/-- What a quiet step may leave as it is: the watchers' machinery, the inbox, the tracking. -/
def quietView (s : Session) :
    (SlotTable × Nat × Notifier × List Watcher × List (Pubkey × Nat)) ×
      Option (Nat × List (List (Pubkey × AccountKind))) × List Pubkey :=
  (untouched s, handView s)

theorem Quiet.of_view {s s' : Session} (h : quietView s' = quietView s) : Quiet s s' := by
  simp only [quietView, handView, Prod.mk.injEq] at h
  obtain ⟨hu, hi, ht⟩ := h
  exact ⟨fun hs => hs.of_untouched hu, ht ▸ List.Subset.refl _,
    fun i q hq => .inr ⟨q, hi ▸ hq, Nat.le_refl _⟩⟩

instance quiet_refl : Std.Refl Quiet := ⟨fun _ => Quiet.of_view rfl⟩

instance quiet_trans : Trans Quiet Quiet Quiet where
  trans := by
    intro s s' s'' h h'
    refine ⟨fun hs => h'.held (h.held hs), fun k hk => h'.grows (h.grows hk), fun i q hq => ?_⟩
    rcases h'.inbox i q hq with rfl | ⟨q₁, hq₁, hle⟩
    · exact .inl rfl
    · rcases h.inbox i q₁ hq₁ with rfl | ⟨q₀, hq₀, hle'⟩
      · exact .inl (List.eq_nil_of_length_eq_zero (Nat.le_zero.mp hle))
      · exact .inr ⟨q₀, hq₀, Nat.le_trans hle hle'⟩

theorem routine_quietView : Routine quietView :=
  ⟨fun _ _ => rfl, fun _ _ => rfl, fun _ _ => rfl, fun _ _ => rfl, fun _ _ => rfl,
    fun _ _ => rfl, fun _ _ => rfl, fun _ _ => rfl,
    fun s _ _ hsp => by simp [quietView, untouched, handView, inboxOf, trackedOracles, hsp]⟩

section QuietSteps

variable {α : Type}

theorem Leads.quiet {x : Sim α} (h : Keeps quietView x) : Leads Quiet x :=
  Leads.of_keeps (fun _ _ => Quiet.of_view) h

theorem leadsAt_quiet_of_view {x : Sim α} {s : Session} (h : quietView (x.run s).2 = quietView s) :
    LeadsAt Quiet x s :=
  Quiet.of_view h

/-- Tracking more accounts only adds tracked oracles. -/
theorem quiet_track (more : TrackedAccounts) : Leads Quiet (track more) := fun s =>
  ⟨fun hs => hs.of_untouched (keeps_track more s),
    fun k hk => (AccountStore.mem_keys_track s.store more k).mpr (.inl hk),
    fun _ q hq => .inr ⟨q, hq, Nat.le_refl _⟩⟩

theorem quiet_trackDiscovered (o : BatchOutcome) : Leads Quiet (trackDiscovered o) := by
  unfold trackDiscovered
  split
  · exact leads_pure _
  · exact quiet_track _

theorem quiet_freshId : Leads Quiet freshId := fun _ =>
  ⟨fun hs => hs.congr rfl rfl (Nat.le_succ _) rfl rfl, List.Subset.refl _,
    fun _ q hq => .inr ⟨q, hq, Nat.le_refl _⟩⟩

/-- **Starting watchers** keeps the subscriptions fitting: a watcher is started only for an
account the map does not name, under a fresh id, holding nothing. -/
theorem quiet_startWatchers (ctx : WatchContext) (targets : List (Pubkey × AccountKind)) :
    Leads Quiet (startWatchers ctx targets) := by
  refine Leads.forM fun target _ => ?_
  intro s
  apply leadsAt_get_bind
  split
  · rename_i hnew
    unfold LeadsAt
    simp only [freshId, run_bind_pair, run_get_pair, run_set_pair, run_pure_pair,
      run_modify_pair]
    refine Trans.trans (r := Quiet) ?_ (Leads.quiet (keeps_wake routine_quietView _) _)
    refine ⟨fun hs => ?_, List.Subset.refl _, fun _ q hq => .inr ⟨q, hq, Nat.le_refl _⟩⟩
    refine ⟨?_, ?_, fun w hw => ?_, fun w hw => ?_, ?_, hs.handles_nodup, hs.handles_fresh⟩
    · show ((s.sub.watcherMap ++ [(target.1, s.nextTaskId)]).map (·.1)).Nodup
      rw [nodup_keys_append hnew]
      exact hs.map_nodup
    · rw [List.map_append, List.nodup_append]
      refine ⟨hs.ids_nodup, List.nodup_singleton _, fun a ha b hb hab => ?_⟩
      obtain ⟨w, hw, rfl⟩ := List.mem_map.mp ha
      simp only [List.map_cons, List.map_nil, List.mem_singleton] at hb
      exact Nat.lt_irrefl _ (hb ▸ hab ▸ hs.ids_fresh w hw)
    · rcases List.mem_append.mp hw with hw | hw
      · exact Nat.lt_succ_of_lt (hs.ids_fresh w hw)
      · rw [List.mem_singleton] at hw
        subst hw
        exact Nat.lt_succ_self _
    · rcases List.mem_append.mp hw with hw | hw
      · exact hs.unstarted w hw
      · rw [List.mem_singleton] at hw
        subst hw
        exact fun _ => rfl
    · show s.notifier.openHandles.Perm (held (s.sub.watchers ++ [_]))
      rw [held, List.filterMap_append]
      simp only [List.filterMap_cons, List.filterMap_nil, Watcher.subscription, Option.map_none,
        List.append_nil]
      exact hs.open_held
  · exact leads_pure _ _

/-! ### The ticker and the supervisor -/

theorem quiet_tickFrom (id period : Nat) : ∀ fuel due, Leads Quiet (tickFrom id period fuel due)
  | 0, due => by
    rw [tickFrom]
    exact (Leads.quiet (keeps_newTimerAt routine_quietView _)).bind fun _ =>
      Leads.quiet (keeps_setTickerPhase routine_quietView _ _)
  | fuel + 1, due => by
    rw [tickFrom]
    intro s
    apply leadsAt_get_bind
    extract_lets now next jp
    have hjp : ∀ added, Leads Quiet (jp added) := by
      intro added
      dsimp only [jp]
      split
      · exact quiet_tickFrom id period fuel _
      · exact (Leads.quiet (keeps_requestLoads routine_quietView _ _)).bind fun _ =>
          Leads.quiet (keeps_setTickerPhase routine_quietView _ _)
    clear_value jp
    split
    · refine leadsAt_bind (Leads.quiet (keeps_readTracked routine_quietView) s) ?_
      split
      · exact ((leads_pure _).bind hjp) _
      · exact ((quiet_trackDiscovered _).bind hjp) _
    · exact ((Leads.quiet (keeps_newTimerAt routine_quietView _)).bind fun _ =>
        Leads.quiet (keeps_setTickerPhase routine_quietView _ _)) s

theorem quiet_runTicker (id : Nat) : Leads Quiet (runTicker id) := by
  intro s
  apply leadsAt_get_bind
  split
  · exact leads_pure _ _
  · split
    · exact leads_pure _ _
    · split
      · split
        · exact Quiet.of_view rfl
        · exact quiet_tickFrom _ _ _ _ s
      · split
        · exact quiet_tickFrom _ _ _ _ s
        · exact leads_pure _ _
      · split
        · exact ((Leads.quiet (keeps_applyLoaded routine_quietView.applyBatch _ _)).bind fun _ =>
            quiet_tickFrom _ _ _ _) s
        · exact leads_pure _ _

/-- The supervisor taking batches from the front of its inbox. -/
theorem quiet_setSupervisor {s : Session} {sp : Supervisor} (hsp : s.sub.supervisor = some sp)
    (q : List (List (Pubkey × AccountKind))) (l : Option AddedLoad)
    (hq : q.length ≤ sp.inbox.length) :
    LeadsAt Quiet (setSupervisor (some { sp with inbox := q, loading := l })) s := by
  refine ⟨fun hs => hs.of_untouched (keeps_setSupervisor _ s), List.Subset.refl _,
    fun i q' hq' => ?_⟩
  have heq : (sp.id, q) = (i, q') := Option.some.inj
    ((show inboxOf ((setSupervisor (some { sp with inbox := q, loading := l })).run s).2 =
      some (sp.id, q) from rfl).symm.trans hq')
  obtain ⟨rfl, rfl⟩ := Prod.mk.inj heq
  exact .inr ⟨sp.inbox, by simp [inboxOf, hsp], hq⟩

theorem quiet_setSupervisor_none : Leads Quiet (setSupervisor none) := fun s =>
  ⟨fun hs => hs.of_untouched (keeps_setSupervisor _ s), List.Subset.refl _,
    fun _ _ hq => absurd hq (by simp [setSupervisor, inboxOf])⟩

theorem quiet_superviseFrom : ∀ fuel, Leads Quiet (superviseFrom fuel)
  | 0 => by
    rw [superviseFrom]
    exact leads_pure _
  | fuel + 1 => by
    rw [superviseFrom]
    intro s
    apply leadsAt_get_bind
    split
    · exact leads_pure _ _
    · next sp hsp =>
      split
      · exact quiet_setSupervisor_none s
      · split
        · exact leads_pure _ _
        · next targets rest hinbox =>
          have hle : rest.length ≤ sp.inbox.length := by simp [hinbox]
          split
          · exact leadsAt_bind (quiet_setSupervisor hsp rest _ hle) (quiet_superviseFrom fuel _)
          · exact leadsAt_bind (quiet_setSupervisor hsp rest _ hle)
              (Leads.quiet (keeps_requestLoads routine_quietView _ _) _)

theorem quiet_runSupervisor (id : Nat) : Leads Quiet (runSupervisor id) := by
  intro s
  apply leadsAt_get_bind
  split
  · exact leads_pure _ _
  · next sp hsp =>
    split
    · exact leads_pure _ _
    · split
      · rename_i added answers _
        refine leadsAt_bind
          (Leads.quiet (keeps_applyLoaded routine_quietView.applyBatch _ _) s) ?_
        have hsp' : ((applyLoaded added answers).run s).2.sub.supervisor = some sp :=
          (keeps_applyLoaded (f := fun s : Session => s.sub.supervisor) (fun _ _ _ => rfl) added
            answers s).trans hsp
        refine leadsAt_bind (quiet_setSupervisor hsp' sp.inbox none (Nat.le_refl _)) ?_
        exact ((quiet_startWatchers _ _).bind fun _ => quiet_superviseFrom _) _
      · exact leads_pure _ _
      · exact quiet_superviseFrom _ s

/-! ### The notifier's pushes and the caller's calls -/

/-- A pushed update is queued at the watcher, which holds what it held. -/
theorem quiet_push (k : Pubkey) (data : List UInt8) (slot : UInt64) :
    Leads Quiet (Api.Session.push k data slot) := by
  intro s
  apply leadsAt_get_bind
  split
  · exact leads_pure _ _
  · split
    · exact leads_pure _ _
    · next w hw =>
      refine leadsAt_bind ?_
        (((Leads.quiet (keeps_wake routine_quietView _)).bind fun _ => leads_pure _) _)
      refine ⟨fun hs => ?_, List.Subset.refl _, fun _ q hq => .inr ⟨q, hq, Nat.le_refl _⟩⟩
      have hpushed : Holds { w with inbox := w.inbox ++ [(data, slot)] } s :=
        (holds_of_mem hs (List.mem_of_find?_eq_some hw)).congr rfl
      exact hpushed.2

theorem quiet_ensureWatchers : Leads Quiet ensureWatchers := by
  intro s
  apply leadsAt_get_bind
  split
  · exact quiet_startWatchers _ _ s
  · exact leads_pure _ _

/-- A new supervisor starts with an empty inbox. -/
theorem quiet_newSupervisor (sp : Supervisor) (hsp : sp.inbox = []) (ctx : Option WatchContext) :
    Leads Quiet (setSub fun sub => { sub with supervisor := some sp, context := ctx }) := fun s =>
  ⟨fun hs => hs.of_untouched rfl, List.Subset.refl _, fun _ q hq => .inl (by
    simp only [setSub, run_modify_pair, inboxOf, Option.map_some, Option.some.injEq,
      Prod.mk.injEq] at hq
    exact hq.2 ▸ hsp)⟩

theorem quiet_startKeepingFresh : Leads Quiet startKeepingFresh := by
  intro s
  apply leadsAt_get_bind
  split
  · exact leads_pure _ _
  · apply leadsAt_get_bind
    extract_lets jp
    -- both modes end by marking the subscriber subscribed
    have hjp : ∀ r, Leads Quiet (jp r) := fun _ _ =>
      leadsAt_modify_bind (Quiet.of_view rfl) (leads_pure _ _)
    clear_value jp
    split
    · refine leadsAt_bind (quiet_freshId _) (leadsAt_modify_bind (Quiet.of_view rfl) ?_)
      exact ((Leads.quiet (keeps_wake routine_quietView _)).bind hjp) _
    · refine leadsAt_modify_bind (Quiet.of_view rfl) (leadsAt_get_bind ?_)
      refine leadsAt_bind (quiet_freshId _) (leadsAt_bind (quiet_newSupervisor _ rfl _ _) ?_)
      exact ((Leads.quiet (keeps_wake routine_quietView _)).bind fun _ =>
        quiet_ensureWatchers.bind hjp) _

/-- Forgetting the watcher map keeps the subscriptions fitting. -/
theorem quiet_clearMap : Leads Quiet (setSub fun sub => { sub with watcherMap := [] }) := fun _ =>
  ⟨fun hs => ⟨List.nodup_nil, hs.ids_nodup, hs.ids_fresh, hs.unstarted, hs.open_held,
    hs.handles_nodup, hs.handles_fresh⟩, List.Subset.refl _,
    fun _ q hq => .inr ⟨q, hq, Nat.le_refl _⟩⟩

theorem quiet_signalShutdown : Leads Quiet signalShutdown := by
  intro s
  refine leadsAt_modify_bind (Quiet.of_view rfl) (leadsAt_get_bind ?_)
  refine leadsAt_bind (Leads.forM (fun _ _ => Leads.quiet (keeps_wake routine_quietView _)) _) ?_
  extract_lets jp
  have hjp : ∀ r, Leads Quiet (jp r) := fun _ => quiet_clearMap.bind fun _ => leads_pure _
  clear_value jp
  split
  · exact ((Leads.quiet (keeps_wake routine_quietView _)).bind hjp) _
  · exact hjp _ _

theorem quiet_stopTicker : Leads Quiet stopTicker :=
  fun _ => leadsAt_get_bind (leadsAt_quiet_of_view rfl)

theorem quiet_endSubscription : Leads Quiet endSubscription :=
  leads_modify fun _ => Quiet.of_view rfl

theorem quiet_askMainLoads (keys : List Pubkey) : Leads Quiet (askMainLoads keys) := fun _ =>
  leadsAt_modify_bind (Quiet.of_view rfl) (Leads.quiet (keeps_requestLoads routine_quietView _ _) _)

theorem quiet_takeMainAnswers (keys : List Pubkey) : Leads Quiet (takeMainAnswers keys) :=
  fun _ => leadsAt_get_bind (leadsAt_set_bind (Quiet.of_view rfl) (leads_pure _ _))

theorem quiet_applyLoaded (added : List (Pubkey × AccountKind)) (answers : List Loader.LoadAnswer) :
    Leads Quiet (applyLoaded added answers) :=
  Leads.quiet (keeps_applyLoaded routine_quietView.applyBatch _ _)

end QuietSteps

/-! ## 8. What a step hands over -/

/-- The batches a step adds to the supervisor's inbox, in one list. The inbox is a queue:
watchers append batches at its end and the supervisor takes them from its front, so what a step
adds is what stands past the inbox the same supervisor had before; all of a new supervisor's
inbox is new. -/
def handedOver (s s' : Session) : List (Pubkey × AccountKind) :=
  match inboxOf s, inboxOf s' with
  | _, none => []
  | some (i, q), some (i', q') => if i = i' then (q'.drop q.length).flatten else q'.flatten
  | none, some (_, q') => q'.flatten

/-- A quiet step hands over nothing. -/
theorem handedOver_of_quiet {s s' : Session} (h : Quiet s s') : handedOver s s' = [] := by
  unfold handedOver
  cases hs' : inboxOf s' with
  | none => cases inboxOf s <;> rfl
  | some e =>
    obtain ⟨i', q'⟩ := e
    rcases h.inbox i' q' hs' with rfl | ⟨q₀, hs, hle⟩
    · cases hs : inboxOf s with
      | none => rfl
      | some e => simp
    · rw [hs]
      simp [List.drop_eq_nil_of_le hle]

/-- A watcher's step hands over just what it appended. -/
theorem handedFresh_of_appends {s s' : Session} (h : Appends s s') :
    HandedFresh s s' (handedOver s s') := by
  obtain ⟨B, hB, hf⟩ := h
  unfold handedOver
  cases hs : inboxOf s with
  | none =>
    rw [hs, Option.map_none] at hB
    rw [hB]
    exact HandedFresh.nil hf.grows
  | some e =>
    rw [hs, Option.map_some] at hB
    rw [hB]
    simpa using hf

/-- What a step of a session keeps and hands over: from fitting subscriptions, the subscriptions
still fit, and what the supervisor got is fresh. -/
def StepSpec (s s' : Session) : Prop :=
  Subscriptions s → Subscriptions s' ∧ HandedFresh s s' (handedOver s s')

theorem Quiet.spec {s s' : Session} (h : Quiet s s') : StepSpec s s' := fun hs =>
  ⟨h.held hs, by rw [handedOver_of_quiet h]; exact HandedFresh.nil h.grows⟩

/-- **A task's run** keeps the subscriptions fitting, and hands the supervisor only fresh oracles,
whichever task it is. -/
theorem runTask_spec (t : TaskRef) (s : Session) : StepSpec s ((runTask t).run s).2 := by
  cases t with
  | flush => exact (Leads.quiet (keeps_runFlush routine_quietView) s).spec
  | task id =>
    unfold runTask
    rw [run_bind_pair, run_get_pair]
    dsimp only
    split
    · exact (quiet_runTicker id s).spec
    · split
      · exact (quiet_runSupervisor id s).spec
      · exact fun h => ⟨(runWatcher_spec id h).1, handedFresh_of_appends (runWatcher_spec id h).2⟩

/-! ## 9. The caller's calls, up to their waits -/

/-- What is left of a call once its wait is over is a quiet step. -/
def RestQuiet : MainPhase → Prop
  | .idle => True
  | .waiting _ _ rest => Leads Quiet rest

/-- From `s`, a call up to its wait is a quiet step and leaves a quiet rest. -/
def PhaseQuietAt (x : Sim MainPhase) (s : Session) : Prop :=
  Quiet s (x.run s).2 ∧ RestQuiet (x.run s).1

def PhaseQuiet (x : Sim MainPhase) : Prop := ∀ s, PhaseQuietAt x s

section Phases

variable {α : Type}

theorem phaseQuiet_pure (p : MainPhase) (hp : RestQuiet p) : PhaseQuiet (pure p) :=
  fun s => ⟨Std.Refl.refl s, hp⟩

theorem phaseQuietAt_get_bind {k : Session → Sim MainPhase} {s : Session}
    (h : PhaseQuietAt (k s) s) : PhaseQuietAt (get >>= k) s := h

theorem PhaseQuiet.bind {x : Sim α} {k : α → Sim MainPhase} (hx : Leads Quiet x)
    (hk : ∀ a, PhaseQuiet (k a)) : PhaseQuiet (x >>= k) := by
  intro s
  rw [PhaseQuietAt, run_bind_pair]
  obtain ⟨h1, h2⟩ := hk _ (x.run s).2
  exact ⟨Trans.trans (hx s) h1, h2⟩

end Phases

theorem phaseQuiet_loadAddedThen (c : Call) (added : List (Pubkey × AccountKind))
    {k : Except ClientError Unit → Sim Unit} (hk : ∀ r, Leads Quiet (k r)) :
    PhaseQuiet (loadAddedThen c added k) := by
  unfold loadAddedThen
  split
  · exact PhaseQuiet.bind (hk _) fun _ => phaseQuiet_pure .idle trivial
  · exact PhaseQuiet.bind (quiet_askMainLoads _) fun _ => phaseQuiet_pure _
      ((quiet_takeMainAnswers _).bind fun _ => (quiet_applyLoaded _ _).bind hk)

theorem phaseQuiet_pollThen (c : Call) {k : Outcome Unit → Sim Unit}
    (hk : ∀ r, Leads Quiet (k r)) : PhaseQuiet (pollThen c k) := by
  unfold pollThen
  refine PhaseQuiet.bind (Leads.quiet (keeps_readTracked routine_quietView)) fun r => ?_
  cases r with
  | error f => exact PhaseQuiet.bind (hk _) fun _ => phaseQuiet_pure .idle trivial
  | ok o =>
    exact PhaseQuiet.bind (quiet_trackDiscovered o) fun added =>
      phaseQuiet_loadAddedThen c added fun _ => hk _

/-- **Every call up to its wait** is quiet, and so is what is left of it. -/
theorem phaseQuiet_begin (c : Call) : PhaseQuiet c.begin := by
  cases c with
  | subscribe =>
    intro s
    apply phaseQuietAt_get_bind
    split
    · exact phaseQuiet_pure .idle trivial s
    · exact phaseQuiet_pollThen _ (fun _ => quiet_startKeepingFresh.bind fun _ => leads_pure _) s
  | fetch =>
    intro s
    apply phaseQuietAt_get_bind
    split
    · exact phaseQuiet_pollThen _ (fun _ => leads_pure _) s
    · refine phaseQuiet_pollThen _ (fun r => ?_) s
      cases r with
      | error => exact leads_pure _
      | ok => exact quiet_ensureWatchers
  | extend more =>
    refine PhaseQuiet.bind (quiet_track more) fun added s => phaseQuietAt_get_bind ?_
    split
    · exact phaseQuiet_pure .idle trivial s
    · refine phaseQuiet_loadAddedThen _ added (fun _ s' => leadsAt_get_bind ?_) s
      split
      · exact quiet_ensureWatchers s'
      · exact leads_pure _ s'
  | unsubscribe =>
    intro s
    apply phaseQuietAt_get_bind
    split
    · exact PhaseQuiet.bind quiet_stopTicker (fun _ => PhaseQuiet.bind quiet_endSubscription
        fun _ => phaseQuiet_pure .idle trivial) s
    · exact PhaseQuiet.bind quiet_signalShutdown
        (fun awaited => phaseQuiet_pure (.waiting .unsubscribe (allEnded awaited) endSubscription)
          quiet_endSubscription) s

end Session

end PerpClient
