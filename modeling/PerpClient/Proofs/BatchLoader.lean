import PerpClient.Proofs.SessionFrame
import PerpClient.Proofs.AccountOrder
/-!
# The batch loader

Single loads made close together share one read of the ledger. A load joins the pending batch
(`requestLoads`); the first load of a batch wakes the flush, which sets the batch's timer when it
first runs; once the timer is due the flush takes the whole batch (`takeBatch`), reads each
address once and hands every waiter the answers of its own loads (`flushLoads`).

Over any interleaving of loads, runs of the flush and moves of the clock (`LoaderStep`):

* `LoaderSound.pending_ne_nil_iff`: something is pending exactly when the flush is scheduled,
  woken in the queue or waiting on its timer; the queue holds it at most once, and the timers at
  most one timer for it (`count_flush_timers`);
* `runLoaderSteps_sound`: the loader stays in order, and every load is pending or in exactly one
  taken batch, in the order asked; no batch taken is empty;
* `flush_replies`: a flush hands each waiter, once, one answer per load of its own, all read at
  one slot or all with one error.
-/

namespace PerpClient

/-! ## 1. The answers of a flush -/

namespace Loader

variable {σ : Type}

/-- **A flush answers each load once, alike**: one answer per key, in order, either every
account read at one slot or one error for all. -/
theorem flush_answers (ledger : Ledger σ) (keys : List Pubkey) (s : σ) :
    (∃ (slot : UInt64) (data : Pubkey → Option (List UInt8)),
        ((flush ledger keys).run s).1 = keys.map fun k => .ok ⟨data k, slot⟩) ∨
      ∃ e, ((flush ledger keys).run s).1 = keys.map fun _ => .error e := by
  unfold flush
  rw [run_bind_pair]
  cases ((loadMany ledger (distinct keys)).run.run s).1 with
  | ok loaded =>
    exact .inl ⟨loaded.slot,
      fun k => ((distinct keys).idxOf? k).bind fun i => (loaded.data[i]?).join, rfl⟩
  | error f => exact .inr ⟨flushError f, rfl⟩

end Loader

/-! ## 2. Handing the answers over -/

namespace Session

/-- Answers given load by load reach each waiter as the answers of its own loads. -/
theorem answersFor_map (loads : List (Pubkey × Waiter)) (f : Pubkey × Waiter → Loader.LoadAnswer)
    (w : Waiter) : answersFor loads (loads.map f) w = (loads.filter (·.2 = w)).map f := by
  induction loads with
  | nil => rfl
  | cons l loads ih =>
    obtain ⟨k, w'⟩ := l
    unfold answersFor at ih ⊢
    by_cases hw : w' = w <;> simp [hw, ih]

/-- Each waiter of a batch is handed its answers once, in the order it first asked. -/
theorem handOvers_eq (loads : List (Pubkey × Waiter)) (answers : List Loader.LoadAnswer) :
    handOvers loads answers =
      (loads.map (·.2)).eraseDups.map fun w => (w, answersFor loads answers w) := by
  rw [handOvers, appendNew_nil_eq_eraseDups]

/-- **A flush hands each waiter, once, one answer per load of its own, all alike**: the waiters in
the order they first asked, each with the answers of its own loads in order, every one read at
one slot or every one the same error. -/
theorem flush_replies {σ : Type} (ledger : Ledger σ) (loads : List (Pubkey × Waiter)) (s : σ) :
    let answers := ((Loader.flush ledger (loads.map (·.1))).run s).1
    handOvers loads answers =
        (loads.map (·.2)).eraseDups.map (fun w => (w, answersFor loads answers w)) ∧
      ((∃ (slot : UInt64) (data : Pubkey → Option (List UInt8)), ∀ w,
          answersFor loads answers w = (loads.filter (·.2 = w)).map fun l => .ok ⟨data l.1, slot⟩) ∨
        ∃ e, ∀ w, answersFor loads answers w = (loads.filter (·.2 = w)).map fun _ => .error e) := by
  intro answers
  refine ⟨handOvers_eq loads answers, ?_⟩
  rcases Loader.flush_answers ledger (loads.map (·.1)) s with ⟨slot, data, h⟩ | ⟨e, h⟩
  · refine .inl ⟨slot, data, fun w => ?_⟩
    have hans : answers = loads.map fun l => .ok ⟨data l.1, slot⟩ := by
      rw [show answers = _ from h, List.map_map]
      rfl
    rw [hans]
    exact answersFor_map loads _ w
  · refine .inr ⟨e, fun w => ?_⟩
    have hans : answers = loads.map fun _ => .error e := by
      rw [show answers = _ from h, List.map_map]
      rfl
    rw [hans]
    exact answersFor_map loads _ w

/-! ## 3. What is pending, and when the flush is scheduled -/

/-- The loads waiting for the next flush, in the order asked. -/
def pending (s : Session) : List (Pubkey × Waiter) := (s.batch.map (·.loads)).getD []

/-- The flush is scheduled: woken in the ready queue, or waiting on its timer. -/
def FlushScheduled (s : Session) : Prop :=
  TaskRef.flush ∈ s.queue ∨ TaskRef.flush ∈ (timers s).map (·.2)

/-- The loader's part of a session is in order: a batch is never empty, its flush is woken or
its timer set, the flush is not woken with nothing pending, and it is woken at most once. -/
structure LoaderSound (s : Session) : Prop where
  nonempty : ∀ b, s.batch = some b → b.loads ≠ []
  scheduled : ∀ b, s.batch = some b → TaskRef.flush ∈ s.queue ∨ b.timer.isSome
  idle : s.batch = none → TaskRef.flush ∉ s.queue
  once : s.queue.count .flush ≤ 1

theorem LoaderSound.congr {s s' : Session} (h : LoaderSound s) (hb : s'.batch = s.batch)
    (hq : s'.queue = s.queue) : LoaderSound s' :=
  ⟨hb ▸ h.nonempty, hb ▸ hq ▸ h.scheduled, hb ▸ hq ▸ h.idle, hq ▸ h.once⟩

theorem loaderSound_start (c : SessionConfig) : LoaderSound (start c) where
  nonempty _ h := nomatch h
  scheduled _ h := nomatch h
  idle _ := List.not_mem_nil
  once := Nat.zero_le _

/-- Only the batch's timer wakes the flush. -/
theorem flush_mem_timers {s : Session} {tm : Timer} (h : (tm, TaskRef.flush) ∈ timers s) :
    ∃ b, s.batch = some b ∧ b.timer = some tm := by
  unfold timers at h
  rcases List.mem_append.mp h with h | h
  · rcases List.mem_append.mp h with h | h
    · split at h
      · rename_i b' t' loads hb
        obtain ⟨rfl, -⟩ := Prod.mk.inj (List.mem_singleton.mp h)
        exact ⟨_, hb, rfl⟩
      · simp at h
    · split at h <;> simp at h
  · obtain ⟨w, -, hw⟩ := List.mem_filterMap.mp h
    cases hwt : w.timer <;> simp [hwt] at hw

theorem mem_timers_of_batch {s : Session} {b : PendingBatch} {tm : Timer} (hb : s.batch = some b)
    (ht : b.timer = some tm) : (tm, TaskRef.flush) ∈ timers s := by
  obtain ⟨t, loads⟩ := b
  simp only at ht
  subst ht
  simp [timers, hb]

/-- The timers hold at most one timer of the flush. -/
theorem count_flush_timers (s : Session) : ((timers s).map (·.2)).count .flush ≤ 1 := by
  have hwatchers : TaskRef.flush ∉
      (s.sub.watchers.filterMap fun w => w.timer.map (·, TaskRef.task w.id)).map (·.2) := by
    intro hmem
    obtain ⟨⟨tm, task⟩, hp, rfl⟩ := List.mem_map.mp hmem
    obtain ⟨w, -, hw⟩ := List.mem_filterMap.mp hp
    cases hwt : w.timer <;> simp [hwt] at hw
  unfold timers
  simp only [List.map_append, List.count_append, List.count_eq_zero.mpr hwatchers]
  split <;> split <;> simp

/-- **When the flush is scheduled**: in a loader in order, something is pending exactly when the
flush is woken or waiting on its timer. -/
theorem LoaderSound.pending_ne_nil_iff {s : Session} (h : LoaderSound s) :
    pending s ≠ [] ↔ FlushScheduled s := by
  constructor
  · intro hp
    cases hb : s.batch with
    | none => simp [pending, hb] at hp
    | some b =>
      rcases h.scheduled b hb with hq | ht
      · exact .inl hq
      · obtain ⟨tm, htm⟩ := Option.isSome_iff_exists.mp ht
        exact .inr (List.mem_map.mpr ⟨_, mem_timers_of_batch hb htm, rfl⟩)
  · rintro (hq | ht)
    · cases hb : s.batch with
      | none => exact absurd hq (h.idle hb)
      | some b => simpa [pending, hb] using h.nonempty b hb
    · obtain ⟨⟨tm, task⟩, hmem, rfl⟩ := List.mem_map.mp ht
      obtain ⟨b, hb, -⟩ := flush_mem_timers hmem
      simpa [pending, hb] using h.nonempty b hb

/-! ## 4. What each part of the loader does -/

theorem wake_run (t : TaskRef) (s : Session) :
    (wake t).run s =
      (⟨⟩, if s.queue.contains t then s else { s with queue := s.queue ++ [t] }) := rfl

theorem newTimer_run (delay : Nat) (s : Session) :
    (newTimer delay).run s =
      (⟨s.now + delay, s.nextOrder⟩, { s with nextOrder := s.nextOrder + 1 }) := rfl

theorem wake_batch (t : TaskRef) (s : Session) : ((wake t).run s).2.batch = s.batch := by
  rw [wake_run]
  split <;> rfl

/-- Waking a task keeps the loader in order when it wakes the flush only with a batch pending. -/
theorem LoaderSound.wake {s : Session} (h : LoaderSound s) {t : TaskRef}
    (ht : t = .flush → s.batch.isSome) : LoaderSound ((wake t).run s).2 := by
  rw [wake_run]
  split
  · exact h
  · rename_i hnew
    refine ⟨h.nonempty, fun b hb => ?_, fun hb => ?_, ?_⟩
    · rcases h.scheduled b hb with hq | htimer
      · exact .inl (List.mem_append_left _ hq)
      · exact .inr htimer
    · change s.batch = none at hb
      have htf : t ≠ .flush := fun hf => by
        have hsome := ht hf
        simp [hb] at hsome
      simp [h.idle hb, Ne.symm htf]
    · rw [List.count_append]
      by_cases htf : t = .flush
      · subst htf
        have hzero : s.queue.count .flush = 0 := List.count_eq_zero.mpr (by simpa using hnew)
        simp [hzero]
      · simp [htf, h.once]

/-- Waking a background task leaves the loader's view alone: the batch, and how often the flush
is woken. -/
theorem keeps_wake_task (id : Nat) :
    Keeps (fun s : Session => (s.batch, s.queue.count .flush)) (wake (.task id)) := by
  intro s
  show (((wake (.task id)).run s).2.batch, ((wake (.task id)).run s).2.queue.count .flush) =
    (s.batch, s.queue.count .flush)
  rw [wake_run]
  split
  · rfl
  · simp

/-- Flushing a taken batch leaves the loader's view alone. -/
theorem flushLoads_view (loads : List (Pubkey × Waiter)) (s : Session) :
    ((flushLoads loads).run s).2.batch = s.batch ∧
      ((flushLoads loads).run s).2.queue.count .flush = s.queue.count .flush := by
  have h := keeps_flushLoads (f := fun s : Session => (s.batch, s.queue.count .flush))
    (fun _ _ => rfl) (fun _ _ => rfl) (fun _ _ _ _ => rfl) keeps_wake_task (fun _ _ => rfl) loads s
  exact Prod.mk.inj h

theorem requestLoads_run_of_some {s : Session} {b : PendingBatch} (hb : s.batch = some b)
    (w : Waiter) (keys : List Pubkey) :
    (requestLoads w keys).run s =
      (⟨⟩, { s with batch := some { b with loads := b.loads ++ keys.map (·, w) } }) := by
  simp only [requestLoads, run_bind_pair, run_get_pair, hb, run_set_pair]

theorem requestLoads_run_of_none {s : Session} (hb : s.batch = none) (w : Waiter)
    (keys : List Pubkey) :
    (requestLoads w keys).run s =
      (wake .flush).run { s with batch := some ⟨none, keys.map (·, w)⟩ } := by
  simp only [requestLoads, run_bind_pair, run_get_pair, hb, run_set_pair]

/-- **A load**: the loads join what is pending, and the loader stays in order; the first load of
a batch wakes the flush. -/
theorem LoaderSound.requestLoads {s : Session} (h : LoaderSound s) (w : Waiter)
    {keys : List Pubkey} (hk : keys ≠ []) :
    LoaderSound ((requestLoads w keys).run s).2 ∧
      pending ((requestLoads w keys).run s).2 = pending s ++ keys.map (·, w) := by
  cases hb : s.batch with
  | some b =>
    rw [requestLoads_run_of_some hb]
    refine ⟨⟨fun b' hb' => ?_, fun b' hb' => ?_, fun hb' => (nomatch hb'), h.once⟩,
      by simp [pending, hb]⟩
    · cases hb'
      simp [hk]
    · cases hb'
      exact h.scheduled b hb
  | none =>
    have hnew : TaskRef.flush ∉ s.queue := h.idle hb
    rw [requestLoads_run_of_none hb, wake_run, if_neg (by simpa using hnew)]
    refine ⟨⟨fun b' hb' => ?_, fun b' _ => .inl (by simp), fun hb' => (nomatch hb'), ?_⟩,
      by simp [pending, hb]⟩
    · cases hb'
      simpa using hk
    · simp [List.count_append, List.count_eq_zero.mpr hnew]

/-- What the flush's timer step can do. It leaves the queue alone, and either takes the whole
pending batch and leaves nothing pending, or takes nothing and leaves what is pending, the
batch's timer set. -/
def TakeOutcome (s : Session) : Option (List (Pubkey × Waiter)) × Session → Prop
  | (some loads, s') =>
    s'.queue = s.queue ∧ s.batch.isSome ∧ loads = pending s ∧ s'.batch = none
  | (none, s') =>
    s'.queue = s.queue ∧ s'.batch.isSome = s.batch.isSome ∧ pending s' = pending s ∧
      ∀ b, s'.batch = some b → b.timer.isSome

/-- **The flush's timer step**: taking the batch once its timer is due. -/
theorem takeBatch_outcome (s : Session) : TakeOutcome s (takeBatch.run s) := by
  cases hb : s.batch with
  | none =>
    simp only [takeBatch, run_bind_pair, run_get_pair, hb, run_pure_pair]
    exact ⟨rfl, rfl, rfl, fun b h => by simp [hb] at h⟩
  | some b =>
    cases ht : b.timer with
    | some t =>
      simp only [takeBatch, run_bind_pair, run_get_pair, hb, ht, run_pure_pair]
      by_cases hd : t.deadline ≤ s.now
      · simp only [hd, ↓reduceIte, run_bind_pair, run_set_pair, run_pure_pair]
        exact ⟨rfl, by simp [hb], by simp [pending, hb], rfl⟩
      · simp only [hd, ↓reduceIte, run_pure_pair]
        exact ⟨rfl, rfl, rfl, fun b' hb' => by simp_all⟩
    | none =>
      simp only [takeBatch, run_bind_pair, run_get_pair, hb, ht, run_pure_pair, newTimer_run,
        run_modify_pair]
      by_cases hd : s.now + s.batchDelay ≤ s.now
      · simp only [hd, ↓reduceIte, run_bind_pair, run_set_pair, run_pure_pair]
        exact ⟨rfl, by simp [hb], by simp [pending, hb], rfl⟩
      · simp only [hd, ↓reduceIte, run_pure_pair]
        refine ⟨rfl, by simp [hb], by simp [pending, hb], fun b' hb' => ?_⟩
        cases hb'
        rfl

/-- **The clock moving on** keeps the loader in order: it wakes the flush only when the batch's
timer is due. -/
theorem LoaderSound.advanceTo {s : Session} (h : LoaderSound s) (t : Nat) :
    LoaderSound ((advanceTo t).run s).2 ∧ ((advanceTo t).run s).2.batch = s.batch := by
  simp only [Session.advanceTo, run_bind_pair, run_modify_pair, run_get_pair]
  refine forM_preserves (P := fun s' => LoaderSound s' ∧ s'.batch = s.batch) _ _
    ⟨h.congr rfl rfl, rfl⟩ ?_
  rintro ⟨tm, task⟩ hmem s' ⟨hs', hb'⟩
  have hflush : task = .flush → s'.batch.isSome := by
    rintro rfl
    obtain ⟨b, hb, -⟩ := flush_mem_timers (List.mem_filter.mp (List.mem_mergeSort.mp hmem)).1
    rw [hb']
    exact Option.isSome_iff_exists.mpr ⟨b, hb⟩
  exact ⟨hs'.wake hflush, (wake_batch _ _).trans hb'⟩

theorem pending_of_some {s : Session} {b : PendingBatch} (hb : s.batch = some b) :
    pending s = b.loads := by
  simp [pending, hb]

/-! ## 5. Interleavings of loads, flushes and the clock -/

/-- A step of the batch loader: a load of an address by a waiter, a run of the flush (woken or
not), or the clock moving on to a time. -/
inductive LoaderStep where
  | load (w : Waiter) (k : Pubkey)
  | fire
  | advance (t : Nat)

namespace LoaderStep

/-- The load a step asks for. -/
def requests : LoaderStep → List (Pubkey × Waiter)
  | .load w k => [(k, w)]
  | .fire => []
  | .advance _ => []

/-- Runs a step. A run of the flush is first taken off the queue, as the scheduler takes a task
it runs, and answers the batch it took. -/
def run : LoaderStep → Sim (Option (List (Pubkey × Waiter)))
  | .load w k => do
    requestLoads w [k]
    pure none
  | .fire => do
    modify fun s => { s with queue := s.queue.erase .flush }
    let taken ← takeBatch
    if let some loads := taken then flushLoads loads
    pure taken
  | .advance t => do
    advanceTo t
    pure none

theorem fire_run_eq (s : Session) :
    fire.run.run s = match takeBatch.run { s with queue := s.queue.erase .flush } with
      | (some loads, s2) => (some loads, ((flushLoads loads).run s2).2)
      | (none, s2) => (none, s2) := by
  simp only [run, run_bind_pair, run_modify_pair]
  rcases takeBatch.run { s with queue := s.queue.erase .flush } with ⟨_ | loads, s2⟩ <;> rfl

theorem count_erase_flush {q : List TaskRef} (h : q.count .flush ≤ 1) :
    (q.erase .flush).count .flush = 0 := by
  rw [List.count_erase_self]
  omega

/-- **Firing the flush** keeps the loader in order: if nothing is due, the batch stays, its timer
set; otherwise the whole batch, never empty, is taken and flushed, and nothing is pending. -/
theorem fire_sound {s : Session} (h : LoaderSound s) :
    LoaderSound (fire.run.run s).2 ∧
      pending s = (fire.run.run s).1.toList.flatten ++ pending (fire.run.run s).2 ∧
      ∀ loads ∈ (fire.run.run s).1, loads ≠ [] := by
  have hcount : (s.queue.erase .flush).count .flush = 0 := count_erase_flush h.once
  have herase : TaskRef.flush ∉ s.queue.erase .flush := List.count_eq_zero.mp hcount
  have hout := takeBatch_outcome { s with queue := s.queue.erase .flush }
  rw [fire_run_eq]
  rcases hr : takeBatch.run { s with queue := s.queue.erase .flush } with ⟨_ | loads, s2⟩ <;>
    rw [hr] at hout
  · obtain ⟨hq2, hb2, hp2, ht2⟩ := hout
    change s2.queue = s.queue.erase .flush at hq2
    change s2.batch.isSome = s.batch.isSome at hb2
    change pending s2 = pending s at hp2
    dsimp only
    refine ⟨⟨fun b hb => ?_, fun b hb => .inr (ht2 b hb), fun _ => hq2 ▸ herase, ?_⟩,
      by simpa using hp2.symm, fun _ hl => nomatch hl⟩
    · have hsome : s.batch.isSome := by rw [← hb2, hb]; rfl
      obtain ⟨b0, hb0⟩ := Option.isSome_iff_exists.mp hsome
      rw [← pending_of_some hb, hp2, pending_of_some hb0]
      exact h.nonempty b0 hb0
    · rw [hq2, hcount]
      exact Nat.zero_le _
  · -- the whole batch is taken and flushed; flushing touches neither batch nor flush
    obtain ⟨hq2, hb2, hl, hn2⟩ := hout
    change s2.queue = s.queue.erase .flush at hq2
    change s.batch.isSome at hb2
    change loads = pending s at hl
    obtain ⟨hfb, hfq⟩ := flushLoads_view loads s2
    have hfq0 : ((flushLoads loads).run s2).2.queue.count .flush = 0 := by
      rw [hfq, hq2]
      exact hcount
    have hfb0 : ((flushLoads loads).run s2).2.batch = none := hfb.trans hn2
    obtain ⟨b0, hb0⟩ := Option.isSome_iff_exists.mp hb2
    dsimp only
    refine ⟨⟨fun b hb => by simp [hfb0] at hb, fun b hb => by simp [hfb0] at hb,
      fun _ => List.count_eq_zero.mp hfq0, by omega⟩, ?_, ?_⟩
    · have hempty : pending ((flushLoads loads).run s2).2 = [] := by simp [pending, hfb0]
      rw [hempty]
      simp [hl]
    · intro loads' hl'
      cases hl'
      rw [hl, pending_of_some hb0]
      exact h.nonempty b0 hb0

/-- **The step lemma**: a step keeps the loader in order; what was pending, and the load the
step asks for, are the batch it took followed by what is pending after it; and it takes no
empty batch. -/
theorem run_sound (st : LoaderStep) {s : Session} (h : LoaderSound s) :
    LoaderSound (st.run.run s).2 ∧
      pending s ++ st.requests = (st.run.run s).1.toList.flatten ++ pending (st.run.run s).2 ∧
      ∀ loads ∈ (st.run.run s).1, loads ≠ [] := by
  cases st with
  | load w k =>
    obtain ⟨hs, hp⟩ := h.requestLoads w (List.cons_ne_nil k [])
    simp only [run, run_bind_pair, run_pure_pair]
    refine ⟨hs, ?_, fun _ hl => nomatch hl⟩
    simpa [requests] using hp.symm
  | fire => simpa [requests] using fire_sound h
  | advance t =>
    obtain ⟨hs, hb⟩ := h.advanceTo t
    simp only [run, run_bind_pair, run_pure_pair]
    exact ⟨hs, by simp [requests, pending, hb], fun _ hl => nomatch hl⟩

end LoaderStep

/-- Runs loader steps in order; answers the batches taken, in order. -/
def runLoaderSteps : List LoaderStep → Sim (List (List (Pubkey × Waiter)))
  | [] => pure []
  | st :: rest => do
    let taken ← st.run
    let more ← runLoaderSteps rest
    pure (taken.toList ++ more)

/-- **The run lemma**: any interleaving of steps keeps the loader in order; what was pending,
and every load asked for, are the batches taken followed by what is pending at the end; and no
batch taken is empty. -/
theorem runLoaderSteps_sound : ∀ (steps : List LoaderStep) {s : Session}, LoaderSound s →
    LoaderSound ((runLoaderSteps steps).run s).2 ∧
      pending s ++ steps.flatMap LoaderStep.requests =
        ((runLoaderSteps steps).run s).1.flatten ++ pending ((runLoaderSteps steps).run s).2 ∧
      ∀ loads ∈ ((runLoaderSteps steps).run s).1, loads ≠ []
  | [], s, h => ⟨h, by
      show pending s ++ [] = ([] : List (List (Pubkey × Waiter))).flatten ++ pending s
      simp, fun _ hl => nomatch hl⟩
  | st :: rest, s, h => by
    obtain ⟨h1, hp1, hn1⟩ := st.run_sound h
    obtain ⟨h2, hp2, hn2⟩ := runLoaderSteps_sound rest h1
    simp only [runLoaderSteps, run_bind_pair, run_pure_pair]
    refine ⟨h2, ?_, ?_⟩
    · calc pending s ++ (st :: rest).flatMap LoaderStep.requests
          = (pending s ++ st.requests) ++ rest.flatMap LoaderStep.requests := by
            rw [List.flatMap_cons, List.append_assoc]
        _ = (st.run.run s).1.toList.flatten ++
              (pending (st.run.run s).2 ++ rest.flatMap LoaderStep.requests) := by
            rw [hp1, List.append_assoc]
        _ = ((st.run.run s).1.toList ++ ((runLoaderSteps rest).run (st.run.run s).2).1).flatten ++
              pending ((runLoaderSteps rest).run (st.run.run s).2).2 := by
            rw [hp2, List.flatten_append, List.append_assoc]
    · intro loads hl
      rcases List.mem_append.mp hl with hl | hl
      · exact hn1 loads (Option.mem_toList.mp hl)
      · exact hn2 loads hl

/-- **The batch loader over any interleaving of loads, flushes and clock moves.** A new session's
loader is in order, and stays so over any steps. Then something is pending exactly when the flush
is scheduled, woken in the queue or waiting on its timer, and the queue holds the flush at most
once and the timers at most one timer for it. Every load asked for is still pending or in exactly
one batch taken, in the order asked, and no batch taken is empty. A flush hands each waiter,
once, one answer per load of its own, every one read at one slot or every one the same error. -/
theorem batchLoader_contract :
    (∀ c : SessionConfig, LoaderSound (start c)) ∧
    (∀ (steps : List LoaderStep) (s : Session), LoaderSound s →
      let r := (runLoaderSteps steps).run s
      LoaderSound r.2 ∧ (pending r.2 ≠ [] ↔ FlushScheduled r.2) ∧
        r.2.queue.count .flush ≤ 1 ∧ ((timers r.2).map (·.2)).count .flush ≤ 1 ∧
        pending s ++ steps.flatMap LoaderStep.requests = r.1.flatten ++ pending r.2 ∧
        ∀ loads ∈ r.1, loads ≠ []) ∧
    (∀ {σ : Type} (ledger : Ledger σ) (loads : List (Pubkey × Waiter)) (st : σ),
      let answers := ((Loader.flush ledger (loads.map (·.1))).run st).1
      handOvers loads answers =
          (loads.map (·.2)).eraseDups.map (fun w => (w, answersFor loads answers w)) ∧
        ((∃ (slot : UInt64) (data : Pubkey → Option (List UInt8)), ∀ w,
            answersFor loads answers w =
              (loads.filter (·.2 = w)).map fun l => .ok ⟨data l.1, slot⟩) ∨
          ∃ e, ∀ w, answersFor loads answers w =
            (loads.filter (·.2 = w)).map fun _ => .error e)) := by
  refine ⟨loaderSound_start, fun steps s h => ?_, fun ledger loads st => flush_replies ledger loads st⟩
  obtain ⟨hsound, hconserve, hnonempty⟩ := runLoaderSteps_sound steps h
  exact ⟨hsound, hsound.pending_ne_nil_iff, hsound.once, count_flush_timers _, hconserve,
    hnonempty⟩

end Session

end PerpClient
