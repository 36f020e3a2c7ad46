import PerpClient.Proofs.SessionFrame
/-!
# A confirmation round by both means

A round by both means runs the polling side and the notification side at once. The notification
side falls due at one instant: at once for a failing subscription, after the notifier's delay for
an answer, at the deadline for a notifier that stays silent. The polling side yields at each of its
sleeps, and at an instant where both sides are ready the scheduler's choice says which goes first.
The side that completes first decides the round, unless its result leaves the decision open (no
decision within the round, or a transport failure); then the other side's result stands. That
rule is `Session.race`, read in the order the two sides complete (`Session.raceBy`).

* `Session.race_laws`: whichever side completes first, a decided side decides the round, a side
  decided alone gives its own result, and the round is left open only when both sides are, with
  the result of the side that completed last;
* `Session.pollRacing_race`: the step and run lemma; from any query on, polling against the
  notification side answers the race of what polling alone and the notification side answer;
* `Session.confirmByBoth_eq_race`: the round by both means is the race of the polling round and
  the notification round, each as it would run alone, in the order they complete;
* `Session.pollingCompletesFirst_of_due_at_start`: a notification side due as the round begins
  completes first unless the scheduler takes the polling side first and its first query ends it;
* `Session.confirm_both_race`: so a round by both means obeys the race's laws, and without a
  signature notifier it is one polling round.
-/

namespace PerpClient

namespace Session

/-! ## 1. The race of two sides -/

/-- The race of a round's two sides, by the side that completes first: its result stands unless
it leaves the decision open, and then the other side's result stands. -/
def race (first second : RoundOutcome) : RoundOutcome :=
  if undecided first then second else first

theorem race_of_decided {first : RoundOutcome} (h : undecided first = false)
    (second : RoundOutcome) : race first second = first := by
  simp [race, h]

theorem race_of_undecided {first : RoundOutcome} (h : undecided first = true)
    (second : RoundOutcome) : race first second = second := by
  simp [race, h]

/-- The race read in the order the two sides complete. -/
def raceBy (pollingFirst : Bool) (polled notified : RoundOutcome) : RoundOutcome :=
  if pollingFirst then race polled notified else race notified polled

/-- What a round by both means answers, given what the polling side and the notification side
answer and whether the polling side completes first. -/
structure RaceLaws (polled notified r : RoundOutcome) (pollingFirst : Bool) : Prop where
  /-- A decided side decides the round. -/
  decided : undecided polled = false ∨ undecided notified = false → undecided r = false
  /-- The polling side decided alone: its result. -/
  polled_alone : undecided polled = false → undecided notified = true → r = polled
  /-- The notification side decided alone: its result. -/
  notified_alone : undecided notified = false → undecided polled = true → r = notified
  /-- Left open only when both sides are, with the result of the side that completed last. -/
  open_last : undecided r = true →
    undecided polled = true ∧ undecided notified = true ∧
      r = if pollingFirst then notified else polled

/-- **The laws of a race, in either order**: whichever side completes first. -/
theorem race_laws (polled notified : RoundOutcome) (pollingFirst : Bool) :
    RaceLaws polled notified (raceBy pollingFirst polled notified) pollingFirst := by
  unfold raceBy
  cases pollingFirst <;> cases hp : undecided polled <;> cases hn : undecided notified <;>
    constructor <;>
    simp [race_of_decided, race_of_undecided, hp, hn]

/-! ## 2. The two sides of a round -/

/-- The notification round answers what the notification side completes with. -/
theorem confirmByNotification_fst {sig : Signature} {s : Session} {n : SignatureNotifier}
    (hn : s.signatureNotifier = some n) :
    ((confirmByNotification sig).run s).1 =
      (notification sig s.now (s.now + s.sender.timeout) n).2 := by
  simp only [confirmByNotification, run_bind_pair, run_get_pair, hn]
  rfl

/-- The notification side completing first answers the race with it first. -/
theorem notifiedFirst_fst (notified : RoundOutcome) (rest : Sim RoundOutcome) (s : Session) :
    ((notifiedFirst notified rest).run s).1 = (race notified (rest.run s).1, false) := by
  by_cases h : undecided notified = true
  · simp only [notifiedFirst, race, h, ↓reduceIte]
    rfl
  · simp only [notifiedFirst, race, h, Bool.false_eq_true, ↓reduceIte]
    rfl

/-- The polling side completing now with `r`: after the notification side, an open notification
leaves `r`; before it, an open `r` leaves the notification's outcome. -/
theorem polledNow_fst (due : Nat) (notified r : RoundOutcome) (s : Session) :
    ((polledNow due notified r).run s).1 =
      if notifiedBefore due s.now (s.pollingFirstAt s.now) then (race notified r, false)
      else (race r notified, true) := by
  simp only [polledNow, run_bind_pair, run_get_pair]
  by_cases hnb : notifiedBefore due s.now (s.pollingFirstAt s.now) = true
  · simp only [hnb, ↓reduceIte]
    rfl
  · simp only [hnb, Bool.false_eq_true, ↓reduceIte]
    by_cases h : undecided r = true
    · simp only [h, ↓reduceIte, race]
      rfl
    · simp only [h, Bool.false_eq_true, ↓reduceIte, race]
      rfl

theorem polledNow_race (due : Nat) (notified r : RoundOutcome) (s : Session) :
    ((polledNow due notified r).run s).1.1 =
      raceBy ((polledNow due notified r).run s).1.2 r notified := by
  rw [polledNow_fst]
  split <;> rfl

theorem polledNow_snd (due : Nat) (notified r : RoundOutcome) (s : Session) :
    ((polledNow due notified r).run s).1.2 = !notifiedBefore due s.now (s.pollingFirstAt s.now) := by
  rw [polledNow_fst]
  cases notifiedBefore due s.now (s.pollingFirstAt s.now) <;> rfl

/-- **The step and run lemma of a round by both means**: from any query on, polling against the
notification side answers the race of what polling alone answers from there and what the
notification side answers, in the order the two sides complete. The induction follows the
queries left; at each one the notification side comes first, or the query decides, or the
polling side sleeps and the same holds after the sleep. -/
theorem pollRacing_race (sig : Signature) (deadline due : Nat) (notified : RoundOutcome) :
    ∀ attempt remaining (s : Session),
      ((pollRacing sig deadline due notified attempt remaining).run s).1.1 =
        raceBy ((pollRacing sig deadline due notified attempt remaining).run s).1.2
          ((pollFrom sig deadline attempt remaining).run s).1 notified
  | _, 0, s => by
    rw [pollRacing, pollFrom]
    exact polledNow_race due notified _ s
  | attempt, remaining + 1, s => by
    rw [pollRacing, pollFrom, run_bind_pair, run_get_pair]
    by_cases hnb : notifiedBefore due s.now (s.pollingFirstAt s.now) = true
    · simp only [hnb, ↓reduceIte, notifiedFirst_fst]
      rfl
    simp only [hnb, Bool.false_eq_true, ↓reduceIte, run_bind_pair]
    -- both sides of the equation make the same query
    generalize (pollFrom.attempt' sig).run s = q
    obtain ⟨res, s1⟩ := q
    dsimp only
    cases res with
    | error f => exact polledNow_race due notified _ s1
    | ok status =>
      dsimp only
      cases hso : statusOutcome sig status with
      | some r => exact polledNow_race due notified r s1
      | none =>
        rw [run_bind_pair, run_get_pair, run_bind_pair, run_get_pair, run_bind_pair, run_get_pair]
        dsimp only
        by_cases hdue : due ≤ s1.now
        · rw [if_pos hdue, notifiedFirst_fst]
          rfl
        rw [if_neg hdue]
        by_cases hcut : undecided notified = false ∧
            due < min (s1.now + missDelay s1.sender attempt) deadline
        · rw [if_pos hcut, run_bind_pair, run_pure_pair]
          exact (race_of_decided hcut.1 _).symm
        rw [if_neg hcut, sleepThen]
        by_cases hlate : s1.now + missDelay s1.sender attempt > deadline
        · rw [if_pos hlate, if_pos hlate, run_bind_pair, run_bind_pair]
          exact polledNow_race due notified _ _
        · rw [if_neg hlate, if_neg hlate, run_bind_pair, run_bind_pair]
          exact pollRacing_race sig deadline due notified (attempt + 1) remaining _

/-- Whether the polling side of a round by both means completes first. -/
def pollingCompletesFirst (sig : Signature) (s : Session) (n : SignatureNotifier) : Bool :=
  let deadline := s.now + s.sender.timeout
  let side := notification sig s.now deadline n
  ((pollRacing sig deadline side.1 side.2 0 s.sender.maxPollRetries).run s).1.2

/-- The status query leaves the clock and the scheduler's choices. -/
theorem clock_getSignatureStatus (sig : Signature) (s : Session) :
    (((pollFrom.attempt' sig).run s).2.now, ((pollFrom.attempt' sig).run s).2.pollingFirstAt) =
      (s.now, s.pollingFirstAt) :=
  keeps_attempt
    ((@keeps_ledgerOf _ (fun s => (s.now, s.pollingFirstAt)) fun _ _ => rfl).getSignatureStatus sig) s

/-- The polling side ends at its first query: it has none to make, or the first answer decides
the round or fails. -/
def pollEndsAtOnce (sig : Signature) (s : Session) : Bool :=
  match s.sender.maxPollRetries with
  | 0 => true
  | _ + 1 =>
    match ((pollFrom.attempt' sig).run s).1 with
    | .error _ => true
    | .ok status => (statusOutcome sig status).isSome

/-- A notification side due as the round begins, as an answer at once or a failing subscription
is, completes first unless the scheduler takes the polling side first and the polling side ends at
its first query. -/
theorem pollingCompletesFirst_of_due_at_start {sig : Signature} {s : Session}
    {n : SignatureNotifier} (hdue : (notification sig s.now (s.now + s.sender.timeout) n).1 = s.now) :
    pollingCompletesFirst sig s n = (s.pollingFirstAt s.now && pollEndsAtOnce sig s) := by
  unfold pollingCompletesFirst pollEndsAtOnce
  dsimp only
  rw [hdue]
  generalize (notification sig s.now (s.now + s.sender.timeout) n).2 = notified
  cases s.sender.maxPollRetries with
  | zero =>
    rw [pollRacing, polledNow_snd]
    simp [notifiedBefore]
  | succ k =>
    rw [pollRacing, run_bind_pair, run_get_pair]
    dsimp only
    -- at the round's start the notification side is due: it goes first by the scheduler's choice
    cases hpf : s.pollingFirstAt s.now with
    | false =>
      have hnb : notifiedBefore s.now s.now false = true := by simp [notifiedBefore]
      rw [if_pos hnb, notifiedFirst_fst, Bool.false_and]
    | true =>
      have hnb : ¬notifiedBefore s.now s.now true = true := by simp [notifiedBefore]
      rw [if_neg hnb, Bool.true_and, run_bind_pair]
      have hclock := clock_getSignatureStatus sig s
      generalize (pollFrom.attempt' sig).run s = q at hclock ⊢
      obtain ⟨res, s1⟩ := q
      obtain ⟨hnow, hchoice⟩ := Prod.mk.inj hclock
      dsimp only at hnow hchoice ⊢
      have hbefore : notifiedBefore s.now s1.now (s1.pollingFirstAt s1.now) = false := by
        rw [hnow, hchoice, hpf]
        simp [notifiedBefore]
      cases res with
      | error f =>
        rw [polledNow_snd, hbefore]
        rfl
      | ok status =>
        dsimp only
        cases hso : statusOutcome sig status with
        | some r =>
          rw [polledNow_snd, hbefore]
          rfl
        | none =>
          rw [run_bind_pair, run_get_pair]
          dsimp only
          rw [if_pos (Nat.le_of_eq hnow.symm), notifiedFirst_fst]
          rfl

/-- **A round by both means is the race of its two sides**, each as it would run alone, in the
order they complete. -/
theorem confirmByBoth_eq_race (sig : Signature) {s : Session} {n : SignatureNotifier}
    (hn : s.signatureNotifier = some n) :
    ((confirmByBoth sig).run s).1 =
      raceBy (pollingCompletesFirst sig s n) ((confirmByPolling sig).run s).1
        ((confirmByNotification sig).run s).1 := by
  rw [confirmByNotification_fst hn]
  unfold confirmByBoth confirmByPolling pollingCompletesFirst
  rw [run_bind_pair, run_get_pair, run_bind_pair, run_get_pair]
  simp only [hn]
  rw [run_bind_pair]
  exact pollRacing_race sig _ _ _ 0 _ s

/-! ## 3. The round by both means -/

/-- **A confirmation round by both means** obeys the laws of a race between the polling round
and the notification round, each as it would run alone, in the order they complete; without a
signature notifier it is exactly one polling round. -/
theorem confirm_both_race (sig : Signature) (s : Session) (hboth : s.sender.strategy = .both) :
    (s.signatureNotifier = none → (confirm sig).run s = (confirmByPolling sig).run s) ∧
      ∀ n, s.signatureNotifier = some n →
        RaceLaws ((confirmByPolling sig).run s).1 ((confirmByNotification sig).run s).1
          ((confirm sig).run s).1 (pollingCompletesFirst sig s n) := by
  have hconfirm : (confirm sig).run s = (confirmByBoth sig).run s := by
    unfold confirm
    rw [run_bind_pair, run_get_pair]
    simp only [hboth]
  refine ⟨fun hnone => ?_, fun n hn => ?_⟩
  · rw [hconfirm]
    unfold confirmByBoth
    rw [run_bind_pair, run_get_pair]
    simp only [hnone]
  · rw [hconfirm, confirmByBoth_eq_race sig hn]
    exact race_laws _ _ _

/-- A fresh session that confirms by both means, with a signature notifier that never answers. -/
def silentBothSession : Session :=
  start ⟨false, "", .polling 1000, false, .v0, default, none, [], [], [], [], 10,
    ⟨.both, 30000, 400, 10, .rebroadcast 3, SendConfig.default⟩, some .silent, false⟩

theorem confirm_both_race_silent :
    silentBothSession.sender.strategy = .both ∧
      ((silentBothSession.signatureNotifier = none →
          (confirm Signature.zero).run silentBothSession =
            (confirmByPolling Signature.zero).run silentBothSession) ∧
        ∀ n, silentBothSession.signatureNotifier = some n →
          RaceLaws ((confirmByPolling Signature.zero).run silentBothSession).1
            ((confirmByNotification Signature.zero).run silentBothSession).1
            ((confirm Signature.zero).run silentBothSession).1
            (pollingCompletesFirst Signature.zero silentBothSession n)) :=
  ⟨rfl, by exact confirm_both_race Signature.zero silentBothSession rfl⟩

end Session

end PerpClient
