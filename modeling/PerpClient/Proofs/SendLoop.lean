import PerpClient.Proofs.SessionFrame
/-!
# Sending a transaction and confirming it

A sent transaction is confirmed in rounds (`Session.sendLoop`): the bytes go out once with the
send options; a round that confirms or fails ends the loop; a round without a decision is
followed by a resend of the same bytes, with the preflight checks skipped, while the policy
leaves resends, and is otherwise counted as a timeout. The loop is written over any
surroundings, and the session runs it against its ledger, its confirmation rounds and its
timeout counter (`Session.sendSigned_run`).

Here the surroundings are a script (`SendTrace` with `scriptSend`, `scriptRound`,
`scriptCount`): the `i`-th send answers `answer i` and the `i`-th round has outcome `outcome i`,
for any two such sequences, every attempt of them scripted whether it is reached or not. Every
send is noted with its options.

* `confirmLoop_script`: the rounds, up to the first that decides or the last one the policy
  allows, each undecided one followed by one resend;
* `sendLoop_script`: a failed first send does nothing else; otherwise the same bytes go out
  `1 + r` times, `r` at most the resends allowed, and the loop answers the first decision or a
  timeout with the counter bumped once;
* `timeouts_sendAll`: over any sequence of sends the counter grows by the number of timeouts
  answered, as long as no scripted failure is a timeout itself;
* `send_rounds_and_timeouts`: both, for sends made as the session makes them (`scriptSendSigned`).
-/

namespace PerpClient

namespace Session

/-! ## 1. The session runs the loop -/

/-- The session sends a signed transaction by the loop, with the given send options or else the
sender's own, and the resends its timeout policy allows. -/
theorem sendSigned_run (tx : Transaction) (config : Option SendConfig) (s : Session) :
    (sendSigned tx config).run s =
      (sendLoop sendWire (confirm tx.firstSignature)
        (record (.onSent tx.firstSignature tx.encode.length)) countTimeout tx.encode
        tx.firstSignature (config.getD s.sender.sendConfig) s.sender.timeoutPolicy.resends).run s :=
  rfl

/-! ## 2. Scripted surroundings -/

/-- What the loop's surroundings note: each send with its options, the rounds run, and the
timeout counter. -/
structure SendTrace where
  sent : List (List UInt8 × SendConfig)
  rounds : Nat
  timeouts : Nat

section Script

variable (answer : Nat → Outcome Signature) (outcome : Nat → RoundOutcome)

/-- A send noted with its options, answered by the script. -/
def scriptSend (wire : List UInt8) (config : SendConfig) : StateM SendTrace (Outcome Signature) :=
  do
  let t ← get
  set { t with sent := t.sent ++ [(wire, config)] }
  pure (answer t.sent.length)

/-- A round with the scripted outcome. -/
def scriptRound : StateM SendTrace RoundOutcome := do
  let t ← get
  set { t with rounds := t.rounds + 1 }
  pure (outcome t.rounds)

/-- The timeout counter, bumped. -/
def scriptCount : StateM SendTrace Nat := do
  let t ← get
  set { t with timeouts := t.timeouts + 1 }
  pure (t.timeouts + 1)

/-- How the loop ends on the outcome `o` of its last round, with `left` resends left and the
counter at `c` before: a confirmation or a failure is answered as it is and the counter stays; a
round without a decision is the last only when no resend is left, and is answered as a timeout
with the counter bumped once. -/
def LastRound (sig : Signature) (o : RoundOutcome) (left c : Nat)
    (res : Outcome (Signature × UInt64)) (c' : Nat) : Prop :=
  match o with
  | .ok (some slot) => res = .ok (sig, slot) ∧ c' = c
  | .error f => res = .error f ∧ c' = c
  | .ok none =>
    left = 0 ∧ res = .error (.client (.confirmationTimeout sig (c + 1).toUInt64)) ∧ c' = c + 1

theorem scriptSend_run (wire : List UInt8) (config : SendConfig) (t : SendTrace) :
    (scriptSend answer wire config).run t =
      (answer t.sent.length, { t with sent := t.sent ++ [(wire, config)] }) := rfl

theorem scriptRound_run (t : SendTrace) :
    (scriptRound outcome).run t = (outcome t.rounds, { t with rounds := t.rounds + 1 }) := rfl

/-! ## 3. The rounds -/

/-- What a run of the rounds from the trace `t` did, with `left` resends allowed, when its last
round was the `k`-th after `t`: the rounds before it left the decision open, each was followed by
a resend of the same bytes with the options `rc`, and the last round ends the loop. -/
structure RoundsRun (sig : Signature) (wire : List UInt8) (rc : SendConfig) (t : SendTrace)
    (left k : Nat) (p : Outcome (Signature × UInt64) × SendTrace) : Prop where
  bounded : k ≤ left
  open_before : ∀ i < k, outcome (t.rounds + i) = .ok none
  rounds : p.2.rounds = t.rounds + k + 1
  sent : p.2.sent = t.sent ++ List.replicate k (wire, rc)
  last : LastRound sig (outcome (t.rounds + k)) (left - k) t.timeouts p.1 p.2.timeouts

/-- A first round that decides ends the loop at once, whatever the resends left. -/
theorem roundsRun_decided (wire : List UInt8) (rc : SendConfig) (sig : Signature)
    (resends : Nat) {t : SendTrace} (hdec : outcome t.rounds ≠ .ok none) :
    RoundsRun outcome sig wire rc t resends 0
      ((confirmLoop (scriptRound outcome) (do let _ ← scriptSend answer wire rc) scriptCount sig
        resends).run t) := by
  rw [confirmLoop.eq_def, run_bind_pair, scriptRound_run]
  cases ho : outcome t.rounds with
  | error f =>
    exact ⟨Nat.zero_le _, fun i hi => absurd hi (Nat.not_lt_zero i), rfl, (List.append_nil _).symm,
      by rw [Nat.add_zero, ho]; exact ⟨rfl, rfl⟩⟩
  | ok o =>
    cases o with
    | some slot =>
      exact ⟨Nat.zero_le _, fun i hi => absurd hi (Nat.not_lt_zero i), rfl, (List.append_nil _).symm,
        by rw [Nat.add_zero, ho]; exact ⟨rfl, rfl⟩⟩
    | none => exact absurd ho hdec

/-- **The step of the rounds**: a round left open and its resend, before the rounds from the
trace they leave, make one more open round and one more resend before the last. -/
theorem RoundsRun.after_open {sig : Signature} {wire : List UInt8} {rc : SendConfig}
    {t : SendTrace} {left k : Nat} {p : Outcome (Signature × UInt64) × SendTrace}
    (hopen : outcome t.rounds = .ok none)
    (hk : RoundsRun outcome sig wire rc
      { t with rounds := t.rounds + 1, sent := t.sent ++ [(wire, rc)] } left k p) :
    RoundsRun outcome sig wire rc t (left + 1) (k + 1) p := by
  refine ⟨Nat.succ_le_succ hk.bounded, ?_, ?_, ?_, ?_⟩
  · intro i hi
    cases i with
    | zero => exact hopen
    | succ i =>
      rw [← hk.open_before i (by omega)]
      dsimp only
      congr 1
      omega
  · rw [hk.rounds]
    dsimp only
    omega
  · rw [hk.sent]
    simp [List.replicate_succ]
  · have hlast := hk.last
    rw [show t.rounds + (k + 1) = t.rounds + 1 + k by omega, Nat.add_sub_add_right]
    exact hlast

/-- **The run lemma of the rounds**: from any trace, the loop's rounds run up to the first that
decides or the last the resends allow. -/
theorem confirmLoop_script (wire : List UInt8) (rc : SendConfig) (sig : Signature) :
    ∀ (resends : Nat) (t : SendTrace), ∃ k, RoundsRun outcome sig wire rc t resends k
      ((confirmLoop (scriptRound outcome) (do let _ ← scriptSend answer wire rc) scriptCount sig
        resends).run t) := by
  intro resends
  induction resends with
  | zero =>
    intro t
    by_cases hopen : outcome t.rounds = .ok none
    · refine ⟨0, ?_⟩
      rw [confirmLoop.eq_def, run_bind_pair, scriptRound_run, hopen]
      exact ⟨Nat.le_refl 0, fun i hi => absurd hi (Nat.not_lt_zero i), rfl, (List.append_nil _).symm,
        by rw [Nat.add_zero, hopen]; exact ⟨rfl, rfl, rfl⟩⟩
    · exact ⟨0, roundsRun_decided answer outcome wire rc sig 0 hopen⟩
  | succ n ih =>
    intro t
    by_cases hopen : outcome t.rounds = .ok none
    · rw [confirmLoop.eq_def, run_bind_pair, scriptRound_run, hopen]
      dsimp only
      rw [run_bind_pair, run_bind_pair, scriptSend_run, run_pure_pair]
      obtain ⟨k, hk⟩ := ih { t with rounds := t.rounds + 1, sent := t.sent ++ [(wire, rc)] }
      exact ⟨k + 1, RoundsRun.after_open outcome hopen hk⟩
    · exact ⟨0, roundsRun_decided answer outcome wire rc sig (n + 1) hopen⟩

/-! ## 4. A send -/

/-- What a send from the trace `t` did, given the first send's answer `first`: a failed first
send is answered as it is, with nothing else done than that send; otherwise the rounds ran, with
every resend using the options `config` with the preflight checks skipped. -/
def SendRun (sig : Signature) (wire : List UInt8) (config : SendConfig) (t : SendTrace)
    (resends : Nat) (first : Outcome Signature) (p : Outcome (Signature × UInt64) × SendTrace) :
    Prop :=
  match first with
  | .error f => p = (.error f, { t with sent := t.sent ++ [(wire, config)] })
  | .ok _ => ∃ k, RoundsRun outcome sig wire { config with skipPreflight := true }
      { t with sent := t.sent ++ [(wire, config)] } resends k p

/-- **The run lemma of a send**, from any trace. -/
theorem sendLoop_script (wire : List UInt8) (sig : Signature) (config : SendConfig)
    (resends : Nat) (t : SendTrace) :
    SendRun outcome sig wire config t resends (answer t.sent.length)
      ((sendLoop (scriptSend answer) (scriptRound outcome) (pure ()) scriptCount wire sig config
        resends).run t) := by
  rw [sendLoop, run_bind_pair, scriptSend_run]
  cases h : answer t.sent.length with
  | error f => rfl
  | ok _ =>
    rw [run_bind_pair, run_pure_pair]
    exact confirmLoop_script answer outcome wire _ sig resends _

-- two open rounds, then a confirmation: the bytes go out three times
example :
    ((sendLoop (scriptSend fun _ => .ok Signature.zero)
        (scriptRound fun i => if i < 2 then .ok none else .ok (some 7)) (pure ()) scriptCount [1, 2]
        Signature.zero SendConfig.default 3).run ⟨[], 0, 0⟩).2.sent.length = 3 := by decide +kernel

/-- Whether a failure is a confirmation timeout. -/
def isConfirmationTimeout : Failure → Bool
  | .client (.confirmationTimeout _ _) => true
  | _ => false

/-- Whether an outcome is a confirmation timeout. -/
def timedOut {α : Type} : Outcome α → Bool
  | .error f => isConfirmationTimeout f
  | .ok _ => false

/-- The last round bumps the counter exactly when the loop answers a timeout, unless the round
itself failed with one. -/
theorem LastRound.timeouts {sig : Signature} {o : RoundOutcome} {left c c' : Nat}
    {res : Outcome (Signature × UInt64)} (ho : timedOut o = false)
    (h : LastRound sig o left c res c') : c' = c + if timedOut res then 1 else 0 := by
  cases o with
  | error f =>
    obtain ⟨rfl, rfl⟩ := h
    simp only [timedOut] at ho ⊢
    simp [ho]
  | ok o =>
    cases o with
    | some slot =>
      obtain ⟨rfl, rfl⟩ := h
      simp [timedOut]
    | none =>
      obtain ⟨-, rfl, rfl⟩ := h
      simp [timedOut, isConfirmationTimeout]

/-- A send bumps the timeout counter exactly when it answers a timeout, as long as no scripted
answer or round fails with one. -/
theorem timeouts_sendLoop (hanswer : ∀ i, timedOut (answer i) = false)
    (houtcome : ∀ i, timedOut (outcome i) = false) (wire : List UInt8) (sig : Signature)
    (config : SendConfig) (resends : Nat) (t : SendTrace) :
    ((sendLoop (scriptSend answer) (scriptRound outcome) (pure ()) scriptCount wire sig config
        resends).run t).2.timeouts =
      t.timeouts + if timedOut ((sendLoop (scriptSend answer) (scriptRound outcome) (pure ())
        scriptCount wire sig config resends).run t).1 then 1 else 0 := by
  have hrun := sendLoop_script answer outcome wire sig config resends t
  generalize (sendLoop (scriptSend answer) (scriptRound outcome) (pure ()) scriptCount wire sig
    config resends).run t = p at hrun ⊢
  unfold SendRun at hrun
  cases hfirst : answer t.sent.length with
  | error f =>
    rw [hfirst] at hrun
    subst hrun
    have hf := hanswer t.sent.length
    rw [hfirst] at hf
    simp only [timedOut] at hf ⊢
    simp [hf]
  | ok _ =>
    rw [hfirst] at hrun
    obtain ⟨k, hk⟩ := hrun
    exact hk.last.timeouts (houtcome _)

/-! ## 5. Sending signed bytes against the script -/

/-- Sending signed bytes as the session does, against the script: with the given send options
or else the configured ones, and the resends the timeout policy allows. -/
def scriptSendSigned (configured : SendConfig) (policy : TimeoutPolicy) (wire : List UInt8)
    (sig : Signature) (config : Option SendConfig) : StateM SendTrace (Outcome (Signature × UInt64)) :=
  sendLoop (scriptSend answer) (scriptRound outcome) (pure ()) scriptCount wire sig
    (config.getD configured) policy.resends

/-- Over any sequence of sends the counter grows by the number of timeouts answered, as long as
no scripted answer or round fails with one. -/
theorem timeouts_sendAll (hanswer : ∀ i, timedOut (answer i) = false)
    (houtcome : ∀ i, timedOut (outcome i) = false) (configured : SendConfig)
    (policy : TimeoutPolicy) :
    ∀ (sends : List (List UInt8 × Signature × Option SendConfig)) (t : SendTrace),
      ((sends.mapM fun x => scriptSendSigned answer outcome configured policy x.1 x.2.1 x.2.2).run
        t).2.timeouts =
      t.timeouts + ((sends.mapM fun x => scriptSendSigned answer outcome configured policy x.1
        x.2.1 x.2.2).run t).1.countP timedOut := by
  intro sends
  induction sends with
  | nil => intro t; rfl
  | cons x rest ih =>
    intro t
    rw [List.mapM_cons, run_bind_pair, run_bind_pair, run_pure_pair]
    dsimp only
    rw [ih, scriptSendSigned, timeouts_sendLoop answer outcome hanswer houtcome, List.countP_cons]
    omega

/-- **Sending signed bytes, against every script of answers and round outcomes**: a failed
first send is answered as it is with nothing else done; otherwise the same bytes go out once with
the effective options and once more after each open round, up to the resends the policy allows,
every resend with the preflight checks skipped; the loop answers the first round that decides, or
a timeout numbered by the counter bumped once when the open rounds run out. So the counter moves
only on a timeout, and over any sequence of sends it grows by the number of timeouts answered. -/
theorem send_rounds_and_timeouts (configured : SendConfig) (policy : TimeoutPolicy) :
    (∀ wire sig config t, SendRun outcome sig wire (config.getD configured) t policy.resends
      (answer t.sent.length) ((scriptSendSigned answer outcome configured policy wire sig config).run t)) ∧
    ((∀ i, timedOut (answer i) = false) → (∀ i, timedOut (outcome i) = false) →
      ∀ (sends : List (List UInt8 × Signature × Option SendConfig)) (t : SendTrace),
        ((sends.mapM fun x => scriptSendSigned answer outcome configured policy x.1 x.2.1 x.2.2).run
          t).2.timeouts =
        t.timeouts + ((sends.mapM fun x => scriptSendSigned answer outcome configured policy x.1
          x.2.1 x.2.2).run t).1.countP timedOut) :=
  ⟨fun wire sig config t =>
      sendLoop_script answer outcome wire sig (config.getD configured) policy.resends t,
    fun hanswer houtcome => timeouts_sendAll answer outcome hanswer houtcome configured policy⟩

end Script

/-- A script that accepts every send and leaves every round open fails with no timeout of its own,
so the counter counts the timeouts answered. -/
theorem send_rounds_and_timeouts_never_confirmed :
    (∀ i, timedOut ((fun _ => .ok Signature.zero : Nat → Outcome Signature) i) = false) ∧
    (∀ i, timedOut ((fun _ => .ok none : Nat → RoundOutcome) i) = false) ∧
    ((∀ wire sig config t, SendRun (fun _ => .ok none) sig wire (config.getD SendConfig.default) t
      (TimeoutPolicy.rebroadcast 3).resends (.ok Signature.zero)
      ((scriptSendSigned (fun _ => .ok Signature.zero) (fun _ => .ok none) SendConfig.default
        (.rebroadcast 3) wire sig config).run t)) ∧
    ((∀ i, timedOut ((fun _ => .ok Signature.zero : Nat → Outcome Signature) i) = false) →
      (∀ i, timedOut ((fun _ => .ok none : Nat → RoundOutcome) i) = false) →
      ∀ (sends : List (List UInt8 × Signature × Option SendConfig)) (t : SendTrace),
        ((sends.mapM fun x => scriptSendSigned (fun _ => .ok Signature.zero) (fun _ => .ok none)
          SendConfig.default (.rebroadcast 3) x.1 x.2.1 x.2.2).run t).2.timeouts =
        t.timeouts + ((sends.mapM fun x => scriptSendSigned (fun _ => .ok Signature.zero)
          (fun _ => .ok none) SendConfig.default (.rebroadcast 3) x.1 x.2.1 x.2.2).run t).1.countP
          timedOut)) :=
  ⟨fun _ => rfl, fun _ => rfl,
    send_rounds_and_timeouts (fun _ => .ok Signature.zero) (fun _ => .ok none) SendConfig.default
      (.rebroadcast 3)⟩

end Session

end PerpClient
