import PerpClient.Time.Duration
/-!
# The retry delay

The delay before retry `attempt` is `base` times a doubling factor, the product saturated at the
largest duration and then capped at `cap`, all of it exact in nanoseconds. The factor is
`2^attempt` up to attempt 31 and stays at `2^32 - 1` from attempt 32 on, where the power no
longer fits 32 bits.

* `nanos_exponentialBackoff`: the delay in nanoseconds, as one formula;
* `exponentialBackoff_mono`: the delay never shrinks from one attempt to the next, also across
  the saturation of the factor at attempt 32;
* `exponentialBackoff_contract`: the formula, the cap, the growth, and the exact doubling up to
  attempt 31;
* `exponentialBackoff_not_doubling`: from attempt 32 on a delay falls short of `base · 2^attempt`
  even when that is within the cap.
-/

namespace PerpClient

/-! ## 1. Durations in nanoseconds -/

namespace Duration

@[simp] theorem nanos_saturatingMul (d : Duration) (k : Nat) :
    (d.saturatingMul k).nanos = Min.min (d.nanos * k) maxNanos := rfl

@[simp] theorem nanos_min (a b : Duration) : (a.min b).nanos = Min.min a.nanos b.nanos := by
  unfold Duration.min
  split <;> omega

theorem nanos_le_maxNanos (d : Duration) : d.nanos ≤ maxNanos := d.le_max

end Duration

/-! ## 2. The doubling factor -/

theorem doublingFactor_of_lt {attempt : Nat} (h : attempt < 32) :
    doublingFactor attempt = Nat.pow 2 attempt := by
  simp [doublingFactor, h]

theorem doublingFactor_of_le {attempt : Nat} (h : 32 ≤ attempt) :
    doublingFactor attempt = 4294967295 := by
  simp [doublingFactor, Nat.not_lt.mpr h]

/-- The factor never shrinks: the last power below the saturation, `2^31`, is below `2^32 - 1`. -/
theorem doublingFactor_mono {a b : Nat} (h : a ≤ b) : doublingFactor a ≤ doublingFactor b := by
  rw [doublingFactor_eq, doublingFactor_eq]
  have hpow : Nat.pow 2 a ≤ Nat.pow 2 b := Nat.pow_le_pow_right (by decide) h
  simp only [Nat.min_def]
  split <;> split <;> omega

/-! ## 3. The delay -/

section Delay

variable (base cap : Duration)

/-- The delay in nanoseconds: the capped, saturated product of `base` and the factor. -/
theorem nanos_exponentialBackoff (attempt : Nat) :
    (exponentialBackoff base attempt cap).nanos =
      min cap.nanos (min Duration.maxNanos (base.nanos * doublingFactor attempt)) := by
  simp only [exponentialBackoff, Duration.nanos_min, Duration.nanos_saturatingMul]
  omega

theorem exponentialBackoff_le_cap (attempt : Nat) :
    (exponentialBackoff base attempt cap).nanos ≤ cap.nanos := by
  rw [nanos_exponentialBackoff]
  omega

/-- **The delay never shrinks** from one attempt to a later one. -/
theorem exponentialBackoff_mono {a b : Nat} (h : a ≤ b) :
    (exponentialBackoff base a cap).nanos ≤ (exponentialBackoff base b cap).nanos := by
  rw [nanos_exponentialBackoff, nanos_exponentialBackoff]
  have hprod : base.nanos * doublingFactor a ≤ base.nanos * doublingFactor b :=
    Nat.mul_le_mul_left _ (doublingFactor_mono h)
  omega

/-- Up to attempt 31 a doubled delay within the cap is exact: the cap, and so the largest
duration, lies above it. -/
theorem exponentialBackoff_of_le_cap {attempt : Nat} (h : attempt ≤ 31)
    (hcap : base.nanos * Nat.pow 2 attempt ≤ cap.nanos) :
    (exponentialBackoff base attempt cap).nanos = base.nanos * Nat.pow 2 attempt := by
  rw [nanos_exponentialBackoff, doublingFactor_of_lt (by omega)]
  have hmax := cap.nanos_le_maxNanos
  omega

/-- From attempt 32 on the factor has stopped at `2^32 - 1`. -/
theorem exponentialBackoff_of_saturated {attempt : Nat} (h : 32 ≤ attempt) :
    (exponentialBackoff base attempt cap).nanos = min cap.nanos (base.nanos * 4294967295) := by
  rw [nanos_exponentialBackoff, doublingFactor_of_le h]
  have hmax := cap.nanos_le_maxNanos
  omega

end Delay

/-- **The retry delay.** The delay is `min cap (min Duration.max (base · m))` in exact
nanoseconds, with `m = 2^attempt` up to attempt 31 and `m = 2^32 - 1` from attempt 32 on. So it
never exceeds the cap and never shrinks as the attempts grow; up to attempt 31 it is
`base · 2^attempt` whenever that is within the cap, and from attempt 32 on it is
`min cap (base · (2^32 - 1))`. -/
theorem exponentialBackoff_contract (base cap : Duration) (attempt : Nat) :
    (exponentialBackoff base attempt cap).nanos =
        min cap.nanos (min Duration.maxNanos
          (base.nanos * if attempt ≤ 31 then Nat.pow 2 attempt else 4294967295)) ∧
      (exponentialBackoff base attempt cap).nanos ≤ cap.nanos ∧
      (∀ later, attempt ≤ later →
        (exponentialBackoff base attempt cap).nanos ≤ (exponentialBackoff base later cap).nanos) ∧
      (attempt ≤ 31 → base.nanos * Nat.pow 2 attempt ≤ cap.nanos →
        (exponentialBackoff base attempt cap).nanos = base.nanos * Nat.pow 2 attempt) ∧
      (32 ≤ attempt →
        (exponentialBackoff base attempt cap).nanos = min cap.nanos (base.nanos * 4294967295)) := by
  have hfactor : doublingFactor attempt =
      if attempt ≤ 31 then Nat.pow 2 attempt else 4294967295 := by
    by_cases h : attempt ≤ 31
    · rw [if_pos h, doublingFactor_of_lt (by omega)]
    · rw [if_neg h, doublingFactor_of_le (by omega)]
  refine ⟨?_, exponentialBackoff_le_cap base cap attempt,
    fun _ h => exponentialBackoff_mono base cap h, exponentialBackoff_of_le_cap base cap,
    exponentialBackoff_of_saturated base cap⟩
  rw [nanos_exponentialBackoff, hfactor]

/-- From attempt 32 on the delay is not `base · 2^attempt` even when that is within the cap: one
nanosecond doubled 32 times is `2^32` nanoseconds, exactly the cap, but the delay is one
nanosecond less. -/
theorem exponentialBackoff_not_doubling :
    ¬ ∀ (base cap : Duration) (attempt : Nat), base.nanos * Nat.pow 2 attempt ≤ cap.nanos →
      (exponentialBackoff base attempt cap).nanos = base.nanos * Nat.pow 2 attempt := by
  intro h
  have hrun := h (Duration.ofNanos 1) (Duration.ofNanos 4294967296) 32 (by decide)
  have hsat := exponentialBackoff_of_saturated (Duration.ofNanos 1) (Duration.ofNanos 4294967296)
    (Nat.le_refl 32)
  rw [hrun] at hsat
  exact absurd hsat (by decide)

end PerpClient
