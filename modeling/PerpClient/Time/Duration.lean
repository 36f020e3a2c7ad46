/-!
# Durations and back-off

A duration is a whole number of nanoseconds up to the largest one that has a 64-bit count of
seconds (`Duration.max`). It is written as seconds and the nanoseconds below a second. Products
saturate at `Duration.max`.

The delay before retry `attempt` doubles from `base` and stops at `cap`:
`min cap (base · 2^attempt)`, where the factor `2^attempt` itself saturates at `2^32 - 1` (from
attempt 32 on).
-/

namespace PerpClient

/-- The number of nanoseconds in a second. -/
def nanosPerSecond : Nat := 1000000000

/-- A span of time, in nanoseconds. -/
structure Duration where
  nanos : Nat
  le_max : nanos ≤ 18446744073709551615 * nanosPerSecond + (nanosPerSecond - 1)
  deriving DecidableEq

namespace Duration

/-- The largest number of nanoseconds a duration holds. -/
def maxNanos : Nat := 18446744073709551615 * nanosPerSecond + (nanosPerSecond - 1)

/-- A number of nanoseconds, saturated at the largest duration. -/
def ofNanos (n : Nat) : Duration := ⟨min n maxNanos, Nat.min_le_right _ _⟩

/-- The largest duration. -/
def max : Duration := ofNanos maxNanos

/-- No time at all. -/
def zero : Duration := ofNanos 0

/-- A number of milliseconds. -/
def ofMillis (ms : Nat) : Duration := ofNanos (ms * 1000000)

/-- A number of seconds. -/
def ofSecs (s : Nat) : Duration := ofNanos (s * nanosPerSecond)

/-- Whole seconds. -/
def secs (d : Duration) : Nat := d.nanos / nanosPerSecond

/-- Nanoseconds below the second. -/
def subsecNanos (d : Duration) : Nat := d.nanos % nanosPerSecond

/-- Whole milliseconds, rounded up. -/
def millisCeil (d : Duration) : Nat := (d.nanos + 999999) / 1000000

/-- The product with a factor, saturated at the largest duration. -/
def saturatingMul (d : Duration) (k : Nat) : Duration := ofNanos (d.nanos * k)

/-- The shorter of two durations. -/
def min (a b : Duration) : Duration := if a.nanos ≤ b.nanos then a else b

instance : Inhabited Duration := ⟨zero⟩

end Duration

/-- `2^attempt`, saturated at the largest 32-bit number (the power is only formed below 32). -/
def doublingFactor (attempt : Nat) : Nat := if attempt < 32 then Nat.pow 2 attempt else 4294967295

/-- The doubling factor is the saturated power. -/
theorem doublingFactor_eq (attempt : Nat) :
    doublingFactor attempt = Nat.min (Nat.pow 2 attempt) 4294967295 := by
  unfold doublingFactor
  split
  · rename_i h
    have h2 : 2 ^ attempt ≤ 2 ^ 31 := Nat.pow_le_pow_right (by decide) (by omega)
    have : Nat.pow 2 attempt ≤ 2147483648 := h2
    simp only [Nat.min_def]
    split <;> omega
  · rename_i h
    have h2 : 2 ^ 32 ≤ 2 ^ attempt := Nat.pow_le_pow_right (by decide) (by omega)
    have : 4294967296 ≤ Nat.pow 2 attempt := h2
    simp only [Nat.min_def]
    split <;> omega

/-- The delay before retry `attempt` (counted from zero): `base` doubled `attempt` times, at
most `cap`. -/
def exponentialBackoff (base : Duration) (attempt : Nat) (cap : Duration) : Duration :=
  (base.saturatingMul (doublingFactor attempt)).min cap

end PerpClient
