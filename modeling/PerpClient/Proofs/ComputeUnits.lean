import Mathlib.Data.Rat.Floor
import PerpClient.Budget
/-!
# The compute unit limit of a dry run

A dry run reports the units it consumed; the limit asked for is that consumption times the
buffer multiplier, at least the lower bound and at most `maxComputeUnits`. The multiplier enters
as a whole number `b` of basis points, so the limit is computed in integers:
`min (max ⌈min (c · b) (2⁶⁴ - 1) / 10000⌉ l) 1400000`, the product saturating at the largest
word as the 64-bit multiplication does.

* `ceil_div_eq`: the buffered units are the exact rational quotient rounded up;
* `unitsFromBasisPoints_le_max`, `min_le_unitsFromBasisPoints`: the limit lies between the lower
  bound (capped) and the cap, so the final narrowing to 32 bits keeps it whole
  (`toNat_unitsFromSimulation`);
* `unitsFromBasisPoints_mono`: more consumption or a larger multiplier never lowers the limit;
* `min_le_unitsFromBasisPoints_of_le`: a multiplier of at least one never asks for less than
  was consumed, up to the cap;
* `unitsFromSimulation_contract`: all of it for the limit a dry run is sized to.
-/

namespace PerpClient.Budget

@[simp] theorem maxComputeUnits_toNat : maxComputeUnits.toNat = 1400000 := rfl

/-! ## 1. Rounding up -/

/-- Adding one less than the divisor before dividing rounds the quotient up. -/
theorem ceil_div_eq (x : Nat) : (x + 9999) / 10000 = ⌈(x : ℚ) / 10000⌉₊ := by
  apply le_antisymm
  · rcases Nat.eq_zero_or_pos ((x + 9999) / 10000) with h0 | hpos
    · rw [h0]
      exact Nat.zero_le _
    · have hlt : (x + 9999) / 10000 - 1 < x / 10000 + (if x % 10000 = 0 then 0 else 1) := by
        split <;> omega
      refine Nat.le_of_pred_lt (Nat.lt_ceil.mpr ?_)
      have hx : (((x + 9999) / 10000 - 1 : Nat) : ℚ) * 10000 < x := by
        have : ((x + 9999) / 10000 - 1) * 10000 < x := by omega
        exact_mod_cast this
      rw [lt_div_iff₀ (by norm_num)]
      exact hx
  · apply Nat.ceil_le.mpr
    rw [div_le_iff₀ (by norm_num)]
    have : x ≤ (x + 9999) / 10000 * 10000 := by omega
    exact_mod_cast this

/-! ## 2. The limit in integers -/

/-- The lower bound a policy gives, none read as zero. -/
def floorOf (lowerBound : Option UInt32) : Nat := (lowerBound.map UInt32.toNat).getD 0

theorem unitsFromBasisPoints_eq (consumed bps : Nat) (lowerBound : Option UInt32) :
    unitsFromBasisPoints consumed bps lowerBound =
      min (max ((min (consumed * bps) 18446744073709551615 + 9999) / 10000)
        (floorOf lowerBound)) 1400000 := rfl

/-- The limit never exceeds the cap. -/
theorem unitsFromBasisPoints_le_max (consumed bps : Nat) (lowerBound : Option UInt32) :
    unitsFromBasisPoints consumed bps lowerBound ≤ maxComputeUnits.toNat := by
  rw [unitsFromBasisPoints_eq, maxComputeUnits_toNat]
  exact Nat.min_le_right _ _

/-- The limit is at least the lower bound, up to the cap. -/
theorem min_le_unitsFromBasisPoints (consumed bps : Nat) (lowerBound : Option UInt32) :
    min (floorOf lowerBound) maxComputeUnits.toNat ≤
      unitsFromBasisPoints consumed bps lowerBound := by
  rw [unitsFromBasisPoints_eq, maxComputeUnits_toNat]
  omega

/-- More consumption or more basis points never lower the limit. -/
theorem unitsFromBasisPoints_mono {consumed consumed' bps bps' : Nat} (hc : consumed ≤ consumed')
    (hb : bps ≤ bps') (lowerBound : Option UInt32) :
    unitsFromBasisPoints consumed bps lowerBound ≤
      unitsFromBasisPoints consumed' bps' lowerBound := by
  have hprod : consumed * bps ≤ consumed' * bps' := Nat.mul_le_mul hc hb
  rw [unitsFromBasisPoints_eq, unitsFromBasisPoints_eq]
  omega

/-- A multiplier of at least one (10000 basis points) never asks for fewer units than a 64-bit
consumption, up to the cap: past the saturation point the quotient is far above the cap. -/
theorem min_le_unitsFromBasisPoints_of_le {consumed bps : Nat}
    (hc : consumed ≤ 18446744073709551615) (hb : 10000 ≤ bps) (lowerBound : Option UInt32) :
    min consumed maxComputeUnits.toNat ≤ unitsFromBasisPoints consumed bps lowerBound := by
  have hprod : consumed * 10000 ≤ consumed * bps := Nat.mul_le_mul_left consumed hb
  rw [unitsFromBasisPoints_eq, maxComputeUnits_toNat]
  omega

/-- Below the saturation point the limit is the consumption times the decimal multiplier
`bps / 10000`, exactly, rounded up. -/
theorem unitsFromBasisPoints_of_le {consumed bps : Nat}
    (h : consumed * bps ≤ 18446744073709551615) (lowerBound : Option UInt32) :
    unitsFromBasisPoints consumed bps lowerBound =
      min (max ⌈(consumed : ℚ) * (bps / 10000)⌉₊ (floorOf lowerBound)) 1400000 := by
  rw [unitsFromBasisPoints_eq, Nat.min_eq_left h, ceil_div_eq, ← mul_div_assoc]
  push_cast
  rfl

example : unitsFromBasisPoints 250000 12000 none = 300000 := by decide

/-! ## 3. The limit of a dry run -/

/-- The limit fits 32 bits, so narrowing it keeps it whole. -/
theorem toNat_unitsFromSimulation (consumed : UInt64) (multiplier : Float)
    (lowerBound : Option UInt32) :
    (unitsFromSimulation consumed multiplier lowerBound).toNat =
      unitsFromBasisPoints consumed.toNat (basisPoints multiplier) lowerBound := by
  have hle := unitsFromBasisPoints_le_max consumed.toNat (basisPoints multiplier) lowerBound
  rw [maxComputeUnits_toNat] at hle
  unfold unitsFromSimulation
  rw [Nat.toUInt32_eq, UInt32.toNat_ofNat', Nat.mod_eq_of_lt (by omega)]

/-- **The limit of a dry run.** For a consumption `c` and a multiplier of `b` basis points, the
limit is `min (max ⌈min (c · b) (2⁶⁴ - 1) / 10000⌉ l) 1400000` computed exactly, and narrowing it
to 32 bits loses nothing. It is at most the cap and at least the lower bound (capped); it never
decreases as the consumption or the basis points grow; with a multiplier of at least one it is at
least the consumption (capped); and below saturation it is the exact decimal product rounded up. -/
theorem unitsFromSimulation_contract (consumed : UInt64) (multiplier : Float)
    (lowerBound : Option UInt32) :
    (unitsFromSimulation consumed multiplier lowerBound).toNat =
        min (max ⌈((min (consumed.toNat * basisPoints multiplier) 18446744073709551615 : Nat) : ℚ) /
          10000⌉₊ (floorOf lowerBound)) 1400000 ∧
      (unitsFromSimulation consumed multiplier lowerBound).toNat =
        unitsFromBasisPoints consumed.toNat (basisPoints multiplier) lowerBound ∧
      (unitsFromSimulation consumed multiplier lowerBound).toNat ≤ maxComputeUnits.toNat ∧
      min (floorOf lowerBound) maxComputeUnits.toNat ≤
        (unitsFromSimulation consumed multiplier lowerBound).toNat ∧
      (∀ consumed' : UInt64, consumed ≤ consumed' →
        (unitsFromSimulation consumed multiplier lowerBound).toNat ≤
          (unitsFromSimulation consumed' multiplier lowerBound).toNat) ∧
      (∀ multiplier' : Float, basisPoints multiplier ≤ basisPoints multiplier' →
        (unitsFromSimulation consumed multiplier lowerBound).toNat ≤
          (unitsFromSimulation consumed multiplier' lowerBound).toNat) ∧
      (10000 ≤ basisPoints multiplier →
        min consumed.toNat maxComputeUnits.toNat ≤
          (unitsFromSimulation consumed multiplier lowerBound).toNat) ∧
      (consumed.toNat * basisPoints multiplier ≤ 18446744073709551615 →
        (unitsFromSimulation consumed multiplier lowerBound).toNat =
          min (max ⌈(consumed.toNat : ℚ) * (basisPoints multiplier / 10000)⌉₊
            (floorOf lowerBound)) 1400000) := by
  simp only [toNat_unitsFromSimulation]
  -- the narrowing is exact, so every part is a fact of the limit in integers
  refine ⟨?_, trivial, unitsFromBasisPoints_le_max _ _ _, min_le_unitsFromBasisPoints _ _ _,
    fun consumed' hc => unitsFromBasisPoints_mono (UInt64.le_iff_toNat_le.mp hc) le_rfl _,
    fun multiplier' hb => unitsFromBasisPoints_mono le_rfl hb _,
    fun hb => min_le_unitsFromBasisPoints_of_le (by have := consumed.toNat_lt; omega) hb _,
    fun h => unitsFromBasisPoints_of_le h _⟩
  rw [unitsFromBasisPoints_eq, ceil_div_eq]

end PerpClient.Budget
