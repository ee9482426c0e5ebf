import Mathlib.Algebra.Order.Field.Power
import Mathlib.Data.Rat.Cast.Order
import Mathlib.Tactic.Linarith
import Mathlib.Tactic.Positivity
import Mathlib.Tactic.Ring
import Dataflow.Decimal.Shortest

/-!
# The search for the shortest digits ends at a number

The search walks twenty-four decimal grids and gives up with the digit zero behind the last of
them.  It never does (`Decimal.Binary.onGrid_shortest`): a grid whose step is less than half of
the last place of a double has a point between the double and the upper end of its interval, and
the last of the grids is that fine for every double, whatever its exponent.
-/

namespace Dataflow.Decimal

/-! ## One grid -/

namespace Interval

/-- The factor that makes the ends of an interval, counted in `2 ^ q`, comparable with the
points of the grid of `10 ^ e`. -/
def unit (q e : Int) : ℕ := Nat.pow 2 q.toNat * Nat.pow 10 (-e).toNat

/-- The distance of two points of the grid of `10 ^ e`, in the same unit. -/
def step (q e : Int) : ℕ := Nat.pow 10 e.toNat * Nat.pow 2 (-q).toNat

variable {i : Interval} {tie : Tie} {q e : Int} {d : ℕ}

/-- The point that is chosen on a grid lies in the interval. -/
lemma contains_onGrid (h : i.onGrid tie q e = some d) :
    i.contains (unit q e) (d * step q e) = true := by
  simp only [onGrid] at h
  split at h
  · rename_i hbelow _
    rwa [← Option.some.inj h]
  · rename_i _ habove
    rwa [← Option.some.inj h]
  · simp at h
  · rename_i hbelow habove
    split_ifs at h <;> rwa [← Option.some.inj h]

lemma pos_of_contains (hlow : 0 < i.low) (h : i.contains (unit q e) (d * step q e) = true) :
    0 < d := by
  have hunit : 0 < i.low * unit q e :=
    Nat.mul_pos hlow (Nat.mul_pos (Nat.pow_pos (by decide)) (Nat.pow_pos (by decide)))
  rw [contains] at h
  split_ifs at h <;> simp only [Bool.and_eq_true, decide_eq_true_eq] at h <;>
    exact Nat.pos_of_ne_zero fun hd => by simp only [hd, Nat.zero_mul] at h; omega

/-- A grid whose step is less than two quarters of the last place has a point in the interval,
namely the first one above the value. -/
lemma exists_onGrid (tie : Tie) (hlow : i.low ≤ i.value) (hhigh : i.value + 2 ≤ i.high)
    (hstep : step q e < 2 * unit q e) : ∃ d, i.onGrid tie q e = some d := by
  have hpos : 0 < step q e := Nat.mul_pos (Nat.pow_pos (by decide)) (Nat.pow_pos (by decide))
  have hdiv := Nat.div_add_mod (i.value * unit q e) (step q e)
  have hmod := Nat.mod_lt (i.value * unit q e) hpos
  have hnext : (i.value * unit q e / step q e + 1) * step q e =
      step q e * (i.value * unit q e / step q e) + step q e := by ring
  have hlow' : i.low * unit q e ≤ i.value * unit q e := Nat.mul_le_mul_right _ hlow
  have hhigh' : i.value * unit q e + 2 * unit q e ≤ i.high * unit q e := by
    rw [← Nat.add_mul]
    exact Nat.mul_le_mul_right _ hhigh
  have habove : i.contains (unit q e) ((i.value * unit q e / step q e + 1) * step q e) = true := by
    rw [contains]
    split_ifs <;> simp only [Bool.and_eq_true, decide_eq_true_eq] <;> omega
  simp only [unit, step] at habove
  simp only [onGrid, habove]
  split
  · exact ⟨_, rfl⟩
  · exact ⟨_, rfl⟩
  · simp_all
  · split_ifs <;> exact ⟨_, rfl⟩

/-- If one of the grids has a point in the interval, the search ends at the first such grid. -/
lemma onGrid_firstGrid {n k : ℕ} (hk : k < n) (h : ∃ d, i.onGrid tie q (e - k) = some d) :
    i.onGrid tie q (i.firstGrid tie q e n).exponent = some (i.firstGrid tie q e n).digits := by
  induction n generalizing e k with
  | zero => omega
  | succ n ih =>
    rw [firstGrid]
    split
    · rename_i d hd
      exact hd
    · rename_i hnone
      cases k with
      | zero =>
        obtain ⟨d, hd⟩ := h
        rw [Nat.cast_zero, Int.sub_zero, hnone] at hd
        simp at hd
      | succ k =>
        refine ih (Nat.lt_of_succ_lt_succ hk) ?_
        rwa [show e - 1 - (k : Int) = e - (k + 1 : ℕ) by push_cast; ring]

end Interval

/-! ## Powers of ten and of two -/

/-- A power of ten is below a power of two if its exponent is less than about three tenths of
the other one, as far as the exponents of doubles go.  Above one this is seen from
`10 ^ 3 ≤ 2 ^ 10`, and below from `2 ^ 93 ≤ 10 ^ 28`. -/
lemma ten_zpow_lt_two_zpow {e q : Int} (hlow : -100000 ≤ q) (hhigh : q ≤ 5000)
    (h : 100000 * e ≤ 30103 * q - 570000) : (10 : ℚ) ^ e < 2 ^ q := by
  rcases le_total 0 e with he | he
  · refine lt_of_pow_lt_pow_left₀ 3 (by positivity) ?_
    calc ((10 : ℚ) ^ e) ^ 3 = (10 ^ 3) ^ e := by rw [← zpow_natCast, zpow_comm, zpow_natCast]
      _ ≤ (2 ^ 10) ^ e := zpow_le_zpow_left₀ he (by norm_num) (by norm_num)
      _ = 2 ^ (10 * e) := by rw [zpow_mul]; norm_num
      _ < 2 ^ (q * 3) := zpow_lt_zpow_right₀ (by norm_num) (by omega)
      _ = (2 ^ q) ^ 3 := by rw [zpow_mul]; norm_num
  · obtain ⟨f, rfl⟩ : ∃ f : ℕ, e = -f := ⟨e.natAbs, by omega⟩
    refine lt_of_pow_lt_pow_left₀ 28 (by positivity) ?_
    calc ((10 : ℚ) ^ (-f : Int)) ^ 28 = ((10 ^ 28) ^ f)⁻¹ := by
          rw [zpow_neg, zpow_natCast, inv_pow, ← pow_mul, ← pow_mul, Nat.mul_comm]
      _ ≤ ((2 ^ 93) ^ f)⁻¹ :=
          inv_anti₀ (by positivity) (pow_le_pow_left₀ (by norm_num) (by norm_num) f)
      _ = 2 ^ (-(93 * f : ℕ) : Int) := by rw [zpow_neg, zpow_natCast, pow_mul]
      _ < 2 ^ (q * 28) := zpow_lt_zpow_right₀ (by norm_num) (by push_cast; omega)
      _ = (2 ^ q) ^ 28 := by rw [zpow_mul]; norm_num

/-- A power with any exponent is a quotient of two powers with natural ones. -/
lemma zpow_mul_toNat_neg {a : ℚ} (ha : a ≠ 0) (n : Int) : a ^ n * a ^ (-n).toNat = a ^ n.toNat := by
  rw [← zpow_natCast, ← zpow_natCast, ← zpow_add₀ ha]
  congr 1
  omega

lemma step_lt_of_zpow_lt {q e : Int} (h : (10 : ℚ) ^ e < 2 ^ (q + 1)) :
    Interval.step q e < 2 * Interval.unit q e := by
  have hten := zpow_mul_toNat_neg (show (10 : ℚ) ≠ 0 by norm_num) e
  have htwo := zpow_mul_toNat_neg (show (2 : ℚ) ≠ 0 by norm_num) q
  have hpos : (0 : ℚ) < 10 ^ (-e).toNat * 2 ^ (-q).toNat := by positivity
  have hscaled := mul_lt_mul_of_pos_right h hpos
  have hcast : ((Interval.step q e : ℕ) : ℚ) < ((2 * Interval.unit q e : ℕ) : ℚ) := by
    calc ((Interval.step q e : ℕ) : ℚ) = 10 ^ e.toNat * 2 ^ (-q).toNat := by
          simp [Interval.step]
      _ = 10 ^ e * (10 ^ (-e).toNat * 2 ^ (-q).toNat) := by rw [← hten]; ring
      _ < 2 ^ (q + 1) * (10 ^ (-e).toNat * 2 ^ (-q).toNat) := hscaled
      _ = 2 * (2 ^ q * 2 ^ (-q).toNat * 10 ^ (-e).toNat) := by
          rw [zpow_add₀ (by norm_num), zpow_one]
          ring
      _ = ((2 * Interval.unit q e : ℕ) : ℚ) := by rw [htwo]; simp [Interval.unit]
  exact_mod_cast hcast

/-! ## Doubles -/

/-- The range of the mantissa and of the exponent of a double. -/
lemma view_eq_finite {x : Float} {b : Binary} (h : view x = .finite b) :
    b.mantissa < 2 ^ 53 ∧ -1074 ≤ b.exponent ∧ b.exponent ≤ 971 := by
  simp only [view] at h
  split_ifs at h with h₁ h₂ h₃
  · obtain rfl := Double.finite.inj h
    refine ⟨?_, ?_, ?_⟩ <;> simp only [leastExponent, exponentWeight] <;> omega
  · obtain rfl := Double.finite.inj h
    refine ⟨?_, ?_, ?_⟩ <;> simp only [exponentWeight, Int.ofNat_eq_natCast] at * <;> omega

namespace Binary

/-- The shortest digits of a positive double are a point of their grid in its interval. -/
theorem onGrid_shortest (tie : Tie) {b : Binary} (hmantissa : b.mantissa < 2 ^ 53)
    (hlow : -1074 ≤ b.exponent) (hhigh : b.exponent ≤ 971) :
    b.interval.onGrid tie (b.exponent - 2) (b.shortest tie).exponent =
      some (b.shortest tie).digits := by
  have hlog : b.mantissa.log2 < 53 := by
    rcases Nat.eq_zero_or_pos b.mantissa with hzero | hpos
    · simp [hzero]
    · exact (Nat.log2_lt (by omega)).2 hmantissa
  -- the last grid is the finest one
  refine Interval.onGrid_firstGrid (k := 23) (by decide) (Interval.exists_onGrid tie ?_ ?_ ?_)
  · simp only [interval]
    omega
  · simp [interval]
  · refine step_lt_of_zpow_lt (ten_zpow_lt_two_zpow ?_ ?_ ?_) <;> omega

lemma digits_shortest_pos (tie : Tie) {b : Binary} (hpos : 0 < b.mantissa)
    (hmantissa : b.mantissa < 2 ^ 53) (hlow : -1074 ≤ b.exponent) (hhigh : b.exponent ≤ 971) :
    0 < (b.shortest tie).digits := by
  refine Interval.pos_of_contains ?_
    (Interval.contains_onGrid (onGrid_shortest tie hmantissa hlow hhigh))
  simp only [interval]
  split_ifs <;> omega

end Binary

end Dataflow.Decimal
