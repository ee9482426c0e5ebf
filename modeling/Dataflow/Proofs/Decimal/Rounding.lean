import Mathlib.Algebra.Order.Group.Unbundled.Int
import Mathlib.Data.Int.Order.Basic
import Mathlib.Data.Nat.Log
import Mathlib.Tactic.Ring

/-!
# Integers of 53 significant bits

A double has 53 significant bits.  An integer that needs more is rounded to a multiple of the
power of two that its leading bit allows (`Decimal.spacing`), of two nearest ones to the multiple
with an even quotient.  `Decimal.rounded` keeps the order (`Decimal.rounded_mono`), and the integers
up to `2 ^ 53` in magnitude (`Decimal.rounded_of_le`).
-/

namespace Dataflow.Decimal

/-! ## Quotients -/

/-- The integer nearest to a quotient, and of two nearest ones the even one. -/
def nearestQuotient (n d : ℕ) : ℕ :=
  if 2 * (n % d) < d then n / d
  else if d < 2 * (n % d) then n / d + 1
  else n / d + n / d % 2

section Quotient

variable {n m d q : ℕ}

lemma nearestQuotient_mul (hd : 0 < d) (q : ℕ) : nearestQuotient (q * d) d = q := by
  rw [nearestQuotient, Nat.mul_mod_left, if_pos (by omega), Nat.mul_div_cancel q hd]

lemma div_le_nearestQuotient (n d : ℕ) : n / d ≤ nearestQuotient n d := by
  unfold nearestQuotient
  split_ifs <;> omega

lemma nearestQuotient_le_succ (n d : ℕ) : nearestQuotient n d ≤ n / d + 1 := by
  unfold nearestQuotient
  split_ifs <;> omega

lemma nearestQuotient_mono (h : n ≤ m) (d : ℕ) : nearestQuotient n d ≤ nearestQuotient m d := by
  rcases (Nat.div_le_div_right h : n / d ≤ m / d).lt_or_eq with hlt | heq
  · have hn := nearestQuotient_le_succ n d
    have hm := div_le_nearestQuotient m d
    omega
  · -- with one quotient, the greater number has the greater remainder
    have hn := Nat.div_add_mod n d
    have hm := Nat.div_add_mod m d
    rw [heq] at hn
    unfold nearestQuotient
    rw [heq]
    split_ifs <;> omega

/-- A common factor cancels. -/
lemma nearestQuotient_mul_right {k : ℕ} (hk : 0 < k) (n d : ℕ) :
    nearestQuotient (n * k) (d * k) = nearestQuotient n d := by
  have hlt (a b : ℕ) : 2 * (a * k) < b * k ↔ 2 * a < b := by
    rw [← mul_assoc, Nat.mul_lt_mul_right hk]
  have hgt (a b : ℕ) : b * k < 2 * (a * k) ↔ b < 2 * a := by
    rw [← mul_assoc, Nat.mul_lt_mul_right hk]
  simp only [nearestQuotient, Nat.mul_mod_mul_right, Nat.mul_div_mul_right _ _ hk, hlt, hgt]

end Quotient

/-! ## Natural numbers -/

/-- The distance of the integers that doubles can be around a natural number. -/
def spacing (n : ℕ) : ℕ := 2 ^ (n.log2 - 52)

/-- A natural number rounded to 53 significant bits. -/
def roundedNat (n : ℕ) : ℕ := nearestQuotient n (spacing n) * spacing n

section Natural

variable {n m k : ℕ}

lemma roundedNat_of_lt (h : n < 2 ^ 53) : roundedNat n = n := by
  have hlog : n.log2 - 52 = 0 := by
    rcases Nat.eq_zero_or_pos n with rfl | hn
    · rfl
    · have := (Nat.log2_lt hn.ne').2 h
      omega
  have hquotient : nearestQuotient n 1 = n := by simpa using nearestQuotient_mul one_pos n
  rw [roundedNat, spacing, hlog, pow_zero, hquotient, mul_one]

/-- What is rounded with a spacing lies between the powers of two around it. -/
lemma nearestQuotient_spacing (hn : n.log2 = 52 + k) :
    2 ^ 52 ≤ nearestQuotient n (2 ^ k) ∧ nearestQuotient n (2 ^ k) ≤ 2 ^ 53 := by
  have hpos : n ≠ 0 := by
    rintro rfl
    rw [Nat.log2_zero] at hn
    omega
  have hlow : 2 ^ 52 * 2 ^ k ≤ n := by
    rw [← pow_add, ← hn]
    exact Nat.log2_self_le hpos
  have hhigh : n ≤ 2 ^ 53 * 2 ^ k := by
    have hlt := Nat.lt_log2_self (n := n)
    rw [hn, show 52 + k + 1 = 53 + k by omega, pow_add] at hlt
    exact hlt.le
  constructor
  · have hmono := nearestQuotient_mono hlow (2 ^ k)
    rwa [nearestQuotient_mul (Nat.two_pow_pos k)] at hmono
  · have hmono := nearestQuotient_mono hhigh (2 ^ k)
    rwa [nearestQuotient_mul (Nat.two_pow_pos k)] at hmono

lemma spacing_of_log2 (hn : n.log2 = 52 + k) : spacing n = 2 ^ k := by
  rw [spacing, hn, Nat.add_sub_cancel_left]

lemma roundedNat_of_log2 (hn : n.log2 = 52 + k) :
    roundedNat n = nearestQuotient n (2 ^ k) * 2 ^ k := by
  rw [roundedNat, spacing_of_log2 hn]

/-- Between two powers of two the rounded numbers lie as the numbers do. -/
lemma roundedNat_bounds (hn : n.log2 = 52 + k) :
    2 ^ (52 + k) ≤ roundedNat n ∧ roundedNat n ≤ 2 ^ (53 + k) := by
  obtain ⟨hlow, hhigh⟩ := nearestQuotient_spacing hn
  rw [roundedNat_of_log2 hn, pow_add, pow_add]
  exact ⟨Nat.mul_le_mul_right _ hlow, Nat.mul_le_mul_right _ hhigh⟩

lemma log2_mono (h : n ≤ m) : n.log2 ≤ m.log2 := by
  rcases Nat.eq_zero_or_pos n with rfl | hn
  · simp
  · exact (Nat.le_log2 (by omega)).2 ((Nat.log2_self_le hn.ne').trans h)

lemma roundedNat_mono (h : n ≤ m) : roundedNat n ≤ roundedNat m := by
  by_cases hm : m < 2 ^ 53
  · rw [roundedNat_of_lt hm, roundedNat_of_lt (by omega)]
    exact h
  obtain ⟨k, hk⟩ : ∃ k, m.log2 = 52 + k :=
    Nat.exists_eq_add_of_le ((Nat.le_log2 (by omega)).2 (by omega))
  obtain ⟨hlow, -⟩ := roundedNat_bounds hk
  by_cases hn : n < 2 ^ 53
  · have hlow' : (2 : ℕ) ^ 53 ≤ 2 ^ (52 + k) := by
      have hpos : m ≠ 0 := by omega
      have hlog : 53 ≤ m.log2 := (Nat.le_log2 hpos).2 (by omega)
      exact Nat.pow_le_pow_right (by decide) (by omega)
    rw [roundedNat_of_lt hn]
    omega
  obtain ⟨j, hj⟩ : ∃ j, n.log2 = 52 + j :=
    Nat.exists_eq_add_of_le ((Nat.le_log2 (by omega)).2 (by omega))
  have hlog := log2_mono h
  rcases (show j ≤ k by omega).lt_or_eq with hlt | rfl
  · calc roundedNat n ≤ 2 ^ (53 + j) := (roundedNat_bounds hj).2
      _ ≤ 2 ^ (52 + k) := Nat.pow_le_pow_right (by decide) (by omega)
      _ ≤ roundedNat m := hlow
  · rw [roundedNat_of_log2 hj, roundedNat_of_log2 hk]
    exact Nat.mul_le_mul_right _ (nearestQuotient_mono h _)

lemma roundedNat_of_le (h : n ≤ 2 ^ 53) : roundedNat n = n := by
  rcases h.lt_or_eq with hlt | rfl
  · exact roundedNat_of_lt hlt
  · rw [roundedNat_of_log2 (k := 1) Nat.log2_two_pow]
    exact congrArg (· * 2 ^ 1) (nearestQuotient_mul (by decide) (2 ^ 52))

end Natural

/-! ## Integers -/

/-- An integer rounded to 53 significant bits. -/
def rounded (n : ℤ) : ℤ := if 0 ≤ n then roundedNat n.natAbs else -roundedNat n.natAbs

lemma rounded_natCast (n : ℕ) : rounded n = roundedNat n := by
  rw [rounded, if_pos (Int.natCast_nonneg n), Int.natAbs_natCast]

lemma rounded_neg_natCast (n : ℕ) : rounded (-n) = -roundedNat n := by
  rcases Nat.eq_zero_or_pos n with rfl | hn
  · rfl
  · rw [rounded, if_neg (by omega), Int.natAbs_neg, Int.natAbs_natCast]

/-- Rounding keeps integers up to `2 ^ 53` in magnitude. -/
lemma rounded_of_le {n : ℤ} (h : n.natAbs ≤ 2 ^ 53) : rounded n = n := by
  rw [rounded, roundedNat_of_le h]
  split_ifs <;> omega

/-- Rounding keeps the order. -/
lemma rounded_mono {a b : ℤ} (h : a ≤ b) : rounded a ≤ rounded b := by
  unfold rounded
  split_ifs with ha hb
  · exact Int.ofNat_le.2 (roundedNat_mono (by omega))
  · omega
  · omega
  · have hmono := roundedNat_mono (show b.natAbs ≤ a.natAbs by omega)
    omega

/-- Of two integers with different rounded ones, the greater one has the greater one. -/
lemma lt_of_rounded_lt {a b : ℤ} (h : rounded a < rounded b) : a < b := by
  by_contra hle
  exact absurd (rounded_mono (not_lt.1 hle)) (not_le.2 h)

end Dataflow.Decimal
