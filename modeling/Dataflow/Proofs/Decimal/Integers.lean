import Mathlib
import Dataflow.Decimal.Binary
import Dataflow.Proofs.Decimal.Rounding

/-!
# Doubles that are integers

A double is compared by its sign, its exponent and its significand.  If two doubles are integers
(`Decimal.Denotes`), they lie as these do.  The double nearest to an integer of 64 bits is the
integer rounded to 53 significant bits (`Decimal.denotes_ofInteger`): the scaled integer is shifted
to the right, and what is cut off is kept as far as it decides the rounding (`Decimal.Cuts`).
-/

namespace Dataflow.Decimal

open Float.Model (Format totalExponent UnpackedFloat)
open Float.Model.UnpackedFloat

/-! ## Shifts -/

/-- What is kept of a number when it is divided by a power of two: the quotient, whether a half
is left over at least, and whether anything else is. -/
structure Cuts (e : ExtendedMantissa) (n d : ℕ) : Prop where
  quotient_eq : e.mantissa = n / d
  round_iff : e.roundBit = true ↔ d ≤ 2 * (n % d)
  sticky_iff : e.stickyBit = true ↔ n % d ≠ 0 ∧ 2 * (n % d) ≠ d

namespace Cuts

variable {e : ExtendedMantissa} {n d : ℕ}

lemma roundedMantissa_eq (hd : 0 < d) (h : Cuts e n d) :
    e.roundedMantissa = nearestQuotient n d := by
  obtain ⟨m, r, s⟩ := e
  obtain ⟨hm, hr, hs⟩ := h
  simp only at hm hr hs
  subst hm
  have hlt := Nat.mod_lt n hd
  unfold nearestQuotient
  cases r <;> cases s <;>
    simp only [ExtendedMantissa.roundedMantissa, ExtendedMantissa.accuracy,
      Accuracy.roundToNearestEven] <;> simp at hr hs <;> split_ifs <;> omega

/-- A shift by one more place. -/
lemma shift (hd : 0 < d) (h : Cuts e n d) : Cuts e.shiftRightOne n (d * 2) := by
  obtain ⟨m, r, s⟩ := e
  obtain ⟨hm, hr, hs⟩ := h
  simp only at hm hr hs
  subst hm
  have hlt := Nat.mod_lt n hd
  have hmod : n % (d * 2) = n % d + d * (n / d % 2) := Nat.mod_mul
  have hdiv : n / (d * 2) = n / d / 2 := (Nat.div_div_eq_div_mul n d 2).symm
  -- the last bit of the quotient becomes the half
  refine ⟨?_, ?_, ?_⟩
  · simp [ExtendedMantissa.shiftRightOne, hdiv]
  · simp only [ExtendedMantissa.shiftRightOne, hmod, bne_iff_ne, ne_eq]
    rcases Nat.mod_two_eq_zero_or_one (n / d) with hbit | hbit <;> rw [hbit] <;> simp <;> omega
  · simp only [ExtendedMantissa.shiftRightOne, hmod, Bool.or_eq_true, hr, hs]
    rcases Nat.mod_two_eq_zero_or_one (n / d) with hbit | hbit <;> rw [hbit] <;> simp <;> omega

end Cuts

lemma cuts_exact (n : ℕ) : Cuts (.ofMantissaAndAccuracy n .exact) n 1 := by
  constructor <;> simp [ExtendedMantissa.ofMantissaAndAccuracy, Nat.mod_one]

lemma cuts_shiftRight (n k : ℕ) :
    Cuts (ExtendedMantissa.ofMantissaAndAccuracy n .exact >>> k) n (2 ^ k) := by
  induction k with
  | zero => exact cuts_exact n
  | succ k ih => exact ih.shift (Nat.two_pow_pos k)

/-- A number with more than 53 bits is shifted until it has 53. -/
lemma shiftToTargetExponent_eq {m k : ℕ} {e : ℤ} (hk : m.log2 = 52 + k) (he : -1074 ≤ e + k) :
    shiftToTargetExponent .binary64 m e .exact =
      (ExtendedMantissa.ofMantissaAndAccuracy m .exact >>> k, e + k) := by
  have htarget : Format.binary64.targetExponent (totalExponent m e) = e + k := by
    simp only [Format.targetExponent, totalExponent, hk, Format.mantissaBits, Format.minExponent]
    omega
  simp only [shiftToTargetExponent, shiftToExponent, htarget, add_sub_cancel_left,
    Int.toNat_natCast]

/-! ## Unpacked doubles -/

/-- An unpacked double that is an integer, with 53 bits unless it is zero. -/
inductive Normal : UnpackedFloat → ℤ → Prop
  | zero (s : Sign) : Normal (.zero s) 0
  | finite (s : Sign) {m k v : ℕ} {e : ℤ} (low : 2 ^ 52 ≤ m) (high : m < 2 ^ 53) (small : k ≤ 1023)
      (exponent_eq : e = k - 52) (value_eq : v * 2 ^ 52 = m * 2 ^ k) (pos : 0 < m) :
      Normal (.finite s m e pos) (s.apply v)

lemma log2_eq {m : ℕ} (hlow : 2 ^ 52 ≤ m) (hhigh : m < 2 ^ 53) : m.log2 = 52 :=
  (Nat.log2_eq_iff (by omega)).2 ⟨hlow, hhigh⟩

/-- A significand that has come out as `2 ^ 53` is shifted once more. -/
lemma normal_carried (s : Sign) {r j v : ℕ} {e : ℤ} (hlow : 2 ^ 52 ≤ r) (hhigh : r ≤ 2 ^ 53)
    (he : e = j - 52) (hj : j ≤ 1022) (hv : v * 2 ^ 52 = r * 2 ^ j) :
    Normal
      (if h : (shiftToTargetExponent .binary64 r e .exact).1.mantissa = 0 then .zero s
      else .finite s (shiftToTargetExponent .binary64 r e .exact).1.mantissa
        (shiftToTargetExponent .binary64 r e .exact).2 (Nat.pos_of_ne_zero h))
      (s.apply v) := by
  rcases hhigh.lt_or_eq with hlt | rfl
  · have hshift := shiftToTargetExponent_eq (k := 0) (e := e) (log2_eq hlow hlt) (by omega)
    have hmantissa : (shiftToTargetExponent .binary64 r e .exact).1.mantissa = r := by
      rw [hshift, (cuts_shiftRight r 0).quotient_eq, pow_zero, Nat.div_one]
    have hexponent : (shiftToTargetExponent .binary64 r e .exact).2 = j - 52 := by
      rw [hshift, he, Nat.cast_zero, add_zero]
    rw [dif_neg (by omega)]
    exact .finite s (by omega) (by omega) (by omega) hexponent (by rw [hmantissa, hv]) _
  · have hshift := shiftToTargetExponent_eq (k := 1) (e := e) Nat.log2_two_pow (by omega)
    have hmantissa : (shiftToTargetExponent .binary64 (2 ^ 53) e .exact).1.mantissa = 2 ^ 52 := by
      rw [hshift, (cuts_shiftRight (2 ^ 53) 1).quotient_eq]
      decide
    have hexponent : (shiftToTargetExponent .binary64 (2 ^ 53) e .exact).2 =
        (j + 1 : ℕ) - 52 := by
      rw [hshift, he]
      push_cast
      omega
    rw [dif_neg (by omega)]
    refine .finite s (by omega) (by omega) (by omega) hexponent ?_ _
    rw [hmantissa, hv, pow_succ 2 j]
    ring

/-- A number of more than 53 bits times a power of two, rounded. -/
lemma normal_roundWithAccuracy (s : Sign) {m k j v : ℕ} {e : ℤ} (hk : m.log2 = 52 + k)
    (he : e + k = j - 52) (hj : j ≤ 1022)
    (hv : v * 2 ^ 52 = nearestQuotient m (2 ^ k) * 2 ^ j) :
    Normal (roundWithAccuracy .binary64 s m e .exact) (s.apply v) := by
  have hrounded := (cuts_shiftRight m k).roundedMantissa_eq (Nat.two_pow_pos k)
  obtain ⟨hlow, hhigh⟩ := nearestQuotient_spacing hk
  rw [roundWithAccuracy, shiftToTargetExponent_eq hk (by omega)]
  rw [← hrounded] at hlow hhigh hv
  exact normal_carried s hlow hhigh he hj hv

namespace Normal

variable {u w : UnpackedFloat} {a b : ℤ}

/-- The bits of a double give it back. -/
lemma unpack_pack (h : Normal u a) : unpack .binary64 (pack .binary64 u) = u := by
  cases h with
  | zero s => cases s <;> rfl
  | @finite s m k v e low high small exponent_eq value_eq pos =>
    have hbiased : (e + Format.binary64.exponentBias +
        Format.binary64.mantissaBitsWithoutImplicit).toNat = k + 1023 := by
      change (e + 1023 + 52).toNat = k + 1023
      omega
    have hpack : pack .binary64 (.finite s m e pos) =
        packComponents .binary64 s (BitVec.ofNat 11 (k + 1023)) (BitVec.ofNat 52 m) := by
      simp only [pack, hbiased, log2_eq low high]
      rw [if_neg (show ¬ 2048 ≤ k + 1023 + 1 by omega),
        if_pos (show 52 + 1 = Format.binary64.mantissaBits from rfl)]
    have hexponent : (BitVec.ofNat 11 (k + 1023)).toNat = k + 1023 := by
      rw [BitVec.toNat_ofNat]
      omega
    have hne (n : ℕ) (hn : n ≠ k + 1023) (hn' : n < 2048) :
        BitVec.ofNat 11 (k + 1023) ≠ BitVec.ofNat 11 n := by
      intro heq
      have hnat := congrArg BitVec.toNat heq
      rw [hexponent, BitVec.toNat_ofNat] at hnat
      omega
    have hmantissa : (1#1 ++ BitVec.ofNat 52 m).toNat = m := by
      have hrest : m % 2 ^ 52 < 2 ^ 52 := Nat.mod_lt _ (by decide)
      have hbits : (BitVec.ofNat 52 m).toNat = m % 2 ^ 52 := BitVec.toNat_ofNat m 52
      rw [BitVec.toNat_append, hbits, ← Nat.shiftLeft_add_eq_or_of_lt hrest]
      change 2 ^ 52 + m % 2 ^ 52 = m
      omega
    have hunbiased : ((k + 1023 : ℕ) : ℤ) - (Format.binary64.exponentBias + (52 : ℕ)) = e := by
      have hbias : Format.binary64.exponentBias = 1023 := rfl
      omega
    rw [hpack]
    simp only [unpack, unpackMantissa_packComponents, unpackExponent_packComponents,
      unpackSign_packComponents, Sign.ofBitVec_toBitVec]
    rw [if_neg (show BitVec.ofNat 11 (k + 1023) ≠ -1#11 from hne 2047 (by omega) (by omega)),
      if_neg (show BitVec.ofNat 11 (k + 1023) ≠ 0#11 from hne 0 (by omega) (by omega))]
    simp only [hmantissa, hexponent, hunbiased]

lemma neg (h : Normal u a) : Normal u.neg (-a) := by
  cases h with
  | zero s => exact .zero _
  | @finite s m k v e low high small exponent_eq value_eq pos =>
    cases s with
    | positive => exact .finite .negative low high small exponent_eq value_eq pos
    | negative =>
      have hneg := Normal.finite .positive low high small exponent_eq value_eq pos
      rw [Sign.apply, neg_neg]
      exact hneg

section Compare

variable {m n j k v w : ℕ}

/-- Of two numbers with 53 bits, the one with the smaller exponent is smaller. -/
lemma lt_of_exponent_lt (hm : m < 2 ^ 53) (hn : 2 ^ 52 ≤ n) (hjk : j < k)
    (hv : v * 2 ^ 52 = m * 2 ^ j) (hw : w * 2 ^ 52 = n * 2 ^ k) : v < w := by
  have hpow : 2 ^ j * 2 ≤ 2 ^ k := by
    rw [← pow_succ]
    exact Nat.pow_le_pow_right (by decide) hjk
  have hless : v * 2 ^ 52 < w * 2 ^ 52 := by
    calc v * 2 ^ 52 = m * 2 ^ j := hv
      _ < 2 ^ 53 * 2 ^ j := Nat.mul_lt_mul_of_pos_right hm (Nat.two_pow_pos j)
      _ = 2 ^ 52 * (2 ^ j * 2) := by ring
      _ ≤ n * 2 ^ k := Nat.mul_le_mul hn hpow
      _ = w * 2 ^ 52 := hw.symm
  exact Nat.lt_of_mul_lt_mul_right hless

lemma lt_of_significand_lt (hmn : m < n) (hv : v * 2 ^ 52 = m * 2 ^ j)
    (hw : w * 2 ^ 52 = n * 2 ^ j) : v < w := by
  have hless : v * 2 ^ 52 < w * 2 ^ 52 := by
    rw [hv, hw]
    exact Nat.mul_lt_mul_of_pos_right hmn (Nat.two_pow_pos j)
  exact Nat.lt_of_mul_lt_mul_right hless

/-- Significands and exponents lie as the numbers do, exponents first. -/
lemma compare_finite {e f : ℤ} (hm : 2 ^ 52 ≤ m) (hm' : m < 2 ^ 53) (hn : 2 ^ 52 ≤ n)
    (hn' : n < 2 ^ 53) (he : e = j - 52) (hf : f = k - 52) (hv : v * 2 ^ 52 = m * 2 ^ j)
    (hw : w * 2 ^ 52 = n * 2 ^ k) :
    (compare e f).then (compare m n) = compare (v : ℤ) w := by
  rcases lt_trichotomy j k with hjk | rfl | hjk
  · have hvw := lt_of_exponent_lt hm' hn hjk hv hw
    rw [Int.compare_eq_lt.2 (by omega), Int.compare_eq_lt.2 (by omega)]
    rfl
  · have hef : e = f := he.trans hf.symm
    rw [hef, Int.compare_eq_eq.2 rfl]
    change compare m n = compare (v : ℤ) w
    rcases lt_trichotomy m n with hmn | rfl | hmn
    · have hvw := lt_of_significand_lt hmn hv hw
      rw [Nat.compare_eq_lt.2 hmn, Int.compare_eq_lt.2 (by omega)]
    · rw [Nat.compare_eq_eq.2 rfl, Int.compare_eq_eq.2 (by omega)]
    · have hvw := lt_of_significand_lt hmn hw hv
      rw [Nat.compare_eq_gt.2 hmn, Int.compare_eq_gt.2 (by omega)]
  · have hvw := lt_of_exponent_lt hn' hm hjk hw hv
    rw [Int.compare_eq_gt.2 (by omega), Int.compare_eq_gt.2 (by omega)]
    rfl

end Compare

lemma compare_neg_neg (a b : ℤ) : compare (-a) (-b) = (compare a b).swap := by
  rw [Int.compare_swap]
  rcases lt_trichotomy a b with h | rfl | h
  · rw [Int.compare_eq_gt.2 (by omega), Int.compare_eq_gt.2 h]
  · rw [Int.compare_eq_eq.2 rfl, Int.compare_eq_eq.2 rfl]
  · rw [Int.compare_eq_lt.2 (by omega), Int.compare_eq_lt.2 h]

/-- Unpacked doubles are compared as the integers that they are. -/
lemma compare_eq (hu : Normal u a) (hw : Normal w b) : u.compare w = some (compare a b) := by
  have hpos {m k v : ℕ} (hm : 0 < m) (hv : v * 2 ^ 52 = m * 2 ^ k) : 0 < v := by
    have hmul : 0 < m * 2 ^ k := Nat.mul_pos hm (Nat.two_pow_pos k)
    omega
  have hless {c d : ℤ} (h : c < d) : some Ordering.lt = some (compare c d) :=
    congrArg some (Int.compare_eq_lt.2 h).symm
  have hgreater {c d : ℤ} (h : d < c) : some Ordering.gt = some (compare c d) :=
    congrArg some (Int.compare_eq_gt.2 h).symm
  cases hu with
  | zero s =>
    cases hw with
    | zero t => rfl
    | finite t _ _ _ _ hw pos =>
      have hwpos := hpos pos hw
      cases t with
      | positive => exact hless (Int.natCast_pos.2 hwpos)
      | negative => exact hgreater (Int.neg_neg_of_pos (Int.natCast_pos.2 hwpos))
  | finite s hm hm' _ he hv pos =>
    have hvpos := hpos pos hv
    cases hw with
    | zero t =>
      cases s with
      | positive => exact hgreater (Int.natCast_pos.2 hvpos)
      | negative => exact hless (Int.neg_neg_of_pos (Int.natCast_pos.2 hvpos))
    | finite t hn hn' _ hf hw pos' =>
      have hwpos := hpos pos' hw
      have hcompare := compare_finite hm hm' hn hn' he hf hv hw
      cases s with
      | positive =>
        cases t with
        | positive => exact congrArg some hcompare
        | negative => exact hgreater (c := (_ : ℕ)) (d := -(_ : ℕ)) (by omega)
      | negative =>
        cases t with
        | positive => exact hless (c := -(_ : ℕ)) (d := (_ : ℕ)) (by omega)
        | negative =>
          refine congrArg some ((congrArg Ordering.swap hcompare).trans ?_)
          exact (compare_neg_neg _ _).symm

/-- A factor of one changes nothing. -/
lemma mul_one (h : Normal u a) (ha : a.natAbs < 2 ^ 53) :
    Normal (UnpackedFloat.mul .binary64 u (.finite .positive (2 ^ 52) (-52) (by decide))) a := by
  cases h with
  | zero s => exact .zero _
  | @finite s m k v e low high small exponent_eq value_eq pos =>
    have hlog : (m * 2 ^ 52).log2 = 52 + 52 := by
      rw [Nat.log2_eq_iff (by omega)]
      omega
    have hvalue : v * 2 ^ 52 = nearestQuotient (m * 2 ^ 52) (2 ^ 52) * 2 ^ k := by
      rw [nearestQuotient_mul (by decide), value_eq]
    have hsign : s * Sign.positive = s := by cases s <;> rfl
    have hk : k ≤ 1022 := by
      have hv : v < 2 ^ 53 := by cases s <;> simpa [Sign.apply] using ha
      by_contra hlarge
      have hpow : 2 ^ 53 ≤ 2 ^ k := Nat.pow_le_pow_right (by decide) (by omega)
      have hprod : 2 ^ 52 * 2 ^ 53 ≤ m * 2 ^ k := Nat.mul_le_mul low hpow
      omega
    change Normal (roundWithAccuracy _ (s * .positive) _ (e + -52) _) _
    rw [hsign]
    exact normal_roundWithAccuracy s hlog (by omega) hk hvalue

end Normal

/-! ## Natural numbers -/

section Natural

variable {n : ℕ}

lemma log2_mul_two_pow (hn : 0 < n) (k : ℕ) : (n * 2 ^ k).log2 = n.log2 + k := by
  rw [Nat.log2_eq_iff (Nat.mul_pos hn (Nat.two_pow_pos k)).ne', pow_add, pow_succ, pow_add]
  have hlow := Nat.log2_self_le hn.ne'
  have hhigh := Nat.lt_log2_self (n := n)
  rw [pow_succ] at hhigh
  constructor
  · exact Nat.mul_le_mul_right _ hlow
  · rw [mul_right_comm]
    exact Nat.mul_lt_mul_of_pos_right hhigh (Nat.two_pow_pos k)

/-- A number of at most 53 bits is shifted to the left until it has 53. -/
lemma normal_ofNat (hpos : 0 < n) (hn : n < 2 ^ 53) :
    Normal (UnpackedFloat.ofNat .binary64 n) n := by
  have hlog : n.log2 ≤ 52 := by
    have hlt := (Nat.log2_lt hpos.ne').2 hn
    omega
  obtain ⟨k, hk⟩ := Nat.exists_eq_add_of_le hlog
  have htarget : Format.binary64.targetExponent (totalExponent n 0) = -k := by
    simp only [Format.targetExponent, totalExponent, Format.mantissaBits, Format.minExponent]
    omega
  have hround : UnpackedFloat.ofNat .binary64 n =
      roundWithAccuracy .binary64 .positive (n <<< k) (-k) .exact := by
    have hcompare : compare (n : ℤ) 0 = .gt := Int.compare_eq_gt.2 (by omega)
    simp only [UnpackedFloat.ofNat, UnpackedFloat.ofInt, UnpackedFloat.normalize, hcompare,
      UnpackedFloat.round, Int.toNat_natCast, htarget, decreaseExponent]
    simp
  have hshift : (n <<< k).log2 = 52 + 0 := by
    rw [Nat.shiftLeft_eq, log2_mul_two_pow hpos]
    omega
  have hvalue : n * 2 ^ 52 = nearestQuotient (n <<< k) (2 ^ 0) * 2 ^ n.log2 := by
    have hquotient : nearestQuotient (n <<< k) 1 = n <<< k := by
      simpa using nearestQuotient_mul one_pos (n <<< k)
    rw [pow_zero, hquotient, Nat.shiftLeft_eq, mul_assoc, ← pow_add, hk, add_comm n.log2 k]
  rw [hround]
  exact normal_roundWithAccuracy .positive hshift (by omega) (by omega) hvalue

/-- A number of more bits is rounded to 53. -/
lemma normal_ofScientific (hlow : 2 ^ 53 ≤ n) (hhigh : n < 2 ^ 64) :
    Normal (UnpackedFloat.ofScientific .binary64 n 0) (roundedNat n) := by
  have hpos : n ≠ 0 := by omega
  obtain ⟨k, hk⟩ : ∃ k, n.log2 = 52 + k :=
    Nat.exists_eq_add_of_le ((Nat.le_log2 hpos).2 (by omega))
  have hsmall : n.log2 ≤ 1022 := by
    have hlt := (Nat.log2_lt hpos).2 hhigh
    omega
  have hround : UnpackedFloat.ofScientific .binary64 n 0 =
      roundWithAccuracy .binary64 .positive (n * 2 ^ 53) (-53) .exact := by
    have hbits : (2 : ℤ) ^ Format.binary64.exponentBits = 2048 := rfl
    rw [UnpackedFloat.ofScientific, dif_neg hpos, hbits, if_neg (by decide), if_neg (by omega),
      if_pos le_rfl, ← Nat.shiftLeft_eq]
    change roundWithAccuracy .binary64 (.positive * .positive)
      (n <<< 53 * 10 ^ (0 : ℤ).toNat) (-53 + 0) .exact = _
    rw [Int.toNat_zero, pow_zero, Nat.mul_one]
    rfl
  have hlog : (n * 2 ^ 53).log2 = 52 + (k + 53) := by
    rw [log2_mul_two_pow (by omega)]
    omega
  have hvalue : roundedNat n * 2 ^ 52 =
      nearestQuotient (n * 2 ^ 53) (2 ^ (k + 53)) * 2 ^ n.log2 := by
    rw [pow_add 2 k, nearestQuotient_mul_right (by decide), roundedNat_of_log2 hk, hk, pow_add 2 52]
    ring
  rw [hround]
  exact normal_roundWithAccuracy .positive hlog (by omega) hsmall hvalue

end Natural

/-! ## Doubles -/

/-- A double that is an integer. -/
def Denotes (x : Float) (n : ℤ) : Prop := Normal x.toModel.unpack n

lemma denotes_of_normal {u : UnpackedFloat} {a : ℤ} (h : Normal u a) :
    Denotes ⟨Float.Model.pack u⟩ a := by
  have hunpack : (Float.Model.pack u).unpack = u := h.unpack_pack
  rw [Denotes, hunpack]
  exact h

namespace Denotes

variable {x y : Float} {a b : ℤ}

lemma lt_iff (hx : Denotes x a) (hy : Denotes y b) : x < y ↔ a < b := by
  have hmodel : x < y ↔ x.toModel.unpack.compare y.toModel.unpack = some .lt := by
    rw [← beq_iff_eq]
    exact decide_eq_true_iff
  rw [hmodel, Normal.compare_eq hx hy, Option.some_inj, Int.compare_eq_lt]

lemma beq_iff (hx : Denotes x a) (hy : Denotes y b) : (x == y) = true ↔ a = b := by
  have hmodel : (x == y) = (x.toModel.unpack.compare y.toModel.unpack == some .eq) := rfl
  rw [hmodel, beq_iff_eq, Normal.compare_eq hx hy, Option.some_inj, Int.compare_eq_eq]

lemma neg (hx : Denotes x a) : Denotes (-x) (-a) := denotes_of_normal (Normal.neg hx)

end Denotes

/-- The double nearest to a natural number is the number rounded to 53 bits. -/
lemma denotes_ofScientific {n : ℕ} (hn : n < 2 ^ 64) :
    Denotes (Float.ofScientific n false 0) (roundedNat n) := by
  by_cases hsmall : n < 2 ^ 53
  · rcases Nat.eq_zero_or_pos n with rfl | hpos
    · exact .zero _
    · have hone : Float.ofScientific n false 0 =
          ⟨Float.Model.pack (UnpackedFloat.mul .binary64 n.toUInt64.toFloat.toModel.unpack
            (.finite .positive (2 ^ 52) (-52) (by decide)))⟩ := by
        have hfactor : Float.exactlyRepresentablePowersOfTen[0].toModel.unpack =
            .finite .positive (2 ^ 52) (-52) (by decide) := rfl
        rw [Float.ofScientific, dif_pos ⟨hsmall, by decide⟩, ← hfactor]
        rfl
      have hfloat : Denotes n.toUInt64.toFloat n := by
        have hwrap : n.toUInt64.toNat = n := Nat.mod_eq_of_lt hn
        have hnormal : Normal (UnpackedFloat.ofNat .binary64 n.toUInt64.toNat) n := by
          rw [hwrap]
          exact normal_ofNat hpos hsmall
        exact denotes_of_normal hnormal
      rw [hone, roundedNat_of_lt hsmall]
      exact denotes_of_normal (Normal.mul_one hfloat (by omega))
  · have hlarge : Float.ofScientific n false 0 =
        ⟨Float.Model.pack (UnpackedFloat.ofScientific .binary64 n 0)⟩ := by
      rw [Float.ofScientific, dif_neg fun h => hsmall h.1]
      rfl
    rw [hlarge]
    exact denotes_of_normal (normal_ofScientific (by omega) hn)

/-- **The double nearest to an integer is the integer rounded to 53 bits.** -/
theorem denotes_ofInteger {n : ℤ} (hn : n.natAbs < 2 ^ 64) :
    Denotes (ofInteger n) (rounded n) := by
  cases n with
  | ofNat m =>
    rw [Int.ofNat_eq_natCast, rounded_natCast]
    exact denotes_ofScientific hn
  | negSucc m =>
    have hneg : rounded (Int.negSucc m) = -roundedNat (m + 1) := rounded_neg_natCast (m + 1)
    rw [hneg]
    exact (denotes_ofScientific hn).neg

end Dataflow.Decimal
