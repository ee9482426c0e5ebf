import Dataflow.Proofs.Script.Exact
import Dataflow.Proofs.Value.Json

/-!
# Overflows of integer operators

An operator on two integers gives the exact result if that fits 64 bits, and otherwise an overflow
(`evaluate_operator`).  Two operators overflow more often than they must: the remainder of the
least integer by -1 is refused together with its quotient, and an exponent beyond 32 bits is refused
together with all powers, also those of 0, 1 and -1 (`Arithmetic.Needless`).
-/

namespace Dataflow.Script

/-- The operands for which an operator overflows although its result fits 64 bits. -/
def Arithmetic.Needless (op : Arithmetic) (a b : Int64) : Prop :=
  match op with
  | modulo => a = Int64.minValue ∧ b = -1
  | power => a.toInt.natAbs ≤ 1 ∧ largestExponent < b.toInt
  | _ => False

instance (op : Arithmetic) (a b : Int64) : Decidable (op.Needless a b) :=
  match op with
  | .modulo => inferInstanceAs (Decidable (_ ∧ _))
  | .power => inferInstanceAs (Decidable (_ ∧ _))
  | .add | .subtract | .multiply | .divide | .floorDivide => inferInstanceAs (Decidable False)

/-! ## Quotients and remainders -/

section Division

variable {a b : Int64}

lemma eq_of_not_isDivisible (hb : b ≠ 0) (h : ¬ isDivisible a b = true) :
    a = Int64.minValue ∧ b = -1 := by
  rw [isDivisible_iff] at h
  tauto

/-- The least integer is divided by -1 without a remainder, but the quotient does not fit. -/
lemma floor_minValue : ⌊(Int64.minValue.toInt / (-1 : Int64).toInt : ℚ)⌋ = 2 ^ 63 :=
  floor_eq_of_remainder (r := 0) (by decide) (.inr (by decide))

/-- A quotient is refused only if its floor does not fit. -/
lemma not_fitsInt_of_floorQuotient? (hb : b ≠ 0) (h : floorQuotient? a b = none) :
    ¬ Value.fitsInt ⌊(a.toInt / b.toInt : ℚ)⌋ = true := by
  have hb' := toInt_ne_zero hb
  by_cases hdivisible : isDivisible a b = true
  · rw [floorQuotient?, if_pos hdivisible] at h
    simp only [mod_ne_zero_iff, signsDiffer_iff] at h
    split at h
    · rename_i hcorrect
      split at h
      · simp at h
      · rename_i hfits
        rwa [floor_eq_tdiv_sub_one hb' hcorrect.1 (by omega), ← toInt_quotient hdivisible]
    · simp at h
  · obtain ⟨rfl, rfl⟩ := eq_of_not_isDivisible hb hdivisible
    rw [floor_minValue]
    decide

/-- A remainder is refused only for the least integer by -1. -/
lemma eq_of_floorRemainder? (hb : b ≠ 0) (h : floorRemainder? a b = none) :
    a = Int64.minValue ∧ b = -1 := by
  by_cases hdivisible : isDivisible a b = true
  · rw [floorRemainder?, if_pos hdivisible] at h
    split at h <;> simp at h
  · exact eq_of_not_isDivisible hb hdivisible

end Division

/-! ## Powers -/

lemma fitsInt_pow {a : ℤ} (ha : a.natAbs ≤ 1) (n : ℕ) : Value.fitsInt (a ^ n) = true := by
  have hle : (a ^ n).natAbs ≤ 1 := by
    rw [Int.natAbs_pow]
    simpa using Nat.pow_le_pow_left ha n
  rw [fitsInt_iff]
  omega

/-- The power with a small exponent fits 64 bits only if the power does. -/
lemma fitsInt_integerPower {a : ℤ} {n : ℕ} :
    Value.fitsInt (integerPower a n) = true ↔ Value.fitsInt (a ^ n) = true := by
  refine ⟨fun h => integerPower_eq h ▸ h, fun h => ?_⟩
  by_cases hn : n < 64
  · rw [integerPower, if_pos hn]
    exact h
  · have hsmall : a.natAbs ≤ 1 := by
      by_contra hlarge
      have hno := not_fitsInt_pow (a := a) (n := n) (by omega) (by omega)
      exact absurd (h.symm.trans hno) (by simp)
    rw [integerPower, if_neg hn]
    exact fitsInt_pow hsmall _

/-! ## Operators -/

section Operators

variable {op : Arithmetic} {a b : Int64} {r : ℤ} {place : Place}

lemma exact_of_fitsInt (h : Value.fitsInt r = true) : exact place r = .ok (.int (Int64.ofInt r)) :=
  if_pos h

lemma exact_of_not_fitsInt (h : ¬ Value.fitsInt r = true) :
    exact place r = .error (.overflow place) := if_neg h

lemma fitted_eq_exact {q : Option Int64} (hsome : ∀ n, q = some n → n.toInt = r)
    (hnone : q = none → ¬ Value.fitsInt r = true) : fitted place q = exact place r := by
  cases q with
  | some n =>
    rw [← hsome n rfl, exact_of_fitsInt (Value.fitsInt_toInt n), Int64.ofInt_toInt]
    rfl
  | none => rw [exact_of_not_fitsInt (hnone rfl)]; rfl

lemma exact_integerPower (a : ℤ) (n : ℕ) :
    exact place (integerPower a n) = exact place (a ^ n) := by
  by_cases hfits : Value.fitsInt (integerPower a n) = true
  · rw [integerPower_eq hfits]
  · rw [exact_of_not_fitsInt hfits, exact_of_not_fitsInt (mt fitsInt_integerPower.2 hfits)]

/-- Needless overflows have results that fit. -/
lemma Arithmetic.Needless.fitsInt (h : op.Needless a b) (hr : op.whole? a.toInt b.toInt = some r) :
    Value.fitsInt r = true := by
  cases op with
  | modulo =>
    obtain ⟨rfl, rfl⟩ := h
    rw [whole?, if_neg (by decide), floor_minValue] at hr
    obtain rfl := Option.some.inj hr
    decide
  | power =>
    obtain ⟨ha, hb⟩ := h
    rw [whole?, if_neg (by omega)] at hr
    obtain rfl := Option.some.inj hr
    exact fitsInt_pow ha _
  | _ => exact h.elim

/-- An operator with an exact result gives it or overflows. -/
lemma ofNumbers_eq (hr : op.whole? a.toInt b.toInt = some r) :
    op.ofNumbers (.int a) (.int b) =
      if op.Needless a b then .error (.overflow (.arithmetic op)) else exact (.arithmetic op) r := by
  cases op with
  | add | subtract | multiply =>
    obtain rfl := Option.some.inj hr
    rfl
  | divide => simp [Arithmetic.whole?] at hr
  | floorDivide =>
    obtain ⟨hb, rfl⟩ : b.toInt ≠ 0 ∧ ⌊(a.toInt / b.toInt : ℚ)⌋ = r := by
      simpa [Arithmetic.whole?] using hr
    have hb' : b ≠ 0 := fun h => hb (by rw [h]; rfl)
    exact fitted_eq_exact (fun q hq => floorQuotient?_eq_some hq)
      (not_fitsInt_of_floorQuotient? hb')
  | modulo =>
    obtain ⟨hb, rfl⟩ : b.toInt ≠ 0 ∧ a.toInt - b.toInt * ⌊(a.toInt / b.toInt : ℚ)⌋ = r := by
      simpa [Arithmetic.whole?] using hr
    have hb' : b ≠ 0 := fun h => hb (by rw [h]; rfl)
    split
    · rename_i hneedless
      obtain ⟨rfl, rfl⟩ := hneedless
      rfl
    · rename_i hneeded
      exact fitted_eq_exact (fun q hq => floorRemainder?_eq_some hq)
        fun hnone => absurd (eq_of_floorRemainder? hb' hnone) hneeded
  | power =>
    obtain ⟨hb, rfl⟩ : 0 ≤ b.toInt ∧ a.toInt ^ b.toInt.toNat = r := by
      simpa [Arithmetic.whole?] using hr
    have hint : Arithmetic.ofNumbers .power (.int a) (.int b) =
        if b.toInt ≤ largestExponent then
          exact (.arithmetic .power) (integerPower a.toInt b.toInt.toNat)
        else .error (.overflow (.arithmetic .power)) := by
      simp only [Arithmetic.ofNumbers, Arithmetic.ofInts?, lt_zero_iff, if_neg (not_lt.2 hb)]
      split <;> rfl
    rw [hint]
    by_cases hsmall : b.toInt ≤ largestExponent
    · rw [if_pos hsmall, if_neg fun h => absurd h.2 (by omega), exact_integerPower]
    · rw [if_neg hsmall]
      split
      · rfl
      · rename_i hneeded
        -- the base is not 0, 1 or -1, so that the power does not fit
        have hlarge : 2 ≤ a.toInt.natAbs := by
          by_contra hle
          exact hneeded ⟨by omega, by omega⟩
        have hexponent : 64 ≤ b.toInt.toNat := by
          have hmax : (64 : ℤ) ≤ largestExponent := by decide
          omega
        have hno := not_fitsInt_pow hlarge hexponent
        rw [exact_of_not_fitsInt ((Bool.not_eq_true _).mpr hno)]

lemma apply_ints (hr : op.whole? a.toInt b.toInt = some r) :
    op.apply (.int a) (.int b) =
      if op.Needless a b then .error (.overflow (.arithmetic op)) else exact (.arithmetic op) r := by
  rw [apply_numbers op (.int a) (.int b), if_neg, ofNumbers_eq hr]
  intro hzero
  have hnone := value_of_isZero (x := some a.toInt) (.int b) hzero
  simp [hr] at hnone

lemma result_arithmetic {locals : Dict Value} {left right : Expr} {v w : Value}
    (hleft : (evaluate locals left).result = .ok v)
    (hright : (evaluate locals right).result = .ok w) :
    (evaluate locals (.arithmetic op left right)).result = op.apply v w := by
  rw [evaluate]
  simp only [result_bind, hleft, hright]
  rfl

/-- **An operator on two integers gives the exact result if it fits 64 bits, and overflows
otherwise**, but also overflows needlessly: for the remainder of the least integer by -1, and for
the powers of 0, 1 and -1 whose exponents do not fit 32 bits. -/
theorem evaluate_operator {locals : Dict Value} {left right : Expr}
    (hleft : (evaluate locals left).result = .ok (.int a))
    (hright : (evaluate locals right).result = .ok (.int b))
    (hr : op.whole? a.toInt b.toInt = some r) :
    ((evaluate locals (.arithmetic op left right)).result =
      if Value.fitsInt r = true ∧ ¬ op.Needless a b then .ok (.int (Int64.ofInt r))
      else .error (.overflow (.arithmetic op))) ∧
      (op.Needless a b → Value.fitsInt r = true) := by
  refine ⟨?_, fun hneedless => hneedless.fitsInt hr⟩
  rw [result_arithmetic hleft hright, apply_ints hr]
  by_cases hneedless : op.Needless a b
  · simp [hneedless]
  · by_cases hfits : Value.fitsInt r = true
    · simp [hneedless, hfits, exact_of_fitsInt]
    · simp [hneedless, hfits, exact_of_not_fitsInt]

end Operators

/-- The least integer by -1, its remainder by 10, and the least integer as a power. -/
theorem evaluate_operator_edges :
    let minusOne := Expr.negate (.literal (.int 1))
    let minusTwo := Expr.negate (.literal (.int 2))
    (evaluate leastLocals (.arithmetic .floorDivide (.variable "x") minusOne)).result =
        .error (.overflow (.arithmetic .floorDivide)) ∧
      (evaluate leastLocals (.arithmetic .modulo (.variable "x") (.literal (.int 10)))).result =
        .ok (.int 2) ∧
      (evaluate leastLocals (.arithmetic .power minusTwo (.literal (.int 63)))).result =
        .ok (.int Int64.minValue) := by
  have hx : (evaluate leastLocals (.variable "x")).result = .ok (.int Int64.minValue) := rfl
  have hliteral (n : Int64) : (evaluate leastLocals (.literal (.int n))).result = .ok (.int n) := by
    rw [evaluate]
    rfl
  have hone : (evaluate leastLocals (.negate (.literal (.int 1)))).result = .ok (.int (-1)) := rfl
  have htwo : (evaluate leastLocals (.negate (.literal (.int 2)))).result = .ok (.int (-2)) := rfl
  have hquotient :
      Arithmetic.floorDivide.whole? Int64.minValue.toInt (-1 : Int64).toInt = some (2 ^ 63) := by
    rw [Arithmetic.whole?, if_neg (by decide), floor_minValue]
  have hremainder :
      Arithmetic.modulo.whole? Int64.minValue.toInt (10 : Int64).toInt = some 2 := by
    have hfloor : ⌊(Int64.minValue.toInt / (10 : Int64).toInt : ℚ)⌋ = -922337203685477581 :=
      floor_eq_of_remainder (r := 2) (by decide) (.inl (by decide))
    rw [Arithmetic.whole?, if_neg (by decide), hfloor]
    rfl
  have hpower : Arithmetic.power.whole? (-2 : Int64).toInt (63 : Int64).toInt = some (-2 ^ 63) := rfl
  exact ⟨(evaluate_operator hx hone hquotient).1, (evaluate_operator hx (hliteral 10) hremainder).1,
    (evaluate_operator htwo (hliteral 63) hpower).1⟩

/-- The remainder 0 and the power 1 fit 64 bits, and are refused as overflows. -/
theorem needless_overflows :
    (Arithmetic.modulo.whole? Int64.minValue.toInt (-1 : Int64).toInt = some 0 ∧
      (evaluate leastLocals
        (.arithmetic .modulo (.variable "x") (.negate (.literal (.int 1))))).result =
          .error (.overflow (.arithmetic .modulo))) ∧
    (Arithmetic.power.whole? 1 4294967296 = some 1 ∧
      (evaluate .empty
        (.arithmetic .power (.literal (.int 1)) (.literal (.int 4294967296)))).result =
          .error (.overflow (.arithmetic .power))) := by
  refine ⟨⟨?_, rfl⟩, ?_, rfl⟩
  · rw [Arithmetic.whole?, if_neg (by decide), floor_minValue]
    rfl
  · simp [Arithmetic.whole?]

end Dataflow.Script
