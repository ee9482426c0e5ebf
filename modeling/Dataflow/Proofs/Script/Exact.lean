import Mathlib.Data.Rat.Floor
import Dataflow.Script.Evaluation

/-!
# Integers in scripts are exact

Scripts compute with integers of 64 bits.  An expression of integers never wraps around: what it
evaluates to, if it is an integer at all, is its value among the unbounded integers
(`evaluate_exact`).  A double comes in only with a negative exponent, and never leaves.  So each
operation is compared with the one on unbounded integers, where an expression has no value if it
divides by zero or has a negative exponent, and the comparison is carried along the expression.
-/

namespace Dataflow.Script

/-! ## Values among the unbounded integers -/

/-- An operation on unbounded integers.  A quotient is rounded down, and the remainder is what it
leaves over. -/
def Arithmetic.whole? (op : Arithmetic) (a b : ℤ) : Option ℤ :=
  match op with
  | add => some (a + b)
  | subtract => some (a - b)
  | multiply => some (a * b)
  | divide => none
  | floorDivide => if b = 0 then none else some ⌊(a / b : ℚ)⌋
  | modulo => if b = 0 then none else some (a - b * ⌊(a / b : ℚ)⌋)
  | power => if b < 0 then none else some (a ^ b.toNat)

/-- The integer that a value is. -/
def integer? : Value → Option ℤ
  | .int n => some n.toInt
  | _ => none

mutual

/-- The value of an expression among the unbounded integers. -/
def wholeValue (locals : Dict Value) : Expr → Option ℤ
  | .literal v => integer? v
  | .variable name => (locals.find? name).bind integer?
  | .arithmetic op left right => do
    op.whole? (← wholeValue locals left) (← wholeValue locals right)
  | .negate e => do return -(← wholeValue locals e)
  | .call "abs" [e] => do return |← wholeValue locals e|
  | .call "sum" [.list items] => do return (← wholeValues locals items).sum
  | _ => none

/-- The values of a list of expressions among the unbounded integers. -/
def wholeValues (locals : Dict Value) : List Expr → Option (List ℤ)
  | [] => some []
  | e :: rest => do return (← wholeValue locals e) :: (← wholeValues locals rest)

end

/-- An expression of integers: literals, variables that hold integers, the operations, opposites,
magnitudes, and sums of listed items. -/
inductive IsWhole (locals : Dict Value) : Expr → Prop
  | literal (n : Int64) : IsWhole locals (.literal (.int n))
  | named {name : String} {n : Int64} (h : locals.find? name = some (.int n)) :
    IsWhole locals (.variable name)
  | arithmetic (op : Arithmetic) {left right : Expr} (hleft : IsWhole locals left)
    (hright : IsWhole locals right) : IsWhole locals (.arithmetic op left right)
  | negate {e : Expr} (he : IsWhole locals e) : IsWhole locals (.negate e)
  | abs {e : Expr} (he : IsWhole locals e) : IsWhole locals (.call "abs" [e])
  | sum {items : List Expr} (h : ∀ e ∈ items, IsWhole locals e) :
    IsWhole locals (.call "sum" [.list items])

lemma fitsInt_iff {n : ℤ} : Value.fitsInt n = true ↔ -2 ^ 63 ≤ n ∧ n < 2 ^ 63 := by
  simp only [Value.fitsInt, Bool.and_eq_true, decide_eq_true_eq]
  rfl

/-! ## Division of machine integers -/

/-- The floor of a quotient is told by the remainder that it leaves. -/
lemma floor_eq_of_remainder {a b q r : ℤ} (h : a = b * q + r)
    (hr : 0 ≤ r ∧ r < b ∨ b < r ∧ r ≤ 0) : ⌊(a / b : ℚ)⌋ = q := by
  have hb : b ≠ 0 := by omega
  have hb' : (b : ℚ) ≠ 0 := by exact_mod_cast hb
  have hquotient : (a / b : ℚ) = q + r / b := by
    rw [h]
    push_cast
    field_simp
  have hzero : ⌊(r / b : ℚ)⌋ = 0 := by
    rw [Int.floor_eq_zero_iff, Set.mem_Ico]
    rcases hr with ⟨hr, hlt⟩ | ⟨hlt, hr⟩
    · have hpos : (0 : ℚ) < b := by exact_mod_cast hr.trans_lt hlt
      exact ⟨div_nonneg (by exact_mod_cast hr) hpos.le, (div_lt_one hpos).2 (by exact_mod_cast hlt)⟩
    · have hneg : (b : ℚ) < 0 := by exact_mod_cast hlt.trans_le hr
      exact ⟨div_nonneg_of_nonpos (by exact_mod_cast hr) hneg.le,
        (div_lt_one_of_neg hneg).2 (by exact_mod_cast hlt)⟩
  rw [hquotient, Int.floor_intCast_add, hzero, add_zero]

/-- What the machine leaves over is smaller than the divisor and has the sign of the dividend. -/
lemma tmod_bounds (a : ℤ) {b : ℤ} (hb : b ≠ 0) :
    (a.tmod b).natAbs < b.natAbs ∧ (0 ≤ a → 0 ≤ a.tmod b) ∧ (a < 0 → a.tmod b ≤ 0) := by
  refine ⟨?_, Int.tmod_nonneg b, fun ha => ?_⟩
  · rw [Int.natAbs_tmod]
    exact Nat.mod_lt _ (by omega)
  · have hneg := Int.tmod_nonneg b (by omega : 0 ≤ -a)
    rw [Int.neg_tmod] at hneg
    omega

/-- Where the signs differ and something is left over, the floor is one less than the truncated
quotient. -/
lemma floor_eq_tdiv_sub_one {a b : ℤ} (hb : b ≠ 0) (hr : a.tmod b ≠ 0) (hsign : a < 0 ↔ 0 < b) :
    ⌊(a / b : ℚ)⌋ = a.tdiv b - 1 := by
  obtain ⟨hlt, hpos, hneg⟩ := tmod_bounds a hb
  have hsplit := Int.mul_tdiv_add_tmod a b
  refine floor_eq_of_remainder (r := a.tmod b + b) (by rw [mul_sub]; omega) ?_
  omega

/-- Otherwise it is the truncated quotient. -/
lemma floor_eq_tdiv {a b : ℤ} (hb : b ≠ 0) (h : a.tmod b = 0 ∨ (a < 0 ↔ b < 0)) :
    ⌊(a / b : ℚ)⌋ = a.tdiv b := by
  obtain ⟨hlt, hpos, hneg⟩ := tmod_bounds a hb
  refine floor_eq_of_remainder (Int.mul_tdiv_add_tmod a b).symm ?_
  omega

section Division

variable {a b q r : Int64}

lemma isDivisible_iff : isDivisible a b = true ↔ b ≠ 0 ∧ (a = Int64.minValue → b ≠ -1) := by
  simp [isDivisible, imp_iff_not_or]

lemma toInt_ne_zero (hb : b ≠ 0) : b.toInt ≠ 0 := by
  intro h
  exact hb (Int64.toInt_inj.1 (h.trans Int64.toInt_zero.symm))

lemma signsDiffer_iff : signsDiffer a b = true ↔ ¬ (a.toInt < 0 ↔ b.toInt < 0) := by
  simp [signsDiffer, Int64.lt_iff_toInt_lt]

lemma lt_zero_iff : a < 0 ↔ a.toInt < 0 := by
  rw [Int64.lt_iff_toInt_lt, Int64.toInt_zero]

lemma mod_ne_zero_iff : a % b ≠ 0 ↔ a.toInt.tmod b.toInt ≠ 0 := by
  rw [← Int64.toInt_mod, Ne, Ne, ← Int64.toInt_inj, Int64.toInt_zero]

/-- A sum that fits 64 bits does not wrap around. -/
lemma toInt_add_eq (hlow : -2 ^ 63 ≤ a.toInt + b.toInt) (hhigh : a.toInt + b.toInt < 2 ^ 63) :
    (a + b).toInt = a.toInt + b.toInt := by
  rw [Int64.toInt_add]
  exact Int.bmod_eq_of_le (by omega) (by omega)

lemma toInt_sub_eq (hlow : -2 ^ 63 ≤ a.toInt - b.toInt) (hhigh : a.toInt - b.toInt < 2 ^ 63) :
    (a - b).toInt = a.toInt - b.toInt := by
  rw [Int64.toInt_sub]
  exact Int.bmod_eq_of_le (by omega) (by omega)

/-- The quotient of the machine is the truncated one. -/
lemma toInt_quotient (h : isDivisible a b = true) : (a / b).toInt = a.toInt.tdiv b.toInt := by
  obtain ⟨-, hmin⟩ := isDivisible_iff.1 h
  by_cases ha : a = Int64.minValue
  · exact Int64.toInt_div_of_ne_right a b (hmin ha)
  · exact Int64.toInt_div_of_ne_left a b ha

/-- The corrected quotient of the machine is the floor. -/
lemma floorQuotient?_eq_some (h : floorQuotient? a b = some q) :
    q.toInt = ⌊(a.toInt / b.toInt : ℚ)⌋ := by
  unfold floorQuotient? at h
  split at h
  · rename_i hdivisible
    have hb := toInt_ne_zero (isDivisible_iff.1 hdivisible).1
    have hquotient := toInt_quotient hdivisible
    simp only [mod_ne_zero_iff, signsDiffer_iff] at h
    split at h
    · rename_i hcorrect
      split at h
      · rename_i hfits
        obtain rfl := Option.some.inj h
        obtain ⟨hlow, hhigh⟩ := fitsInt_iff.1 hfits
        rw [floor_eq_tdiv_sub_one hb hcorrect.1 (by omega), ← hquotient]
        exact toInt_sub_eq hlow hhigh
      · simp at h
    · rename_i hcorrect
      obtain rfl := Option.some.inj h
      rw [hquotient, floor_eq_tdiv hb (by tauto)]
  · simp at h

/-- The corrected remainder of the machine is what the floor leaves over. -/
lemma floorRemainder?_eq_some (h : floorRemainder? a b = some r) :
    r.toInt = a.toInt - b.toInt * ⌊(a.toInt / b.toInt : ℚ)⌋ := by
  unfold floorRemainder? at h
  split at h
  · rename_i hdivisible
    have hb := toInt_ne_zero (isDivisible_iff.1 hdivisible).1
    have hsplit := Int.mul_tdiv_add_tmod a.toInt b.toInt
    obtain ⟨hlt, hpos, hneg⟩ := tmod_bounds a.toInt hb
    simp only [mod_ne_zero_iff, signsDiffer_iff, Int64.toInt_mod] at h
    split at h
    · rename_i hcorrect
      obtain rfl := Option.some.inj h
      have hlow := b.le_toInt
      have hhigh := b.toInt_lt
      rw [floor_eq_tdiv_sub_one hb hcorrect.1 (by omega), mul_sub, mul_one, toInt_add_eq]
      all_goals rw [Int64.toInt_mod]; omega
    · rename_i hcorrect
      obtain rfl := Option.some.inj h
      rw [Int64.toInt_mod, floor_eq_tdiv hb (by omega)]
      omega
  · simp at h

end Division

/-! ## Powers -/

/-- A power of anything but 0, 1 and -1 leaves 64 bits at the exponent 64. -/
lemma not_fitsInt_pow {a : ℤ} {n : ℕ} (ha : 2 ≤ a.natAbs) (hn : 64 ≤ n) :
    Value.fitsInt (a ^ n) = false := by
  have hlarge : 2 ^ 64 ≤ (a ^ n).natAbs := by
    rw [Int.natAbs_pow]
    calc 2 ^ 64 ≤ 2 ^ n := Nat.pow_le_pow_right (by omega) hn
      _ ≤ a.natAbs ^ n := Nat.pow_le_pow_left ha n
  rw [← Bool.not_eq_true, fitsInt_iff]
  omega

/-- A power that fits 64 bits is computed with a small exponent. -/
lemma integerPower_eq {a : ℤ} {n : ℕ} (h : Value.fitsInt (integerPower a n) = true) :
    integerPower a n = a ^ n := by
  unfold integerPower at h ⊢
  by_cases hn : n < 64
  · rw [if_pos hn]
    rfl
  · rw [if_neg hn] at h ⊢
    have hsmall : a.natAbs < 2 := by
      by_contra hlarge
      have hno := not_fitsInt_pow (a := a) (n := 64 + n % 2) (by omega) (by omega)
      exact absurd (h.symm.trans hno) (by simp)
    -- the powers that are left depend on the parity of the exponent only
    have hsplit : n = 2 * (n / 2) + n % 2 := (Nat.div_add_mod n 2).symm
    obtain rfl | rfl | rfl : a = 0 ∨ a = 1 ∨ a = -1 := by omega
    · show (0 : ℤ) ^ (64 + n % 2) = 0 ^ n
      rw [zero_pow (by omega), zero_pow (by omega)]
    · show (1 : ℤ) ^ (64 + n % 2) = 1 ^ n
      rw [one_pow, one_pow]
    · show (-1 : ℤ) ^ (64 + n % 2) = (-1) ^ n
      rw [hsplit, pow_add, pow_add (-1) (2 * (n / 2)), pow_mul, neg_one_sq, one_pow, Nat.mul_add_mod,
        Nat.mod_mod]
      rfl

/-! ## Faithful results -/

/-- A number as an unbounded integer: an integer is itself, and a double is none. -/
inductive Stands : Option ℤ → Value → Prop
  | int (n : Int64) : Stands (some n.toInt) (.int n)
  | float (x : Float) : Stands none (.float x)

/-- The numbers of a list as unbounded integers, if all of them are. -/
inductive StandAll : Option (List ℤ) → List Value → Prop
  | nil : StandAll (some []) []
  | cons {x : Option ℤ} {xs : Option (List ℤ)} {v : Value} {vs : List Value} (hx : Stands x v)
    (hxs : StandAll xs vs) : StandAll (do return (← x) :: (← xs)) (v :: vs)

/-- A result that is true to a value among the unbounded integers.  It may always be an overflow;
it is a division by zero only where there is no value. -/
inductive Faithful {α β : Type} (stands : Option α → β → Prop) :
    Option α → Except Fault β → Prop
  | ok {x : Option α} {b : β} (h : stands x b) : Faithful stands x (.ok b)
  | divisionByZero : Faithful stands none (.error .divisionByZero)
  | overflow (x : Option α) (place : Place) : Faithful stands x (.error (.overflow place))

/-- What comes behind a faithful result is compared for the values that the result stands for. -/
lemma Faithful.bind {α β γ δ : Type} {stands : Option α → β → Prop}
    {stands' : Option γ → δ → Prop} {x : Option α} {r : Except Fault β} {f : α → Option γ}
    {g : β → Except Fault δ} (h : Faithful stands x r)
    (hnext : ∀ x b, stands x b → Faithful stands' (x >>= f) (g b)) :
    Faithful stands' (x >>= f) (r >>= g) := by
  cases h with
  | ok hb => exact hnext _ _ hb
  | divisionByZero => exact .divisionByZero
  | overflow => exact .overflow _ _

lemma Faithful.bind₂ {α β γ δ ε ζ : Type} {stands : Option α → β → Prop}
    {stands' : Option γ → δ → Prop} {stands'' : Option ε → ζ → Prop} {x : Option α} {y : Option γ}
    {r : Except Fault β} {s : Except Fault δ} {f : α → γ → Option ε} {g : β → δ → Except Fault ζ}
    (hr : Faithful stands x r) (hs : Faithful stands' y s)
    (hnext : ∀ x b y d, stands x b → stands' y d →
      Faithful stands'' (do f (← x) (← y)) (g b d)) :
    Faithful stands'' (do f (← x) (← y)) (do g (← r) (← s)) := by
  have hswap : ∀ (x : Option α) (y : Option γ),
      (do f (← x) (← y) : Option ε) = y >>= fun c => x >>= fun a => f a c :=
    fun x y => Option.bind_comm x y
  refine hr.bind fun x b hb => ?_
  rw [hswap]
  refine hs.bind fun y d hd => ?_
  rw [← hswap]
  exact hnext x b y d hb hd

lemma faithful_exact (place : Place) (n : ℤ) : Faithful Stands (some n) (exact place n) := by
  unfold exact
  split
  · rename_i hfits
    obtain ⟨hlow, hhigh⟩ := fitsInt_iff.1 hfits
    have hn : (Int64.ofInt n).toInt = n := Int64.toInt_ofInt_of_le hlow hhigh
    have hstands := Stands.int (Int64.ofInt n)
    rw [hn] at hstands
    exact .ok hstands
  · exact .overflow _ _

lemma faithful_fitted {x : Option ℤ} {r : Option Int64} (place : Place)
    (h : ∀ n, r = some n → x = some n.toInt) : Faithful Stands x (fitted place r) := by
  cases r with
  | none => exact .overflow _ _
  | some n =>
    rw [h n rfl]
    exact .ok (.int n)

/-- Two numbers are combined once the divisor has been looked at. -/
lemma apply_numbers (op : Arithmetic) {x y : Option ℤ} {v w : Value}
    (hx : Stands x v) (hy : Stands y w) :
    op.apply v w =
      if op.divides && isZero w then .error .divisionByZero else op.ofNumbers v w := by
  cases hx <;> cases hy <;> cases op <;> rfl

/-- There is no value to a division by zero. -/
lemma value_of_isZero {op : Arithmetic} {x y : Option ℤ} {w : Value} (hy : Stands y w)
    (h : (op.divides && isZero w) = true) : (do op.whole? (← x) (← y) : Option ℤ) = none := by
  obtain ⟨hdivides, hzero⟩ := Bool.and_eq_true_iff.1 h
  cases hy with
  | int b =>
    obtain rfl : b = 0 := by simpa [isZero] using hzero
    cases x <;> cases op <;> first | rfl | simp [Arithmetic.divides] at hdivides
  | float q => cases x <;> rfl

lemma faithful_power (place : Place) (a : ℤ) (n : ℕ) :
    Faithful Stands (some (a ^ n)) (exact place (integerPower a n)) := by
  by_cases hfits : Value.fitsInt (integerPower a n) = true
  · rw [← integerPower_eq hfits]
    exact faithful_exact place _
  · rw [exact, if_neg hfits]
    exact .overflow _ _

lemma faithful_ofInts {op : Arithmetic} {a b : Int64}
    (hzero : ¬ (op.divides && isZero (.int b)) = true) :
    Faithful Stands (op.whole? a.toInt b.toInt) (op.ofNumbers (.int a) (.int b)) := by
  have hb : op.divides = true → b.toInt ≠ 0 := by
    intro hdivides
    refine toInt_ne_zero fun hb => hzero ?_
    simp [hdivides, hb, isZero]
  cases op with
  | add => exact faithful_exact _ (a.toInt + b.toInt)
  | subtract => exact faithful_exact _ (a.toInt - b.toInt)
  | multiply => exact faithful_exact _ (a.toInt * b.toInt)
  | divide => exact .ok (.float _)
  | floorDivide =>
    refine faithful_fitted _ fun q hq => ?_
    rw [Arithmetic.whole?, if_neg (hb rfl), floorQuotient?_eq_some hq]
  | modulo =>
    refine faithful_fitted _ fun r hr => ?_
    rw [Arithmetic.whole?, if_neg (hb rfl), floorRemainder?_eq_some hr]
  | power =>
    simp only [Arithmetic.whole?, Arithmetic.ofNumbers, Arithmetic.ofInts?, lt_zero_iff]
    split
    · exact .ok (.float _)
    · split
      · exact faithful_power _ _ _
      · exact .overflow _ _

lemma faithful_apply (op : Arithmetic) {x y : Option ℤ} {v w : Value}
    (hx : Stands x v) (hy : Stands y w) :
    Faithful Stands (do op.whole? (← x) (← y)) (op.apply v w) := by
  rw [apply_numbers op hx hy]
  split
  · rename_i hzero
    rw [value_of_isZero hy hzero]
    exact .divisionByZero
  · rename_i hzero
    cases hx with
    | int a =>
      cases hy with
      | int b => exact faithful_ofInts hzero
      | float q => exact .ok (.float _)
    | float p => cases hy <;> exact .ok (.float _)

lemma faithful_negated {x : Option ℤ} {v : Value} (hx : Stands x v) :
    Faithful Stands (do return -(← x)) (negated v) := by
  cases hx with
  | int n => exact faithful_exact .negation (-n.toInt)
  | float x => exact .ok (.float (-x))

lemma faithful_absolute {x : Option ℤ} {v : Value} (hx : Stands x v) :
    Faithful Stands (do return |← x|) (absolute v) := by
  cases hx with
  | int n =>
    have hvalue : (do return |← some n.toInt| : Option ℤ) = some (n.toInt.natAbs : ℤ) := by
      rw [Int.natCast_natAbs]
      rfl
    rw [hvalue]
    exact faithful_exact _ _
  | float x => exact .ok (.float x.abs)

lemma faithful_addTo {x y : Option ℤ} {v w : Value} (hx : Stands x v) (hy : Stands y w) :
    Faithful Stands (do return (← x) + (← y)) (addTo v w) := by
  cases hx with
  | int a =>
    cases hy with
    | int b => exact faithful_exact (.builtin .sum) (a.toInt + b.toInt)
    | float y => exact .ok (.float _)
  | float x =>
    cases hy with
    | int b => exact .ok (.float _)
    | float y => exact .ok (.float _)

lemma faithful_total {t : Option ℤ} {xs : Option (List ℤ)} {v : Value} {vs : List Value}
    (ht : Stands t v) (hxs : StandAll xs vs) :
    Faithful Stands (do return (← t) + (← xs).sum) (vs.foldlM addTo v) := by
  induction hxs generalizing t v with
  | nil =>
    have hsame : (do return (← t) + (← some []).sum : Option ℤ) = t := by
      cases t <;> simp
    rw [hsame]
    exact .ok ht
  | @cons x xs w vs hx hxs ih =>
    rw [List.foldlM_cons]
    have hsplit : (do return (← t) + (← (do return (← x) :: (← xs))).sum : Option ℤ) =
        (do return (← t) + (← x) : Option ℤ) >>= fun s => do return s + (← xs).sum := by
      cases t <;> cases x <;> cases xs <;> simp [add_assoc]
    rw [hsplit]
    exact (faithful_addTo ht hx).bind fun s u hs => ih hs

/-! ## Expressions -/

lemma result_bind {α β : Type} (c : Computed α) (f : α → Computed β) :
    (c >>= f).result = c.result >>= fun a => (f a).result := by
  obtain ⟨printed, result⟩ := c
  cases result <;> rfl

lemma faithful_evaluateItems {locals : Dict Value} {items : List Expr}
    (h : ∀ e ∈ items, Faithful Stands (wholeValue locals e) (evaluate locals e).result) :
    Faithful StandAll (wholeValues locals items) (evaluateItems locals items).result := by
  induction items with
  | nil => exact .ok .nil
  | cons e rest ih =>
    have hrest := ih fun d hd => h d (List.mem_cons_of_mem _ hd)
    rw [wholeValues, evaluateItems, result_bind]
    simp only [result_bind]
    exact (h e List.mem_cons_self).bind₂ hrest fun x v xs vs hx hxs => .ok (.cons hx hxs)

lemma result_abs (locals : Dict Value) (e : Expr) :
    (evaluate locals (.call "abs" [e])).result = (evaluate locals e).result >>= absolute := by
  rw [evaluate, evaluateItems, evaluateItems]
  simp only [result_bind]
  cases (evaluate locals e).result <;> rfl

lemma result_sum (locals : Dict Value) (items : List Expr) :
    (evaluate locals (.call "sum" [.list items])).result =
      (evaluateItems locals items).result >>= fun vs => vs.foldlM addTo (.int 0) := by
  rw [evaluate, evaluateItems, evaluateItems, evaluate]
  simp only [result_bind]
  cases (evaluateItems locals items).result <;> rfl

/-- The result of an expression of integers is true to its value. -/
lemma faithful_evaluate {locals : Dict Value} {e : Expr} (h : IsWhole locals e) :
    Faithful Stands (wholeValue locals e) (evaluate locals e).result := by
  induction h with
  | literal n =>
    rw [wholeValue, evaluate]
    exact .ok (.int n)
  | @named name n h =>
    rw [wholeValue, evaluate, lookup, h]
    exact .ok (.int n)
  | @arithmetic op left right _ _ hleft hright =>
    rw [wholeValue, evaluate, result_bind]
    simp only [result_bind]
    exact hleft.bind₂ hright fun x v y w hx hy => faithful_apply op hx hy
  | negate _ he =>
    rw [wholeValue, evaluate, result_bind]
    exact he.bind fun x v hx => faithful_negated hx
  | abs _ he =>
    rw [wholeValue, result_abs]
    exact he.bind fun x v hx => faithful_absolute hx
  | sum _ hitems =>
    rw [wholeValue, result_sum]
    refine (faithful_evaluateItems hitems).bind fun xs vs hxs => ?_
    have htotal := faithful_total (.int 0) hxs
    simpa using htotal

/-- **Integers in scripts never wrap around**: an expression of integers that evaluates to an
integer evaluates to its value among the unbounded integers, where quotients are rounded down.  And
an expression that has a value there evaluates to it, or is refused for an overflow. -/
theorem evaluate_exact {locals : Dict Value} {e : Expr} (h : IsWhole locals e) :
    (∀ r, (evaluate locals e).result = .ok (.int r) → wholeValue locals e = some r.toInt) ∧
    ∀ n, wholeValue locals e = some n →
      (∃ r, (evaluate locals e).result = .ok (.int r) ∧ r.toInt = n) ∨
        ∃ place, (evaluate locals e).result = .error (.overflow place) := by
  have hfaithful := faithful_evaluate h
  generalize (evaluate locals e).result = result at hfaithful
  generalize wholeValue locals e = value at hfaithful
  cases hfaithful with
  | ok hstands =>
    cases hstands with
    | int r =>
      refine ⟨fun s hs => ?_, fun n hn => .inl ⟨r, rfl, Option.some.inj hn⟩⟩
      simp only [Except.ok.injEq, Value.int.injEq] at hs
      rw [hs]
    | float x => simp
  | divisionByZero => simp
  | overflow value place => exact ⟨by simp, fun n _ => .inr ⟨place, rfl⟩⟩

/-- Sums near the ends of 64 bits, of `x` rounded down to a third, its remainder for a negative
divisor, the magnitude of the number behind it, and a power. -/
def edges : Expr :=
  .call "sum" [.list [
    .arithmetic .floorDivide (.variable "x") (.literal (.int 3)),
    .arithmetic .modulo (.variable "x") (.literal (.int (-10))),
    .call "abs" [.arithmetic .add (.variable "x") (.literal (.int 1))],
    .arithmetic .power (.literal (.int 2)) (.literal (.int 61))]]

/-- The variable `x` with the least integer. -/
def leastLocals : Dict Value := .ofList [("x", .int Int64.minValue)]

theorem evaluate_exact_edges :
    IsWhole leastLocals edges ∧
      (evaluate leastLocals edges).result = .ok (.int 8454757700450211148) ∧
      wholeValue leastLocals edges = some 8454757700450211148 ∧
      wholeValue leastLocals (.negate (.variable "x")) = some 9223372036854775808 ∧
      ∃ place, (evaluate leastLocals (.negate (.variable "x"))).result = .error (.overflow place) := by
  have hx : IsWhole leastLocals (.variable "x") := .named (n := Int64.minValue) rfl
  have hedges : IsWhole leastLocals edges := by
    refine .sum fun e he => ?_
    simp only [List.mem_cons, List.not_mem_nil, or_false] at he
    rcases he with rfl | rfl | rfl | rfl
    · exact .arithmetic _ hx (.literal 3)
    · exact .arithmetic _ hx (.literal (-10))
    · exact .abs (.arithmetic _ hx (.literal 1))
    · exact .arithmetic _ (.literal 2) (.literal 61)
  have hresult : (evaluate leastLocals edges).result = .ok (.int 8454757700450211148) := rfl
  have hvalue : wholeValue leastLocals (.negate (.variable "x")) = some 9223372036854775808 := rfl
  refine ⟨hedges, hresult, (evaluate_exact hedges).1 _ hresult, hvalue, ?_⟩
  rcases (evaluate_exact (.negate hx)).2 _ hvalue with ⟨r, -, hr⟩ | hoverflow
  · have hbound := r.toInt_lt
    omega
  · exact hoverflow

end Dataflow.Script
