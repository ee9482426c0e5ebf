import Dataflow.Proofs.Decimal.Integers
import Dataflow.Proofs.Script.Exact

/-!
# Comparisons of integers in scripts

Scripts compare integers as doubles, where an integer is rounded to 53 significant bits
(`comparand`).  So two integers are told apart only if they are rounded to different ones, and then
they lie as the integers do (`compare_comparand`); up to `2 ^ 53` in magnitude nothing is rounded.
`min` and `max` give up a choice only for what compares as better, so that they return the first of
the integers that compare as the least or the greatest (`FirstLeast`).
-/

namespace Dataflow.Script

/-! ## The order of integers -/

/-- The number as which an integer is compared. -/
def comparand (n : Int64) : ℤ := Decimal.rounded n.toInt

section Order

variable {a b : Int64} {op : Comparison}

lemma natAbs_toInt_lt (n : Int64) : n.toInt.natAbs < 2 ^ 64 := by
  have hlow := n.le_toInt
  have hhigh := n.toInt_lt
  omega

lemma denotes_comparand (n : Int64) : Decimal.Denotes (Decimal.ofInteger n.toInt) (comparand n) :=
  Decimal.denotes_ofInteger (natAbs_toInt_lt n)

/-- Integers are taken for equal if their comparands are, and lie as they do otherwise. -/
lemma compare_comparand (a b : Int64) :
    compare (comparand a) (comparand b) =
      if comparand a = comparand b then .eq else compare a.toInt b.toInt := by
  rcases lt_trichotomy (comparand a) (comparand b) with hlt | heq | hgt
  · rw [if_neg hlt.ne, Int.compare_eq_lt.2 hlt, Int.compare_eq_lt.2 (Decimal.lt_of_rounded_lt hlt)]
  · rw [if_pos heq, Int.compare_eq_eq.2 heq]
  · rw [if_neg hgt.ne', Int.compare_eq_gt.2 hgt,
      Int.compare_eq_gt.2 (Decimal.lt_of_rounded_lt hgt)]

lemma floatOrder?_ints (a b : Int64) :
    floatOrder? (Decimal.ofInteger a.toInt) (Decimal.ofInteger b.toInt) =
      some (compare (comparand a) (comparand b)) := by
  have ha := denotes_comparand a
  have hb := denotes_comparand b
  simp only [floatOrder?, ha.lt_iff hb, hb.lt_iff ha, ha.beq_iff hb]
  rcases lt_trichotomy (comparand a) (comparand b) with hlt | heq | hgt
  · rw [if_pos hlt, Int.compare_eq_lt.2 hlt]
  · rw [if_neg heq.not_lt, if_pos heq, Int.compare_eq_eq.2 heq]
  · rw [if_neg hgt.not_gt, if_neg hgt.ne', if_pos hgt, Int.compare_eq_gt.2 hgt]

lemma equals_ints (a b : Int64) :
    equals (.int a) (.int b) = (compare (comparand a) (comparand b)).isEq := by
  have hbeq := (denotes_comparand a).beq_iff (denotes_comparand b)
  change (Decimal.ofInteger a.toInt == Decimal.ofInteger b.toInt) = _
  rw [Bool.eq_iff_iff, hbeq, Ordering.isEq_iff_eq_eq, Int.compare_eq_eq]

lemma orderOf_ints (op : Comparison) (a b : Int64) :
    op.orderOf (.int a) (.int b) = .ok (compare (comparand a) (comparand b)) := by
  simp only [Comparison.orderOf, numberAt, Value.number?, bind, Except.bind, floatOrder?_ints,
    pure, Except.pure]

/-- A comparison of integers is one of their comparands. -/
lemma apply_comparison (op : Comparison) (a b : Int64) :
    op.apply (.int a) (.int b) =
      .ok (.bool (op.holds (compare (comparand a) (comparand b)))) := by
  have hordered :
      (do return .bool (op.holds (← op.orderOf (.int a) (.int b))) : Except Fault Value) =
        .ok (.bool (op.holds (compare (comparand a) (comparand b)))) := by
    rw [orderOf_ints]
    rfl
  cases op with
  | equal => exact congrArg (Except.ok ∘ Value.bool) (equals_ints a b)
  | notEqual =>
    refine congrArg (Except.ok ∘ Value.bool) ?_
    rw [equals_ints]
    cases compare (comparand a) (comparand b) <;> rfl
  | greater | greaterEqual | less | lessEqual => exact hordered

lemma result_compare {locals : Dict Value} {left right : Expr} {v w : Value}
    (hleft : (evaluate locals left).result = .ok v)
    (hright : (evaluate locals right).result = .ok w) :
    (evaluate locals (.compare op left right)).result = op.apply v w := by
  rw [evaluate]
  simp only [result_bind, hleft, hright]
  rfl

end Order

/-! ## Extremes -/

/-- The first item of those with the least size. -/
def FirstLeast (size : Int64 → ℤ) (ns : List Int64) (n : Int64) : Prop :=
  ∃ before after, ns = before ++ n :: after ∧ (∀ m ∈ before, size n < size m) ∧
    ∀ m ∈ after, size n ≤ size m

namespace FirstLeast

variable {size : Int64 → ℤ} {ns : List Int64} {n m : Int64}

lemma le (h : FirstLeast size ns n) (hm : m ∈ ns) : size n ≤ size m := by
  obtain ⟨before, after, rfl, hbefore, hafter⟩ := h
  rcases List.mem_append.1 hm with hm | hm
  · exact (hbefore m hm).le
  · rcases List.mem_cons.1 hm with rfl | hm
    · exact le_rfl
    · exact hafter m hm

/-- A greater item in front is passed over. -/
lemma cons (h : FirstLeast size ns n) (hlt : size n < size m) : FirstLeast size (m :: ns) n := by
  obtain ⟨before, after, rfl, hbefore, hafter⟩ := h
  exact ⟨m :: before, after, rfl, List.forall_mem_cons.2 ⟨hlt, hbefore⟩, hafter⟩

/-- An item that is not less than the one before it is passed over. -/
lemma insert {b : Int64} (h : FirstLeast size (b :: ns) n) (hle : size b ≤ size m) :
    FirstLeast size (b :: m :: ns) n := by
  have hb := h.le List.mem_cons_self
  obtain ⟨before, after, heq, hbefore, hafter⟩ := h
  cases before with
  | nil =>
    obtain ⟨rfl, rfl⟩ := List.cons.inj heq
    exact ⟨[], m :: ns, rfl, by simp, List.forall_mem_cons.2 ⟨hle, hafter⟩⟩
  | cons c before =>
    obtain ⟨rfl, rfl⟩ := List.cons.inj heq
    obtain ⟨hlt, hbefore⟩ := List.forall_mem_cons.1 hbefore
    exact ⟨b :: m :: before, after, rfl,
      List.forall_mem_cons.2 ⟨hlt, List.forall_mem_cons.2 ⟨hlt.trans_le hle, hbefore⟩⟩, hafter⟩

end FirstLeast

section Extremes

/-- The better of two integers, as doubles, is the one of less size. -/
def Ranks (better : Float → Float → Bool) (size : Int64 → ℤ) : Prop :=
  ∀ m n : Int64,
    better (Decimal.ofInteger m.toInt) (Decimal.ofInteger n.toInt) = decide (size m < size n)

variable {b : Builtin} {better : Float → Float → Bool} {size : Int64 → ℤ} {ns : List Int64}

/-- The search for the best integer keeps the first of the least so far. -/
lemma bestFrom_ints (hbetter : Ranks better size) (n : Int64) (ns : List Int64) :
    ∃ r, bestFrom b better (.int n) (Decimal.ofInteger n.toInt) (ns.map .int) = .ok (.int r) ∧
      FirstLeast size (n :: ns) r := by
  induction ns generalizing n with
  | nil => exact ⟨n, rfl, [], [], rfl, by simp, by simp⟩
  | cons m ns ih =>
    have hstep : bestFrom b better (.int n) (Decimal.ofInteger n.toInt) ((m :: ns).map .int) =
        if size m < size n then
          bestFrom b better (.int m) (Decimal.ofInteger m.toInt) (ns.map .int)
        else bestFrom b better (.int n) (Decimal.ofInteger n.toInt) (ns.map .int) := by
      have hsize := hbetter m n
      rw [List.map_cons, bestFrom]
      change (if better (Decimal.ofInteger m.toInt) (Decimal.ofInteger n.toInt) = true then _
        else _) = _
      simp only [hsize, decide_eq_true_eq]
    rw [hstep]
    split_ifs with hlt
    · obtain ⟨r, hr, hfirst⟩ := ih m
      exact ⟨r, hr, hfirst.cons ((hfirst.le List.mem_cons_self).trans_lt hlt)⟩
    · obtain ⟨r, hr, hfirst⟩ := ih n
      exact ⟨r, hr, hfirst.insert (not_lt.1 hlt)⟩

lemma bestOf_ints (hbetter : Ranks better size) (hne : ns ≠ []) :
    ∃ r, bestOf b better (ns.map .int) = .ok (.int r) ∧ FirstLeast size ns r := by
  cases ns with
  | nil => contradiction
  | cons n ns => exact bestFrom_ints hbetter n ns

/-- The ways in which integers are given to `min` and `max`: as a list, or one by one. -/
inductive Supplied (locals : Dict Value) (args : List Expr) (ns : List Int64) : Prop
  | listed (h : (evaluateItems locals args).result = .ok [.list (ns.map .int)])
  | apart (h : (evaluateItems locals args).result = .ok (ns.map .int)) (hmany : 1 < ns.length)

variable {locals : Dict Value} {args : List Expr}

lemma Supplied.candidates (h : Supplied locals args ns) (b : Builtin) :
    ∃ values, (evaluateItems locals args).result = .ok values ∧
      candidates b values = .ok (ns.map .int) := by
  cases h with
  | listed h => exact ⟨_, h, rfl⟩
  | apart h hmany =>
    match ns, hmany with
    | m :: n :: rest, _ => exact ⟨_, h, rfl⟩

/-- A function that searches for the best integer returns the first of the least. -/
lemma evaluate_extreme {name : String} (hname : Builtin.ofName? name = some b)
    (hsearch : ∀ values, b.result values = (candidates b values >>= bestOf b better))
    (hbetter : Ranks better size) (h : Supplied locals args ns) (hne : ns ≠ []) :
    ∃ n, (evaluate locals (.call name args)).result = .ok (.int n) ∧ FirstLeast size ns n := by
  obtain ⟨values, hvalues, hitems⟩ := h.candidates b
  have hresult : (evaluate locals (.call name args)).result = bestOf b better (ns.map .int) := by
    rw [evaluate, result_bind, hvalues]
    change (callNamed name values).result = _
    rw [callNamed, hname]
    change b.result values = _
    rw [hsearch, hitems]
    rfl
  rw [hresult]
  exact bestOf_ints hbetter hne

end Extremes

/-- **Scripts compare integers rounded to 53 bits.**  Integers that are rounded to one are taken for
equal, and all others lie as the integers do.  `min` and `max` give the first of those that compare
as the least and as the greatest.  Nothing is rounded up to `2 ^ 53` in magnitude. -/
theorem evaluate_comparison (locals : Dict Value) :
    (∀ (op : Comparison) {left right : Expr} {a b : Int64},
      (evaluate locals left).result = .ok (.int a) →
      (evaluate locals right).result = .ok (.int b) →
      (evaluate locals (.compare op left right)).result = .ok (.bool (op.holds
        (if comparand a = comparand b then .eq else compare a.toInt b.toInt)))) ∧
    (∀ {args : List Expr} {ns : List Int64}, Supplied locals args ns → ns ≠ [] →
      (∃ n, (evaluate locals (.call "min" args)).result = .ok (.int n) ∧
        FirstLeast comparand ns n) ∧
      ∃ n, (evaluate locals (.call "max" args)).result = .ok (.int n) ∧
        FirstLeast (fun n => -comparand n) ns n) ∧
    ∀ n : Int64, n.toInt.natAbs ≤ 2 ^ 53 → comparand n = n.toInt := by
  have hleast : Ranks (fun x y => x < y) comparand := fun m n => by
    simp only [(denotes_comparand m).lt_iff (denotes_comparand n)]
  have hgreatest : Ranks (fun x y => y < x) fun n => -comparand n := fun m n => by
    simp only [(denotes_comparand n).lt_iff (denotes_comparand m), neg_lt_neg_iff]
  refine ⟨fun op left right a b hleft hright => ?_, fun hargs hne => ⟨?_, ?_⟩,
    fun n hn => Decimal.rounded_of_le hn⟩
  · rw [result_compare hleft hright, apply_comparison, compare_comparand]
  · exact evaluate_extreme (b := .min) rfl (fun _ => rfl) hleast hargs hne
  · exact evaluate_extreme (b := .max) rfl (fun _ => rfl) hgreatest hargs hne

/-- Integers around `2 ^ 53` that are told apart, as operands and in a list. -/
theorem evaluate_comparison_edges :
    let low := Expr.literal (.int 9007199254740991)
    let high := Expr.literal (.int 9007199254740992)
    (evaluate .empty (.compare .less low high)).result = .ok (.bool true) ∧
      (∃ n, (evaluate .empty (.call "min" [.list [high, low]])).result = .ok (.int n) ∧
        FirstLeast comparand [9007199254740992, 9007199254740991] n) ∧
      comparand 9007199254740992 = 9007199254740992 := by
  intro low high
  have hlow : (evaluate .empty low).result = .ok (.int 9007199254740991) := rfl
  have hhigh : (evaluate .empty high).result = .ok (.int 9007199254740992) := rfl
  have hlist : Supplied .empty [.list [high, low]] [9007199254740992, 9007199254740991] :=
    .listed rfl
  obtain ⟨hcompare, hextremes, hsmall⟩ := evaluate_comparison .empty
  refine ⟨?_, (hextremes hlist (by simp)).1, hsmall _ (by decide)⟩
  rw [hcompare .less hlow hhigh, if_neg (by decide)]
  rfl

/-- The integer behind `2 ^ 53` is taken for `2 ^ 53`, and given as the least of the two. -/
theorem confused_integers :
    let low := Expr.literal (.int 9007199254740992)
    let high := Expr.literal (.int 9007199254740993)
    (evaluate .empty (.compare .equal high low)).result = .ok (.bool true) ∧
      (evaluate .empty (.compare .less low high)).result = .ok (.bool false) ∧
      (evaluate .empty (.call "min" [.list [high, low]])).result =
        .ok (.int 9007199254740993) :=
  ⟨rfl, rfl, rfl⟩

end Dataflow.Script
