import Dataflow.Proofs.Script.Comparison
import Dataflow.Proofs.Value.Sameness

/-!
# Equality of values in scripts

Two numbers are equal in a script if they are equal as doubles, and two values of any other kind if
they are the same.  Sameness tells an integer from every double and from every other integer
(`Disparate`).  So the equality of containers asks more of numbers than their own equality does:
`1 == 1.0` holds, and `[1] == [1.0]` does not (`parted_numbers`).  With that exception containers
are equal if what they hold is equal place by place, at any depth (`evaluate_equality`).
-/

namespace Dataflow.Script

open Value (Facing same_list_iff same_map_iff)

/-! ## Numbers inside of containers -/

/-- Numbers that are told apart inside of containers, though they may be equal as doubles: an
integer and a double, or two different integers. -/
def Disparate : Value → Value → Prop
  | .int a, .int b => a ≠ b
  | .int _, .float _ | .float _, .int _ => True
  | _, _ => False

section Equals

variable {v w : Value}

lemma equals_of_number? {x y : Float} (hv : v.number? = some x) (hw : w.number? = some y) :
    equals v w = (x == y) := by
  simp only [equals, hv, hw]

lemma Disparate.numbers (h : Disparate v w) :
    ∃ x y, v.number? = some x ∧ w.number? = some y := by
  unfold Disparate at h
  split at h
  · exact ⟨_, _, rfl, rfl⟩
  · exact ⟨_, _, rfl, rfl⟩
  · exact ⟨_, _, rfl, rfl⟩
  · exact h.elim

/-- Values that are the same are equal, and equal values are the same but for disparate numbers. -/
lemma same_iff_equals : v.same w = true ↔ equals v w = true ∧ ¬ Disparate v w := by
  cases v with
  | int a =>
    cases w with
    | int b =>
      rw [equals_ints, Ordering.isEq_iff_eq_eq, Int.compare_eq_eq]
      simp only [Value.same, beq_iff_eq, Disparate, not_not]
      exact ⟨fun h => ⟨congrArg comparand h, h⟩, fun h => h.2⟩
    | _ => simp [Value.same, equals, Value.number?, Disparate]
  | float x => cases w <;> simp [Value.same, equals, Value.number?, Disparate]
  | null | bool _ | text _ | list _ | map _ => simp [equals, Value.number?, Disparate]

lemma equals_list (xs ys : List Value) : equals (.list xs) (.list ys) = true ↔
    xs.length = ys.length ∧ ∀ (i : ℕ) (hx : i < xs.length) (hy : i < ys.length),
      equals xs[i] ys[i] = true ∧ ¬ Disparate xs[i] ys[i] := by
  change (Value.list xs).same (.list ys) = true ↔ _
  rw [same_list_iff]
  simp only [same_iff_equals]

lemma equals_map (fields fields' : Dict Value) : equals (.map fields) (.map fields') = true ↔
    (∀ key, fields.contains key = fields'.contains key) ∧
      ∀ key a b, fields.find? key = some a → fields'.find? key = some b →
        equals a b = true ∧ ¬ Disparate a b := by
  change (Value.map fields).same (.map fields') = true ↔ _
  rw [same_map_iff]
  simp only [same_iff_equals]

end Equals

/-! ## Equality at any depth -/

/-- Values that agree at every place: numbers as doubles, lists item by item, and mappings with
the same keys value by value. -/
inductive Alike : Value → Value → Prop
  | null : Alike .null .null
  | bool (b : Bool) : Alike (.bool b) (.bool b)
  | text (s : String) : Alike (.text s) (.text s)
  | number {v w : Value} {x y : Float} (hv : v.number? = some x) (hw : w.number? = some y)
    (h : (x == y) = true) : Alike v w
  | list {xs ys : List Value} (hlength : xs.length = ys.length)
    (h : ∀ (i : ℕ) (hx : i < xs.length) (hy : i < ys.length), Alike xs[i] ys[i]) :
    Alike (.list xs) (.list ys)
  | map {fields fields' : Dict Value}
    (hkeys : ∀ key, fields.contains key = fields'.contains key)
    (h : ∀ key a b, fields.find? key = some a → fields'.find? key = some b → Alike a b) :
    Alike (.map fields) (.map fields')

/-- Values that are the same agree at every place. -/
lemma Alike.of_same {v w : Value} (h : v.same w = true) : Alike v w := by
  match v, w with
  | .null, .null => exact .null
  | .bool a, .bool b =>
    obtain rfl : a = b := by simpa [Value.same] using h
    exact .bool a
  | .text a, .text b =>
    obtain rfl : a = b := by simpa [Value.same] using h
    exact .text a
  | .int a, .int b => exact .number rfl rfl (same_iff_equals.1 h).1
  | .float x, .float y => exact .number rfl rfl h
  | .list xs, .list ys =>
    obtain ⟨hlength, hitems⟩ := same_list_iff.1 h
    exact .list hlength fun i hx hy => of_same (hitems i hx hy)
  | .map fields, .map fields' =>
    obtain ⟨hkeys, hvalues⟩ := same_map_iff.1 h
    exact .map hkeys fun key a b ha hb => of_same (hvalues key a b ha hb)
-- what stands inside of a container is smaller
termination_by SizeOf.sizeOf v
decreasing_by
  · exact (Facing.item i hx hy).sizeOf_lt
  · exact (Facing.field key ha hb).sizeOf_lt

section Alike

variable {v w : Value}

/-- Values that agree at every place are the same, if no disparate numbers face each other. -/
lemma Alike.same (h : Alike v w) (htop : ¬ Disparate v w)
    (hinside : ∀ a b, Facing v w a b → ¬ Disparate a b) : v.same w = true := by
  induction h with
  | null => rfl
  | bool b | text s => simp [Value.same]
  | number hv hw h => exact same_iff_equals.2 ⟨(equals_of_number? hv hw).trans h, htop⟩
  | list hlength h ih =>
    refine same_list_iff.2 ⟨hlength, fun i hx hy => ih i hx hy ?_ fun a b hfacing => ?_⟩
    · exact hinside _ _ (.item i hx hy)
    · exact hinside a b (.within (.item i hx hy) hfacing)
  | map hkeys h ih =>
    refine same_map_iff.2 ⟨hkeys, fun key a b ha hb => ih key a b ha hb ?_ fun a' b' hfacing => ?_⟩
    · exact hinside a b (.field key ha hb)
    · exact hinside a' b' (.within (.field key ha hb) hfacing)

lemma Alike.of_equals (h : equals v w = true) : Alike v w := by
  by_cases hdisparate : Disparate v w
  · obtain ⟨x, y, hv, hw⟩ := hdisparate.numbers
    exact .number hv hw ((equals_of_number? hv hw).symm.trans h)
  · exact .of_same (same_iff_equals.2 ⟨h, hdisparate⟩)

/-- Only containers have something inside. -/
lemma not_disparate_of_facing {a b : Value} (h : Facing v w a b) : ¬ Disparate v w := by
  induction h with
  | item | field => exact id
  | within h h' ih ih' => exact ih

/-- Two values are equal if they agree at every place, and inside of them no disparate numbers
face each other. -/
lemma equals_iff_alike : equals v w = true ↔
    Alike v w ∧ ∀ a b, Facing v w a b → ¬ Disparate a b := by
  constructor
  · intro h
    refine ⟨.of_equals h, fun a b hfacing => ?_⟩
    have hsame := same_iff_equals.2 ⟨h, not_disparate_of_facing hfacing⟩
    exact (same_iff_equals.1 (hfacing.same hsame)).2
  · rintro ⟨halike, hinside⟩
    by_cases hdisparate : Disparate v w
    · -- numbers are compared as doubles at the top
      obtain ⟨x, y, hv, hw⟩ := hdisparate.numbers
      cases halike with
      | number hv hw h => exact (equals_of_number? hv hw).trans h
      | _ => simp [Value.number?] at hv
    · exact (same_iff_equals.1 (halike.same hdisparate hinside)).1

end Alike

/-- **The equality of containers is that of what they hold, except for disparate numbers.**  The
answer of `==` depends on the two values only, and `!=` gives the opposite.  Two lists are equal if
they have one length and their items are equal place by place, and two mappings if they have the
same keys and the values under each are equal, where an integer and a double, or two different
integers, are never taken for equal.  So two values are equal if they agree at every place, at any
depth, and no such numbers face each other inside of them. -/
theorem evaluate_equality (locals : Dict Value) :
    (∀ {left right : Expr} {v w : Value},
      (evaluate locals left).result = .ok v → (evaluate locals right).result = .ok w →
      (evaluate locals (.compare .equal left right)).result = .ok (.bool (equals v w)) ∧
        (evaluate locals (.compare .notEqual left right)).result = .ok (.bool !(equals v w))) ∧
    (∀ xs ys : List Value, equals (.list xs) (.list ys) = true ↔
      xs.length = ys.length ∧ ∀ (i : ℕ) (hx : i < xs.length) (hy : i < ys.length),
        equals xs[i] ys[i] = true ∧ ¬ Disparate xs[i] ys[i]) ∧
    (∀ fields fields' : Dict Value, equals (.map fields) (.map fields') = true ↔
      (∀ key, fields.contains key = fields'.contains key) ∧
        ∀ key a b, fields.find? key = some a → fields'.find? key = some b →
          equals a b = true ∧ ¬ Disparate a b) ∧
    ∀ v w : Value, equals v w = true ↔
      Alike v w ∧ ∀ a b, Facing v w a b → ¬ Disparate a b := by
  refine ⟨fun hleft hright => ⟨?_, ?_⟩, equals_list, equals_map, fun v w => equals_iff_alike⟩
  · exact result_compare hleft hright
  · exact result_compare hleft hright

/-- The two zeros are equal at any depth, an integer and a double are not. -/
theorem evaluate_equality_nested :
    let zero (x : Float) := Expr.list [.list [.literal (.float x)], .literal (.int 1)]
    let one (v : Value) := Expr.map [(.literal (.text "k"), .list [.literal v])]
    (evaluate .empty (.compare .equal (zero 0) (zero (-0)))).result = .ok (.bool true) ∧
      (evaluate .empty (.compare .notEqual (one (.int 1)) (one (.float 1)))).result =
        .ok (.bool true) := by
  intro zero one
  let field (v : Value) : Value := .map (.cons "k" (.list [v]) trivial .nil)
  have hzero (x : Float) : (evaluate .empty (zero x)).result =
      .ok (.list [.list [.float x], .int 1]) := rfl
  have hone (v : Value) : (evaluate .empty (one v)).result = .ok (field v) := by
    simp only [one, evaluate, evaluateEntries, evaluateItems]
    rfl
  obtain ⟨hresult, hlists, -, hdepth⟩ := evaluate_equality .empty
  have hequal : equals (.list [.list [.float 0], .int 1]) (.list [.list [.float (-0)], .int 1]) =
      true := by
    have hinner : equals (.list [.float 0]) (.list [.float (-0)]) = true := by
      refine (hlists _ _).2 ⟨rfl, fun i hx hy => ?_⟩
      obtain rfl : i = 0 := Nat.lt_one_iff.1 hx
      exact ⟨rfl, id⟩
    refine (hlists _ _).2 ⟨rfl, fun i hx hy => ?_⟩
    obtain rfl | rfl := Nat.le_one_iff_eq_zero_or_eq_one.1 (Nat.le_of_lt_succ hx)
    · exact ⟨hinner, id⟩
    · exact ⟨rfl, fun h => h rfl⟩
  have hunequal : equals (field (.int 1)) (field (.float 1)) = false := by
    have hitem : Facing (.list [.int 1]) (.list [.float 1]) (.int 1) (.float 1) :=
      .item 0 (by decide) (by decide)
    have hfacing : Facing (field (.int 1)) (field (.float 1)) (.int 1) (.float 1) :=
      .within (.field "k" rfl rfl) hitem
    rw [Bool.eq_false_iff]
    exact fun h => ((hdepth _ _).1 h).2 _ _ hfacing trivial
  refine ⟨?_, ?_⟩
  · rw [(hresult (hzero 0) (hzero (-0))).1, hequal]
  · rw [(hresult (hone (.int 1)) (hone (.float 1))).2, hunequal]
    rfl

/-- Two items are equal, and so are two values under a key, but the lists and the mappings that hold
nothing else are not. -/
theorem parted_numbers :
    let whole := Expr.literal (.int 1)
    let rounded := Expr.literal (.float 1)
    let listed (e : Expr) := Expr.list [e]
    let keyed (e : Expr) := Expr.map [(.literal (.text "k"), e)]
    let first (e : Expr) := Expr.index e (.literal (.int 0))
    let named (e : Expr) := Expr.index e (.literal (.text "k"))
    ((evaluate .empty (.compare .equal (first (listed whole)) (first (listed rounded)))).result =
        .ok (.bool true) ∧
      (evaluate .empty (.compare .equal (listed whole) (listed rounded))).result =
        .ok (.bool false)) ∧
    ((evaluate .empty (.compare .equal (named (keyed whole)) (named (keyed rounded)))).result =
        .ok (.bool true) ∧
      (evaluate .empty (.compare .equal (keyed whole) (keyed rounded))).result =
        .ok (.bool false)) :=
  ⟨⟨rfl, rfl⟩, rfl, rfl⟩

end Dataflow.Script
