import Dataflow.Proofs.Dict
import Dataflow.Value.Basic

/-!
# Sameness of values

Two lists are the same if they have as many items and the items are the same place by place
(`same_list_iff`), two mappings if they have the same keys and the same value under each
(`same_map_iff`).  So sameness goes down to all values that stand at the same place of two others,
at any depth (`Facing`).
-/

namespace Dataflow.Value

/-! ## Containers -/

section Containers

variable {xs ys : List Value} {low low' : Option String} {d : Entries Value low}
  {d' : Entries Value low'} {fields fields' : Dict Value}

lemma sameItems_iff :
    sameItems xs ys = true ↔ List.Forall₂ (fun v w => v.same w = true) xs ys := by
  induction xs generalizing ys with
  | nil => cases ys <;> simp [sameItems]
  | cons v xs ih => cases ys <;> simp [sameItems, ih]

lemma sameFields_iff : sameFields d d' = true ↔
    List.Forall₂ (fun e e' => e.1 = e'.1 ∧ e.2.same e'.2 = true) d.toList d'.toList := by
  induction d generalizing low' with
  | nil => cases d' <;> simp [sameFields, Entries.toList]
  | cons key v above rest ih => cases d' <;> simp [sameFields, Entries.toList, ih]

lemma same_list_iff : (list xs).same (list ys) = true ↔
    xs.length = ys.length ∧
      ∀ (i : ℕ) (hx : i < xs.length) (hy : i < ys.length), xs[i].same ys[i] = true := by
  rw [same, sameItems_iff, List.forall₂_iff_get]
  rfl

lemma same_map_iff : (map fields).same (map fields') = true ↔
    (∀ key, fields.contains key = fields'.contains key) ∧
      ∀ key v w, fields.find? key = some v → fields'.find? key = some w → v.same w = true := by
  rw [same, sameFields_iff, Entries.forall₂_toList_iff (R := fun v w => same v w = true)]

end Containers

/-! ## Depth -/

/-- Two values stand at the same place inside of two others: at one index, under one key, or
further down. -/
inductive Facing : Value → Value → Value → Value → Prop
  | item {xs ys : List Value} (i : ℕ) (hx : i < xs.length) (hy : i < ys.length) :
    Facing (list xs) (list ys) xs[i] ys[i]
  | field {fields fields' : Dict Value} (key : String) {a b : Value}
    (ha : fields.find? key = some a) (hb : fields'.find? key = some b) :
    Facing (map fields) (map fields') a b
  | within {v w a b a' b' : Value} (h : Facing v w a b) (h' : Facing a b a' b') : Facing v w a' b'

/-- The value under a key is smaller than the mapping. -/
lemma sizeOf_lt_of_find? {low : Option String} {fields : Entries Value low} {key : String}
    {a : Value} (h : fields.find? key = some a) : sizeOf a < sizeOf fields := by
  induction fields with
  | nil => simp at h
  | cons first x above rest ih =>
    rw [Entries.find?] at h
    rw [Entries.cons.sizeOf_spec]
    split at h
    · obtain rfl := Option.some.inj h
      omega
    · have hrest := ih h
      omega

namespace Facing

variable {v w a b : Value}

/-- Values at the same place of values that are the same are the same. -/
lemma same (h : Facing v w a b) (hsame : v.same w = true) : a.same b = true := by
  induction h with
  | item i hx hy => exact (same_list_iff.1 hsame).2 i hx hy
  | field key ha hb => exact (same_map_iff.1 hsame).2 key _ _ ha hb
  | within h h' ih ih' => exact ih' (ih hsame)

/-- What stands inside of a value is smaller. -/
lemma sizeOf_lt (h : Facing v w a b) : sizeOf a < sizeOf v := by
  induction h with
  | @item xs ys i hx hy =>
    have hitem : sizeOf xs[i] < sizeOf xs := List.sizeOf_get xs ⟨i, hx⟩
    rw [Value.list.sizeOf_spec]
    omega
  | field key ha hb =>
    have hvalue := sizeOf_lt_of_find? ha
    rw [Value.map.sizeOf_spec]
    omega
  | within h h' ih ih' => exact ih'.trans ih

end Facing

end Dataflow.Value
