import Mathlib.Data.Nat.Notation
import Dataflow.Value.Json

/-!
# Two ways to read a value

A value is read from a tree by the form of the tree, or by trying the kinds of values one after
the other.  The second way ends at the same kind, because the kinds overlap in one place only: an
integer is also a double, and both ways prefer the integer if it fits.  So the two ways agree on
every text (`readings_agree`), and nothing that denotes a tree is refused.
-/

namespace Dataflow.Value

/-- An integer is read by the form of its tree as it is by alternatives. -/
lemma ofAlternatives?_int (n : Int) : ofAlternatives? (.int n) = some (ofInt n) := by
  by_cases hfits : fitsInt n = true
  · simp [ofAlternatives?, scalar?, asNull?, asBool?, asInt?, ofInt, hfits]
  · -- the integer is passed over, and the double comes next
    simp [ofAlternatives?, scalar?, asNull?, asBool?, asInt?, asFloat?, ofInt, hfits]

mutual

/-- The first kind that fits a tree is the kind of its form. -/
theorem ofAlternatives?_eq {j : Json} {levels : ℕ} (h : j.isReadable levels = true) :
    ofAlternatives? j = some (ofJson j) := by
  match j with
  | .null | .bool _ | .float _ | .text _ => rfl
  | .malformed => simp [Json.isReadable] at h
  | .int n => rw [ofAlternatives?_int, ofJson]
  | .array items =>
    cases levels with
    | zero => simp [Json.isReadable] at h
    | succ levels =>
      rw [Json.isReadable] at h
      rw [ofAlternatives?, itemsOfAlternatives?_eq h, ofJson]
      rfl
  | .object members =>
    cases levels with
    | zero => simp [Json.isReadable] at h
    | succ levels =>
      rw [Json.isReadable] at h
      obtain ⟨l, hl, hfold⟩ := membersOfAlternatives?_eq h
      rw [ofAlternatives?, hl, ofJson, ← hfold]
      rfl

/-- The items of a list one by one. -/
theorem itemsOfAlternatives?_eq {items : List Json} {levels : ℕ}
    (h : Json.areReadable levels items = true) :
    itemsOfAlternatives? items = some (itemsOfJson items) := by
  match items with
  | [] => rfl
  | j :: rest =>
    rw [Json.areReadable, Bool.and_eq_true] at h
    rw [itemsOfAlternatives?, ofAlternatives?_eq h.1, itemsOfAlternatives?_eq h.2, itemsOfJson]
    rfl

/-- The members of an object one by one.  A key that comes again replaces the value it had,
whether the members are read first and put into a mapping then, or each when it is read. -/
theorem membersOfAlternatives?_eq {members : List (String × Json)} {levels : ℕ}
    (h : Json.membersReadable levels members = true) :
    ∃ l, membersOfAlternatives? members = some l ∧
      ∀ fields : Dict Value,
        l.foldl (fun d e => d.insert e.1 e.2) fields = membersOfJson fields members := by
  match members with
  | [] => exact ⟨[], rfl, fun fields => rfl⟩
  | (key, j) :: rest =>
    rw [Json.membersReadable, Bool.and_eq_true] at h
    obtain ⟨l, hl, hfold⟩ := membersOfAlternatives?_eq h.2
    refine ⟨(key, ofJson j) :: l, ?_, fun fields => ?_⟩
    · rw [membersOfAlternatives?, ofAlternatives?_eq h.1, hl]
      rfl
    · rw [List.foldl_cons, hfold, membersOfJson]

end

/-- What a tree gives that is not nested too deep. -/
lemma alternativeOfJsonText?_of_parse? {text : String} {j : Json}
    (h : Json.parse? text = some j) : alternativeOfJsonText? text = some (ofJson j) := by
  have hreadable : j.isReadable Json.maxDepth = true := (Option.filter_eq_some_iff.1 h).2
  rw [alternativeOfJsonText?, h, Option.bind_some, ofAlternatives?_eq hreadable]

/-- **The two ways to read a value agree on every text**, and both fail exactly where the text
is no JSON. -/
theorem readings_agree (text : String) :
    alternativeOfJsonText? text = ofJsonText? text ∧
      (alternativeOfJsonText? text = none ↔ Json.parse? text = none) := by
  cases hparse : Json.parse? text with
  | none =>
    have hnone : alternativeOfJsonText? text = none := by
      rw [alternativeOfJsonText?, hparse, Option.bind_none]
    rw [hnone, ofJsonText?, hparse]
    exact ⟨rfl, iff_of_true rfl rfl⟩
  | some j =>
    rw [alternativeOfJsonText?_of_parse? hparse, ofJsonText?, hparse]
    exact ⟨rfl, iff_of_false (Option.some_ne_none _) (Option.some_ne_none _)⟩

/-- Of two values under one key the last stays. -/
example : ofAlternatives? (.object [("a", .null), ("a", .int 1)]) =
    some (.map (.cons "a" (.int 1) trivial .nil)) := by
  cbv

end Dataflow.Value
