import Dataflow.Proofs.Dict
import Dataflow.Value.Basic

/-!
# Parts of a value

A value holds others in lists and mappings, to any depth.  `Value.Every` says something of all
the integers in a value and of all its texts, among which are the keys of its mappings.
-/

namespace Dataflow.Value

mutual

/-- All integers in a value, and all texts and keys, have a property. -/
def Every (ints : Int64 → Prop) (texts : String → Prop) : Value → Prop
  | int n => ints n
  | text s => texts s
  | list items => EveryItem ints texts items
  | map fields => EveryField ints texts fields
  | null | bool _ | float _ => True

/-- The same for every item of a list. -/
def EveryItem (ints : Int64 → Prop) (texts : String → Prop) : List Value → Prop
  | [] => True
  | v :: rest => v.Every ints texts ∧ EveryItem ints texts rest

/-- The same for every key and value of a mapping. -/
def EveryField (ints : Int64 → Prop) (texts : String → Prop) {low : Option String} :
    Entries Value low → Prop
  | .nil => True
  | .cons key v _ rest => texts key ∧ v.Every ints texts ∧ EveryField ints texts rest

end

variable {ints : Int64 → Prop} {texts : String → Prop}

section Decidable

variable [DecidablePred ints] [DecidablePred texts]

mutual

/-- Whether all integers and all texts in a value have a property can be decided. -/
def decEvery : ∀ v : Value, Decidable (v.Every ints texts)
  | int n => inferInstanceAs (Decidable (ints n))
  | text s => inferInstanceAs (Decidable (texts s))
  | list items => decEveryItem items
  | map fields => decEveryField fields
  | null | bool _ | float _ => isTrue trivial

/-- The same for every item of a list. -/
def decEveryItem : ∀ items : List Value, Decidable (EveryItem ints texts items)
  | [] => isTrue trivial
  | v :: rest => @instDecidableAnd _ _ (decEvery v) (decEveryItem rest)

/-- The same for every key and value of a mapping. -/
def decEveryField {low : Option String} :
    ∀ fields : Entries Value low, Decidable (EveryField ints texts fields)
  | .nil => isTrue trivial
  | .cons key v _ rest =>
    @instDecidableAnd _ _ (inferInstanceAs (Decidable (texts key)))
      (@instDecidableAnd _ _ (decEvery v) (decEveryField rest))

end

instance (v : Value) : Decidable (v.Every ints texts) := decEvery v

end Decidable

lemma everyField_iff {low : Option String} {fields : Entries Value low} :
    EveryField ints texts fields ↔ ∀ e ∈ fields.toList, texts e.1 ∧ e.2.Every ints texts := by
  induction fields with
  | nil => simp [EveryField, Entries.toList]
  | cons key v above rest ih => simp [EveryField, Entries.toList, ih, and_assoc]

mutual

/-- What is said of the integers and what is said of the texts can be said apart. -/
theorem every_iff_and : ∀ v : Value,
    v.Every ints texts ↔ v.Every ints (fun _ => True) ∧ v.Every (fun _ => True) texts
  | int n => by simp [Every]
  | text s => by simp [Every]
  | list items => everyItem_iff_and items
  | map fields => everyField_iff_and fields
  | null => by simp [Every]
  | bool _ => by simp [Every]
  | float _ => by simp [Every]

theorem everyItem_iff_and : ∀ items : List Value,
    EveryItem ints texts items ↔
      EveryItem ints (fun _ => True) items ∧ EveryItem (fun _ => True) texts items
  | [] => by simp [EveryItem]
  | v :: rest => by
    rw [EveryItem, EveryItem, EveryItem, every_iff_and v, everyItem_iff_and rest]
    exact and_and_and_comm

theorem everyField_iff_and {low : Option String} : ∀ fields : Entries Value low,
    EveryField ints texts fields ↔
      EveryField ints (fun _ => True) fields ∧ EveryField (fun _ => True) texts fields
  | .nil => by simp [EveryField]
  | .cons key v _ rest => by
    rw [EveryField, EveryField, EveryField, every_iff_and v, everyField_iff_and rest]
    tauto

end

end Dataflow.Value
