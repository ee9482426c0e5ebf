/-!
# Dictionaries

A dictionary has text keys in strictly increasing order, compared by code point.  The order is
part of the type: `Entries α low` holds entries whose keys all lie above `low`, so a
dictionary has one representation, and equal dictionaries are equal terms.
-/

namespace Dataflow

/-- Whether a key lies above a bound, if there is one. -/
def Above : Option String → String → Prop
  | none, _ => True
  | some low, key => low < key

/-- Entries in increasing order of their keys, all of them above `low`. -/
inductive Entries (α : Type) : Option String → Type where
  | nil {low : Option String} : Entries α low
  | cons {low : Option String} (key : String) (value : α) (above : Above low key)
      (rest : Entries α (some key)) : Entries α low

/-- A dictionary with text keys. -/
abbrev Dict (α : Type) : Type := Entries α none

namespace Entries

variable {α β : Type} {low : Option String}

/-- The entries in order. -/
def toList {low : Option String} : Entries α low → List (String × α)
  | nil => []
  | cons key value _ rest => (key, value) :: rest.toList

/-- The keys in order. -/
def keys (d : Entries α low) : List String := d.toList.map Prod.fst

/-- The number of entries. -/
def size (d : Entries α low) : Nat := d.toList.length

/-- Whether there is no entry. -/
def isEmpty : Entries α low → Bool
  | nil => true
  | cons .. => false

/-- The value under a key. -/
def find? (name : String) {low : Option String} : Entries α low → Option α
  | nil => none
  | cons key value _ rest => if name = key then some value else rest.find? name

/-- Whether a key has a value. -/
def contains (name : String) (d : Entries α low) : Bool := (d.find? name).isSome

/-- The same entries with other values. -/
def map (f : α → β) {low : Option String} : Entries α low → Entries β low
  | nil => nil
  | cons key value above rest => cons key (f value) above (rest.map f)

/-- Of two keys the one that is neither smaller nor equal is greater. -/
theorem lt_of_not_lt_of_ne {a b : String} (h : ¬a < b) (ne : a ≠ b) : b < a :=
  Decidable.byContradiction fun h' =>
    ne (String.le_antisymm (String.not_lt.1 h') (String.not_lt.1 h))

/-- The entries with a value under a key, which replaces the one that was there. -/
def insert (name : String) (x : α) {low : Option String} (bound : Above low name) :
    Entries α low → Entries α low
  | nil => cons name x bound nil
  | cons key value above rest =>
    if less : name < key then cons name x bound (cons key value less rest)
    else if same : name = key then cons key x above rest
    else cons key value above (rest.insert name x (lt_of_not_lt_of_ne less same))

end Entries

namespace Dict

variable {α : Type}

/-- The dictionary without entries. -/
def empty : Dict α := .nil

instance : Inhabited (Dict α) := ⟨empty⟩

/-- The dictionary with a value under a key, which replaces the one that was there. -/
def insert (d : Dict α) (name : String) (x : α) : Dict α := Entries.insert name x trivial d

/-- The dictionary of a list of entries.  Of several values under one key the last stays. -/
def ofList (l : List (String × α)) : Dict α := l.foldl (fun d e => d.insert e.1 e.2) empty

end Dict

namespace Entries

variable {α : Type} {low : Option String}

@[simp] theorem find?_nil (name : String) : (nil : Entries α low).find? name = none := rfl

theorem find?_insert (name other : String) (x : α) {low : Option String} (bound : Above low name)
    (d : Entries α low) :
    (d.insert name x bound).find? other = if other = name then some x else d.find? other := by
  induction d with
  | nil => rfl
  | cons key value above rest ih =>
    unfold insert
    split
    · rfl
    · split
      · rename_i same
        subst same
        by_cases h : other = name <;> simp [find?, h]
      · rename_i less same
        by_cases h : other = key
        · have ne : other ≠ name := fun e => same (h ▸ e.symm)
          simp [find?, h, h ▸ ne]
        · simp [find?, h, ih (lt_of_not_lt_of_ne less same)]

end Entries

/-- After an insertion the key has the new value, and every other key what it had. -/
theorem Dict.find?_insert {α : Type} (d : Dict α) (name other : String) (x : α) :
    (d.insert name x).find? other = if other = name then some x else d.find? other :=
  @Entries.find?_insert α name other x none trivial d

end Dataflow
