import Dataflow.Proofs.Dict
import Dataflow.Proofs.Json.Compact
import Dataflow.Value.Json

/-!
# Values that survive their JSON text

When the JSON text of a value is read by alternatives, each double is replaced by what its own
text is read as, and the rest of the value comes back as it was, unless the value is nested
deeper than a reader goes (`Value.alternativeOfJsonText?_jsonText`).  What is read from a tree in
the first way is nested no deeper than the tree (`Value.depth_ofJson_le`).
-/

namespace Dataflow.Value

mutual

/-- Whether there is no double in a value. -/
def isFloatFree : Value → Bool
  | null | bool _ | int _ | text _ => true
  | float _ => false
  | list items => areFloatFree items
  | map fields => fieldsFloatFree fields

/-- `isFloatFree` for every item of a list. -/
def areFloatFree : List Value → Bool
  | [] => true
  | v :: rest => v.isFloatFree && areFloatFree rest

/-- `isFloatFree` for every value of a mapping. -/
def fieldsFloatFree {low : Option String} : Entries Value low → Bool
  | .nil => true
  | .cons _ v _ rest => v.isFloatFree && fieldsFloatFree rest

end

mutual

/-- How many lists and mappings lie around the deepest part of a value. -/
def depth : Value → ℕ
  | list items => itemsDepth items + 1
  | map fields => fieldsDepth fields + 1
  | _ => 0

/-- The greatest depth of an item. -/
def itemsDepth : List Value → ℕ
  | [] => 0
  | v :: rest => max v.depth (itemsDepth rest)

/-- The greatest depth of a value under a key. -/
def fieldsDepth {low : Option String} : Entries Value low → ℕ
  | .nil => 0
  | .cons _ v _ rest => max v.depth (fieldsDepth rest)

end

/-! ## Doubles -/

mutual

/-- The doubles in a value. -/
def doubles : Value → List Float
  | float x => [x]
  | list items => itemsDoubles items
  | map fields => fieldsDoubles fields
  | _ => []

/-- The doubles in the items of a list. -/
def itemsDoubles : List Value → List Float
  | [] => []
  | v :: rest => v.doubles ++ itemsDoubles rest

/-- The doubles in the values of a mapping. -/
def fieldsDoubles {low : Option String} : Entries Value low → List Float
  | .nil => []
  | .cons _ v _ rest => v.doubles ++ fieldsDoubles rest

end

mutual

/-- A value in which every double is replaced by what its own text is read as.  There is none
if some double comes out too large. -/
def reread? : Value → Option Value
  | float x => alternativeOfJsonText? (float x).jsonText
  | list items => (rereadItems? items).map list
  | map fields => (rereadFields? fields).map map
  | v => some v

/-- `reread?` for every item of a list. -/
def rereadItems? : List Value → Option (List Value)
  | [] => some []
  | v :: rest => do return (← v.reread?) :: (← rereadItems? rest)

/-- `reread?` for every value of a mapping. -/
def rereadFields? {low : Option String} : Entries Value low → Option (Entries Value low)
  | .nil => some .nil
  | .cons key v above rest => do return .cons key (← v.reread?) above (← rereadFields? rest)

end

/-- What the text of a double alone is read as. -/
lemma reread?_float (x : Float) : reread? (float x) = ofAlternatives? (Json.rereadDouble x) := by
  rw [reread?, alternativeOfJsonText?, jsonText, toJson, Json.parse?_compact_eq, Json.reread]
  by_cases hview : ∃ b, Decimal.view x = .finite b
  · obtain ⟨b, hb⟩ := hview
    rcases Json.rereadDouble_of_finite hb with hj | ⟨y, hj⟩ <;> rw [hj] <;> rfl
  · rw [Json.rereadDouble_of_not_finite (not_exists.1 hview)]
    rfl

/-- A finite double is read as a double, unless it comes out too large. -/
lemma reread?_of_finite {x : Float} {b : Decimal.Binary} (h : Decimal.view x = .finite b) :
    reread? (float x) = none ∨ ∃ y, reread? (float x) = some (float y) := by
  rw [reread?_float]
  rcases Json.rereadDouble_of_finite h with hj | ⟨y, hj⟩
  · rw [hj]
    exact .inl rfl
  · rw [hj]
    exact .inr ⟨y, rfl⟩

/-- Any other double is read as null. -/
lemma reread?_of_not_finite {x : Float} (h : ∀ b, Decimal.view x ≠ .finite b) :
    reread? (float x) = some null := by
  rw [reread?_float, Json.rereadDouble_of_not_finite h]
  rfl

/-- The double that a finite double is read as, from the parts of its text. -/
lemma reread?_eq_scaled {x y : Float} (chars : List Char) (n : Json.Numeral)
    (hchars : Json.floatChars x = if n.negative then '-' :: chars else chars)
    (hscan : Json.scanNumeral n.negative chars = some (n, []))
    (hne : n.fraction ≠ [] ∨ n.exponent ≠ none)
    (hscaled : Decimal.scaled n.whole n.fraction (n.exponent.getD 0) = some y) :
    reread? (float x) = some (float (Decimal.signed n.negative y)) := by
  rw [reread?_float, Json.rereadDouble_eq hchars hscan, Json.toJson_of_ne hne, hscaled]
  rfl

lemma isReadable_rereadDouble (x : Float) (levels : ℕ) :
    (Json.rereadDouble x).isReadable levels = true ↔ ∃ w, reread? (float x) = some w := by
  rw [reread?_float]
  by_cases hview : ∃ b, Decimal.view x = .finite b
  · obtain ⟨b, hb⟩ := hview
    rcases Json.rereadDouble_of_finite hb with hj | ⟨y, hj⟩
    · simp [hj, Json.isReadable, ofAlternatives?, scalar?, asNull?, asBool?, asInt?, asFloat?,
        asText?]
    · rw [hj]
      exact ⟨fun _ => ⟨_, rfl⟩, fun _ => rfl⟩
  · rw [Json.rereadDouble_of_not_finite (not_exists.1 hview)]
    exact ⟨fun _ => ⟨_, rfl⟩, fun _ => rfl⟩

/-! ## Reading by alternatives -/

lemma fitsInt_toInt (n : Int64) : fitsInt n.toInt = true := by
  have hlow := n.le_toInt
  have hhigh := n.toInt_lt
  simp only [fitsInt, Bool.and_eq_true, decide_eq_true_eq]
  omega

lemma reread_int (n : Int64) : (Json.int n.toInt).reread = .int n.toInt := by
  have hlow := n.le_toInt
  have hhigh := n.toInt_lt
  exact Json.reread_int (by omega) (by omega)

mutual

lemma ofAlternatives?_reread (v : Value) : ofAlternatives? v.toJson.reread = v.reread? := by
  match v with
  | null | bool _ | text _ => rfl
  | float x => rw [toJson, Json.reread, reread?_float]
  | int n =>
    -- an integer is no double, since that alternative is tried later
    rw [toJson, reread_int, reread?]
    · simp [ofAlternatives?, scalar?, asNull?, asBool?, asInt?, fitsInt_toInt, Int64.ofInt_toInt]
    all_goals simp
  | list items =>
    rw [toJson, Json.reread, ofAlternatives?, itemsOfAlternatives?_reread items, reread?]
    rfl
  | map fields =>
    rw [toJson, Json.reread, ofAlternatives?, membersOfAlternatives?_reread fields, reread?,
      Option.map_map]
    simp only [Function.comp_def, Dict.ofList_toList]
    rfl

lemma itemsOfAlternatives?_reread (items : List Value) :
    itemsOfAlternatives? (Json.rereadItems (itemsToJson items)) = rereadItems? items := by
  match items with
  | [] => rfl
  | v :: rest =>
    rw [itemsToJson, Json.rereadItems, itemsOfAlternatives?, ofAlternatives?_reread v,
      itemsOfAlternatives?_reread rest, rereadItems?]

lemma membersOfAlternatives?_reread {low : Option String} (fields : Entries Value low) :
    membersOfAlternatives? (Json.rereadMembers (fieldsToJson fields)) =
      (rereadFields? fields).map Entries.toList := by
  match fields with
  | .nil => rfl
  | .cons key v above rest =>
    rw [fieldsToJson, Json.rereadMembers, membersOfAlternatives?, ofAlternatives?_reread v,
      membersOfAlternatives?_reread rest, rereadFields?]
    cases v.reread? <;> cases rereadFields? rest <;> rfl

end

mutual

lemma isReadable_reread (v : Value) (levels : ℕ) :
    v.toJson.reread.isReadable levels = true ↔ v.depth ≤ levels ∧ ∃ w, v.reread? = some w := by
  match v with
  | null | bool _ | text _ => simp [toJson, Json.reread, Json.isReadable, depth, reread?]
  | int n => simp [toJson, reread_int, Json.isReadable, depth, reread?]
  | float x => simp [toJson, Json.reread, depth, isReadable_rereadDouble]
  | list items =>
    cases levels with
    | zero => simp [toJson, Json.reread, Json.isReadable, depth]
    | succ levels =>
      rw [toJson, Json.reread, Json.isReadable, depth, areReadable_reread items levels, reread?]
      simp
  | map fields =>
    cases levels with
    | zero => simp [toJson, Json.reread, Json.isReadable, depth]
    | succ levels =>
      rw [toJson, Json.reread, Json.isReadable, depth, membersReadable_reread fields levels,
        reread?]
      simp

lemma areReadable_reread (items : List Value) (levels : ℕ) :
    Json.areReadable levels (Json.rereadItems (itemsToJson items)) = true ↔
      itemsDepth items ≤ levels ∧ ∃ ws, rereadItems? items = some ws := by
  match items with
  | [] => simp [itemsToJson, Json.rereadItems, Json.areReadable, itemsDepth, rereadItems?]
  | v :: rest =>
    rw [itemsToJson, Json.rereadItems, Json.areReadable, itemsDepth, Bool.and_eq_true,
      isReadable_reread v levels, areReadable_reread rest levels, max_le_iff, rereadItems?]
    cases v.reread? <;> cases rereadItems? rest <;> simp

lemma membersReadable_reread {low : Option String} (fields : Entries Value low) (levels : ℕ) :
    Json.membersReadable levels (Json.rereadMembers (fieldsToJson fields)) = true ↔
      fieldsDepth fields ≤ levels ∧ ∃ ws, rereadFields? fields = some ws := by
  match fields with
  | .nil => simp [fieldsToJson, Json.rereadMembers, Json.membersReadable, fieldsDepth,
      rereadFields?]
  | .cons key v above rest =>
    rw [fieldsToJson, Json.rereadMembers, Json.membersReadable, fieldsDepth, Bool.and_eq_true,
      isReadable_reread v levels, membersReadable_reread rest levels, max_le_iff, rereadFields?]
    cases v.reread? <;> cases rereadFields? rest <;> simp

end

/-- A value is read from its JSON text with its doubles replaced, if a reader goes deep
enough. -/
theorem alternativeOfJsonText?_jsonText (v : Value) :
    alternativeOfJsonText? v.jsonText = if v.depth ≤ Json.maxDepth then v.reread? else none := by
  rw [alternativeOfJsonText?, jsonText, Json.parse?_compact_eq]
  have hreadable := isReadable_reread v Json.maxDepth
  by_cases hdepth : v.depth ≤ Json.maxDepth
  · rw [if_pos hdepth]
    cases hw : v.reread? with
    | none =>
      rw [if_neg (by simp [hreadable, hw])]
      rfl
    | some w => rw [if_pos (hreadable.2 ⟨hdepth, w, hw⟩), Option.bind_some,
        ofAlternatives?_reread, hw]
  · rw [if_neg hdepth, if_neg fun h => hdepth (hreadable.1 h).1]
    rfl

/-! ## Values that come back as they were -/

mutual

/-- A value comes back as it was if all its doubles do. -/
lemma reread?_eq_some_self_iff {v : Value} :
    v.reread? = some v ↔ ∀ x ∈ v.doubles, reread? (float x) = some (float x) := by
  match v with
  | null | bool _ | int _ | text _ => simp [reread?, doubles]
  | float x => simp [doubles]
  | list items =>
    rw [reread?, doubles, ← rereadItems?_eq_some_self_iff]
    cases rereadItems? items <;> simp
  | map fields =>
    rw [reread?, doubles, ← rereadFields?_eq_some_self_iff]
    cases rereadFields? fields <;> simp

lemma rereadItems?_eq_some_self_iff {items : List Value} :
    rereadItems? items = some items ↔
      ∀ x ∈ itemsDoubles items, reread? (float x) = some (float x) := by
  match items with
  | [] => simp [rereadItems?, itemsDoubles]
  | v :: rest =>
    rw [rereadItems?, itemsDoubles, List.forall_mem_append, ← reread?_eq_some_self_iff,
      ← rereadItems?_eq_some_self_iff]
    cases v.reread? <;> cases rereadItems? rest <;> simp

lemma rereadFields?_eq_some_self_iff {low : Option String} {fields : Entries Value low} :
    rereadFields? fields = some fields ↔
      ∀ x ∈ fieldsDoubles fields, reread? (float x) = some (float x) := by
  match fields with
  | .nil => simp [rereadFields?, fieldsDoubles]
  | .cons key v above rest =>
    rw [rereadFields?, fieldsDoubles, List.forall_mem_append, ← reread?_eq_some_self_iff,
      ← rereadFields?_eq_some_self_iff]
    cases v.reread? <;> cases rereadFields? rest <;> simp

end

mutual

lemma doubles_eq_nil {v : Value} (h : v.isFloatFree = true) : v.doubles = [] := by
  match v with
  | null | bool _ | int _ | text _ => rfl
  | float x => simp [isFloatFree] at h
  | list items =>
    rw [isFloatFree] at h
    exact itemsDoubles_eq_nil h
  | map fields =>
    rw [isFloatFree] at h
    exact fieldsDoubles_eq_nil h

lemma itemsDoubles_eq_nil {items : List Value} (h : areFloatFree items = true) :
    itemsDoubles items = [] := by
  match items with
  | [] => rfl
  | v :: rest =>
    rw [areFloatFree, Bool.and_eq_true] at h
    rw [itemsDoubles, doubles_eq_nil h.1, itemsDoubles_eq_nil h.2, List.nil_append]

lemma fieldsDoubles_eq_nil {low : Option String} {fields : Entries Value low}
    (h : fieldsFloatFree fields = true) : fieldsDoubles fields = [] := by
  match fields with
  | .nil => rfl
  | .cons key v above rest =>
    rw [fieldsFloatFree, Bool.and_eq_true] at h
    rw [fieldsDoubles, doubles_eq_nil h.1, fieldsDoubles_eq_nil h.2, List.nil_append]

end

/-! ## Reading by the form of the tree -/

lemma fieldsDepth_le_iff {low : Option String} {fields : Entries Value low} {levels : ℕ} :
    fieldsDepth fields ≤ levels ↔ ∀ e ∈ fields.toList, e.2.depth ≤ levels := by
  induction fields with
  | nil => simp [fieldsDepth, Entries.toList]
  | cons key v above rest ih =>
    rw [fieldsDepth, Entries.toList, max_le_iff, ih]
    simp

lemma fieldsDepth_insert_le {fields : Dict Value} {key : String} {v : Value} {levels : ℕ}
    (hfields : fieldsDepth fields ≤ levels) (hv : v.depth ≤ levels) :
    fieldsDepth (fields.insert key v) ≤ levels := by
  rw [fieldsDepth_le_iff]
  rintro ⟨key', v'⟩ hmem
  rw [Entries.mem_toList_iff, Dict.find?_insert] at hmem
  split at hmem
  · obtain rfl := Option.some.inj hmem
    exact hv
  · exact fieldsDepth_le_iff.1 hfields _ (Entries.mem_toList_iff.2 hmem)

mutual

/-- A value is nested no deeper than the tree that it is read from. -/
lemma depth_ofJson_le {j : Json} {levels : ℕ} (h : j.isReadable levels = true) :
    (ofJson j).depth ≤ levels := by
  match j with
  | .null | .malformed | .bool _ | .float _ | .text _ => simp [ofJson, depth]
  | .int n =>
    rw [ofJson, ofInt]
    split <;> simp [depth]
  | .array items =>
    cases levels with
    | zero => simp [Json.isReadable] at h
    | succ levels =>
      rw [Json.isReadable] at h
      have hitems := itemsDepth_itemsOfJson_le h
      rw [ofJson, depth]
      omega
  | .object members =>
    cases levels with
    | zero => simp [Json.isReadable] at h
    | succ levels =>
      rw [Json.isReadable] at h
      have hmembers := fieldsDepth_membersOfJson_le .empty h (Nat.zero_le levels)
      rw [ofJson, depth]
      omega

lemma itemsDepth_itemsOfJson_le {items : List Json} {levels : ℕ}
    (h : Json.areReadable levels items = true) : itemsDepth (itemsOfJson items) ≤ levels := by
  match items with
  | [] => exact Nat.zero_le levels
  | j :: rest =>
    rw [Json.areReadable, Bool.and_eq_true] at h
    rw [itemsOfJson, itemsDepth, max_le_iff]
    exact ⟨depth_ofJson_le h.1, itemsDepth_itemsOfJson_le h.2⟩

lemma fieldsDepth_membersOfJson_le (fields : Dict Value) {members : List (String × Json)}
    {levels : ℕ} (h : Json.membersReadable levels members = true)
    (hfields : fieldsDepth fields ≤ levels) :
    fieldsDepth (membersOfJson fields members) ≤ levels := by
  match members with
  | [] => exact hfields
  | (key, j) :: rest =>
    rw [Json.membersReadable, Bool.and_eq_true] at h
    rw [membersOfJson]
    exact fieldsDepth_membersOfJson_le _ h.2
      (fieldsDepth_insert_le hfields (depth_ofJson_le h.1))

end

end Dataflow.Value
