import Mathlib.Data.List.Forall2
import Mathlib.Data.List.Induction
import Mathlib.Data.String.Basic
import Dataflow.Dict

/-!
# Dictionaries of lists

A dictionary made of a list of entries has, under each key, the value that the list gives it;
if no key comes twice, that is the value of the only entry.  Two dictionaries with the same keys
have them in one order, so that their values face each other entry by entry
(`Entries.forall₂_toList_iff`).  Two with the same value under every key are equal
(`Entries.eq_of_find?_eq`), and the entries of a dictionary make the same dictionary again
(`Dict.ofList_toList`).
-/

namespace Dataflow

/-! ## One dictionary -/

namespace Entries

variable {α : Type} {low : Option String} {key key' : String} {a : α}

lemma find?_cons_self {above : Above low key} {rest : Entries α (some key)} :
    (cons key a above rest).find? key = some a := by
  rw [find?, if_pos rfl]

lemma find?_cons_of_ne {above : Above low key} {rest : Entries α (some key)} (h : key' ≠ key) :
    (cons key a above rest).find? key' = rest.find? key' := by
  rw [find?, if_neg h]

/-- The keys of a dictionary lie above its bound. -/
lemma lt_of_mem_toList {bound : String} {low : Option String} {d : Entries α low}
    (hlow : low = some bound) (h : (key, a) ∈ d.toList) : bound < key := by
  induction d generalizing bound with
  | nil => simp [toList] at h
  | cons first x above rest ih =>
    subst hlow
    rcases List.mem_cons.1 h with heq | hmem
    · obtain ⟨rfl, rfl⟩ := Prod.mk.inj heq
      exact above
    · exact lt_trans above (ih rfl hmem)

lemma mem_toList_iff {d : Entries α low} : (key, a) ∈ d.toList ↔ d.find? key = some a := by
  induction d with
  | nil => simp [toList]
  | cons first x above rest ih =>
    rw [toList, List.mem_cons, Prod.mk.injEq]
    by_cases heq : key = first
    · -- the key does not come again in the rest
      subst heq
      have hrest : (key, a) ∉ rest.toList := fun hmem => lt_irrefl _ (lt_of_mem_toList rfl hmem)
      rw [find?_cons_self]
      simp [hrest, eq_comm]
    · rw [find?_cons_of_ne heq]
      simp [heq, ih]

lemma keys_nodup (d : Entries α low) : (d.toList.map Prod.fst).Nodup := by
  induction d with
  | nil => exact List.nodup_nil
  | cons first x above rest ih =>
    refine List.nodup_cons.2 ⟨fun hmem => ?_, ih⟩
    obtain ⟨⟨key, a⟩, hmem, rfl⟩ := List.mem_map.1 hmem
    exact lt_irrefl _ (lt_of_mem_toList rfl hmem)

/-- Nothing is found under a key that does not lie above the bound. -/
lemma find?_eq_none_of_le {bound : String} {d : Entries α (some bound)} (h : key ≤ bound) :
    d.find? key = none := by
  rw [Option.eq_none_iff_forall_ne_some]
  intro a ha
  exact not_lt_of_ge h (lt_of_mem_toList rfl (mem_toList_iff.2 ha))

lemma contains_cons_self {above : Above low key} {rest : Entries α (some key)} :
    (cons key a above rest).contains key = true := by
  rw [contains, find?_cons_self, Option.isSome_some]

lemma contains_cons_of_ne {above : Above low key} {rest : Entries α (some key)} (h : key' ≠ key) :
    (cons key a above rest).contains key' = rest.contains key' := by
  rw [contains, contains, find?_cons_of_ne h]

lemma not_contains_of_le {bound : String} {d : Entries α (some bound)} (h : key ≤ bound) :
    d.contains key = false := by
  rw [contains, find?_eq_none_of_le h, Option.isSome_none]

/-- No key lies below the first. -/
lemma le_of_contains_cons {above : Above low key} {rest : Entries α (some key)}
    (h : (cons key a above rest).contains key' = true) : key ≤ key' := by
  by_contra hle
  have hlt : key' < key := not_le.1 hle
  rw [contains_cons_of_ne hlt.ne, not_contains_of_le hlt.le] at h
  simp at h

end Entries

/-! ## Two dictionaries -/

namespace Entries

variable {α β : Type} {low low' : Option String}

/-- Dictionaries with the same keys begin with the same key, and go on with the same keys. -/
lemma first_eq_of_contains {first first' : String} {x : α} {x' : β} {above : Above low first}
    {above' : Above low' first'} {rest : Entries α (some first)} {rest' : Entries β (some first')}
    (h : ∀ key, (cons first x above rest).contains key =
      (cons first' x' above' rest').contains key) :
    first = first' ∧ ∀ key, rest.contains key = rest'.contains key := by
  have hle : first ≤ first' := le_of_contains_cons ((h first').trans contains_cons_self)
  have hge : first' ≤ first := le_of_contains_cons ((h first).symm.trans contains_cons_self)
  obtain rfl := le_antisymm hle hge
  refine ⟨rfl, fun key => ?_⟩
  by_cases heq : key = first
  · rw [not_contains_of_le heq.le, not_contains_of_le heq.le]
  · have hkey := h key
    rwa [contains_cons_of_ne heq, contains_cons_of_ne heq] at hkey

/-- Two dictionaries are related entry by entry if they have the same keys, and related values
under each. -/
lemma forall₂_toList_iff {R : α → β → Prop} {d : Entries α low} {d' : Entries β low'} :
    List.Forall₂ (fun e e' => e.1 = e'.1 ∧ R e.2 e'.2) d.toList d'.toList ↔
      (∀ key, d.contains key = d'.contains key) ∧
        ∀ key a b, d.find? key = some a → d'.find? key = some b → R a b := by
  induction d generalizing low' with
  | nil =>
    cases d' with
    | nil => exact iff_of_true .nil ⟨fun key => rfl, by simp⟩
    | cons first' x' above' rest' =>
      refine iff_of_false (by simp [toList]) fun h => ?_
      have hkey := (h.1 first').trans contains_cons_self
      simp [contains] at hkey
  | cons first x above rest ih =>
    cases d' with
    | nil =>
      refine iff_of_false (by simp [toList]) fun h => ?_
      have hkey := (h.1 first).symm.trans contains_cons_self
      simp [contains] at hkey
    | cons first' x' above' rest' =>
      rw [toList, toList, List.forall₂_cons, ih]
      constructor
      · rintro ⟨⟨rfl, hx⟩, hkeys, hvalues⟩
        refine ⟨fun key => ?_, fun key a b ha hb => ?_⟩
        · by_cases heq : key = first
          · rw [heq, contains_cons_self, contains_cons_self]
          · rw [contains_cons_of_ne heq, contains_cons_of_ne heq, hkeys]
        · by_cases heq : key = first
          · subst heq
            obtain rfl := Option.some.inj (find?_cons_self.symm.trans ha)
            obtain rfl := Option.some.inj (find?_cons_self.symm.trans hb)
            exact hx
          · rw [find?_cons_of_ne heq] at ha hb
            exact hvalues key a b ha hb
      · rintro ⟨hkeys, hvalues⟩
        obtain ⟨rfl, hrest⟩ := first_eq_of_contains hkeys
        refine ⟨⟨rfl, hvalues first x x' find?_cons_self find?_cons_self⟩, hrest,
          fun key a b ha hb => ?_⟩
        have hne : key ≠ first := by
          rintro rfl
          rw [find?_eq_none_of_le le_rfl] at ha
          simp at ha
        exact hvalues key a b ((find?_cons_of_ne hne).trans ha) ((find?_cons_of_ne hne).trans hb)

/-- Dictionaries with the same entries are equal. -/
lemma eq_of_toList_eq {d d' : Entries α low} (h : d.toList = d'.toList) : d = d' := by
  induction d with
  | nil =>
    cases d' with
    | nil => rfl
    | cons first' x' above' rest' => simp [toList] at h
  | cons first x above rest ih =>
    cases d' with
    | nil => simp [toList] at h
    | cons first' x' above' rest' =>
      obtain ⟨hentry, hrest⟩ := List.cons.inj h
      obtain ⟨rfl, rfl⟩ := Prod.mk.inj hentry
      rw [ih hrest]

/-- Two dictionaries with the same value under every key are equal. -/
lemma eq_of_find?_eq {d d' : Entries α low} (h : ∀ key, d.find? key = d'.find? key) : d = d' := by
  have hentries : List.Forall₂ (fun e e' => e.1 = e'.1 ∧ e.2 = e'.2) d.toList d'.toList := by
    refine forall₂_toList_iff.2 ⟨fun key => ?_, fun key a b ha hb => ?_⟩
    · rw [contains, contains, h]
    · rw [h, hb] at ha
      exact (Option.some.inj ha).symm
  have heq := hentries.imp fun e e' he => Prod.ext he.1 he.2
  exact eq_of_toList_eq (List.forall₂_eq_eq_eq ▸ heq)

end Entries

/-! ## Dictionaries of lists -/

namespace Dict

variable {α : Type} {l : List (String × α)} {key : String} {a : α}

lemma ofList_concat (l : List (String × α)) (e : String × α) :
    ofList (l ++ [e]) = (ofList l).insert e.1 e.2 := by
  rw [ofList, List.foldl_append]
  rfl

/-- If no key comes twice, every entry is found. -/
lemma find?_ofList_of_mem (hl : (l.map Prod.fst).Nodup) (h : (key, a) ∈ l) :
    (ofList l).find? key = some a := by
  induction l using List.reverseRecOn with
  | nil => simp at h
  | append_singleton l e ih =>
    obtain ⟨key', a'⟩ := e
    rw [List.map_append, List.nodup_append] at hl
    rw [ofList_concat, find?_insert]
    rcases List.mem_append.1 h with hmem | hmem
    · have hne : key ≠ key' :=
        hl.2.2 key (List.mem_map_of_mem (f := Prod.fst) hmem) key' (by simp)
      rw [if_neg hne]
      exact ih hl.1 hmem
    · obtain ⟨rfl, rfl⟩ := Prod.mk.inj (List.mem_singleton.1 hmem)
      rw [if_pos rfl]

/-- What is found comes from one of the entries. -/
lemma mem_of_find?_ofList (h : (ofList l).find? key = some a) : (key, a) ∈ l := by
  induction l using List.reverseRecOn with
  | nil => simp [ofList, empty] at h
  | append_singleton l e ih =>
    rw [ofList_concat, find?_insert] at h
    rw [List.mem_append, List.mem_singleton]
    split at h
    · rename_i heq
      exact .inr (Prod.ext heq (Option.some.inj h).symm)
    · exact .inl (ih h)

lemma isSome_find?_ofList : ((ofList l).find? key).isSome = true ↔ key ∈ l.map Prod.fst := by
  induction l using List.reverseRecOn with
  | nil => simp [ofList, empty]
  | append_singleton l e ih =>
    rw [ofList_concat, find?_insert, List.map_append, List.mem_append, ← ih]
    by_cases heq : key = e.1 <;> simp [heq]

/-- The entries of a dictionary make it again. -/
lemma ofList_toList (d : Dict α) : ofList d.toList = d := by
  refine Entries.eq_of_find?_eq fun key => ?_
  cases hfind : d.find? key with
  | some a => exact find?_ofList_of_mem d.keys_nodup (Entries.mem_toList_iff.2 hfind)
  | none =>
    rw [Option.eq_none_iff_forall_ne_some]
    intro a ha
    have hmem := Entries.mem_toList_iff.1 (mem_of_find?_ofList ha)
    rw [hfind] at hmem
    simp at hmem

end Dict

end Dataflow
