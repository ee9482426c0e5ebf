import Mathlib.Data.List.Nodup
import Mathlib.Data.List.Perm.Subperm
import Dataflow.Program.Variable

/-!
# Distinct variables

No two slots share a variable.  A slot gets its plain name or one that is free, and of one more
numbers than there are blocked names one is always free (`exists_leastFree`); so the names in
use stay distinct as slots are added, and a slot keeps the name that it got first.

Which slots get a number is seen from the slots in front of them (`Variables.earlier`): a plain name
is taken there exactly if one of them has it, since no name with a number is the plain name of a
slot.  `variables_distinct` puts this together for the slots of a plan.
-/

namespace Dataflow.Program

/-! ## Numbered names -/

lemma numbered_inj {name : String} {a b : ℕ} (h : numbered name a = numbered name b) : a = b := by
  have hdigits : a.repr = b.repr := (String.append_right_inj (name ++ "_")).1 h
  have hvalue := congrArg (fun s : String => Nat.ofDigitChars 10 s.toList 0) hdigits
  simpa only [Nat.toList_repr, Nat.ofDigitChars_ten_toDigits] using hvalue

lemma nodup_numbered (name : String) (count : ℕ) :
    ((List.range count).map fun k => numbered name (k + 2)).Nodup :=
  List.Nodup.map (fun _ _ hab => Nat.add_right_cancel (numbered_inj hab)) List.nodup_range

/-- The numbers cannot all be blocked. -/
lemma exists_free (blocked : List String) (name : String) :
    ∃ k < blocked.length + 1, numbered name (k + 2) ∉ blocked := by
  by_contra hall
  have hblocked : ∀ k < blocked.length + 1, numbered name (k + 2) ∈ blocked := by
    intro k hk
    by_contra hfree
    exact hall ⟨k, hk, hfree⟩
  -- they would be more distinct names than there are blocked ones
  let names := (List.range (blocked.length + 1)).map fun k => numbered name (k + 2)
  have hnodup : names.Nodup := nodup_numbered name (blocked.length + 1)
  have hsub : names ⊆ blocked := by
    intro x hx
    obtain ⟨k, hk, rfl⟩ := List.mem_map.1 hx
    exact hblocked k (List.mem_range.1 hk)
  have hlength := (List.subperm_of_subset hnodup hsub).length_le
  simp only [names, List.length_map, List.length_range] at hlength
  omega

/-- The number that is found is the least one from two on that is not blocked. -/
lemma exists_leastFree (blocked : List String) (name : String) :
    ∃ n, 2 ≤ n ∧ leastFree blocked name = numbered name n ∧ numbered name n ∉ blocked ∧
      ∀ k, 2 ≤ k → k < n → numbered name k ∈ blocked := by
  obtain ⟨i, hi, hfree⟩ := exists_free blocked name
  obtain ⟨j, hj⟩ : ∃ j, ((List.range (blocked.length + 1)).find?
      fun k => numbered name (k + 2) ∉ blocked) = some j := by
    rw [← Option.isSome_iff_exists, List.find?_isSome]
    exact ⟨i, List.mem_range.2 hi, by simpa using hfree⟩
  obtain ⟨hnew, -, hleast⟩ := List.find?_range_eq_some.1 hj
  refine ⟨j + 2, by omega, by rw [leastFree, hj, Option.getD_some], by simpa using hnew, ?_⟩
  intro k hk hlt
  have hblocked := hleast (k - 2) (by omega)
  have hk2 : k - 2 + 2 = k := by omega
  simpa [hk2] using hblocked

lemma leastFree_not_mem (blocked : List String) (name : String) :
    leastFree blocked name ∉ blocked := by
  obtain ⟨n, -, hname, hnew, -⟩ := exists_leastFree blocked name
  rwa [hname]

/-! ## Identifiers -/

/-- A text of ASCII letters, digits and underscores. -/
def IsPlainText (s : String) : Prop := ∀ c ∈ s.toList, c.isAlphanum = true ∨ c = '_'

instance (s : String) : Decidable (IsPlainText s) := List.decidableBAll _ _

/-- An identifier of ASCII characters. -/
def IsIdentifier (name : String) : Prop :=
  IsPlainText name ∧ ∃ c ∈ name.toList.head?, c.isDigit = false

lemma IsPlainText.append {s t : String} (hs : IsPlainText s) (ht : IsPlainText t) :
    IsPlainText (s ++ t) := by
  intro c hc
  rw [String.toList_append, List.mem_append] at hc
  exact hc.elim (hs c) (ht c)

lemma isAlphanum_of_isPlain {c : Char} (h : Text.isPlain c = true) : c.isAlphanum = true := by
  simp only [Text.isPlain, Text.isDigit, Bool.or_eq_true, Bool.and_eq_true,
    decide_eq_true_eq] at h
  show ((decide (c.val ≥ 65 ∧ c.val ≤ 90) || (decide (c.val ≥ 97) && decide (c.val ≤ 122))) ||
    (decide (c.val ≥ 48) && decide (c.val ≤ 57))) = true
  simp only [Bool.or_eq_true, Bool.and_eq_true, decide_eq_true_eq]
  obtain (hdigit | hlower) | hupper := h
  · exact .inr hdigit
  · exact .inl (.inr hlower)
  · exact .inl (.inl hupper)

lemma isPlainText_sanitized (raw : String) : IsPlainText (sanitized raw) := by
  intro c hc
  rw [sanitized, String.toList_ofList, List.mem_map] at hc
  obtain ⟨d, -, hd⟩ := hc
  split at hd
  · rename_i hkept
    subst hd
    rcases Bool.or_eq_true_iff.1 hkept with hplain | hmark
    · exact .inl (isAlphanum_of_isPlain hplain)
    · exact .inr (by simpa using hmark)
  · exact .inr hd.symm

lemma isPlainText_repr (n : ℕ) : IsPlainText n.repr := by
  intro c hc
  rw [Nat.toList_repr] at hc
  have hdigit := Nat.isDigit_of_mem_toDigits (by omega) (by omega) hc
  simp [Char.isAlphanum, hdigit]

lemma isPlainText_plainName (s : Slot) : IsPlainText s.plainName := by
  have hnode : IsPlainText "node_" := by decide
  have hmark : IsPlainText "_" := by decide
  cases s with
  | output node output =>
    exact ((hnode.append (isPlainText_sanitized node)).append hmark).append
      (isPlainText_sanitized output)
  | result node => exact hnode.append (isPlainText_sanitized node)

lemma isPlainText_numbered {name : String} (h : IsPlainText name) (n : ℕ) :
    IsPlainText (numbered name n) :=
  (h.append (by decide : IsPlainText "_")).append (isPlainText_repr n)

lemma exists_plainName_eq (s : Slot) : ∃ tail, s.plainName = "node_" ++ tail := by
  cases s with
  | output node output =>
    refine ⟨sanitized node ++ ("_" ++ sanitized output), ?_⟩
    rw [Slot.plainName, outputVariable, String.append_assoc, String.append_assoc]
  | result node => exact ⟨_, rfl⟩

lemma isIdentifier_node_append {tail : String} (h : IsPlainText ("node_" ++ tail)) :
    IsIdentifier ("node_" ++ tail) := by
  refine ⟨h, 'n', ?_, rfl⟩
  rw [String.toList_append]
  rfl

namespace Variables

variable {reserved : List String} {vars : Variables} {l : List Slot} {s t : Slot} {name : String}

/-! ## Adding a slot -/

lemma find?_eq_none_iff : vars.find? s = none ↔ ∀ e ∈ vars.entries, e.1 ≠ s := by
  simp [find?, List.find?_eq_none]

lemma mem_entries_of_find? (h : vars.find? s = some name) : (s, name) ∈ vars.entries := by
  obtain ⟨e, he, rfl⟩ := Option.map_eq_some_iff.1 h
  have hslot : e.1 = s := by simpa using List.find?_some he
  rw [← hslot]
  exact List.mem_of_find?_eq_some he

/-- The variable that a slot gets. -/
def newName (reserved : List String) (vars : Variables) (s : Slot) : String :=
  if s.plainName ∈ vars.taken then leastFree (reserved ++ vars.taken) s.plainName else s.plainName

lemma newName_not_mem : vars.newName reserved s ∉ vars.taken := by
  unfold newName
  split
  · exact fun hmem => leastFree_not_mem _ _ (List.mem_append_right reserved hmem)
  · assumption

lemma add_of_find?_eq_none (reserved : List String) (h : vars.find? s = none) :
    vars.add reserved s = ⟨vars.entries ++ [(s, vars.newName reserved s)]⟩ := by
  rw [add, h]
  rfl

lemma taken_add (reserved : List String) (h : vars.find? s = none) :
    (vars.add reserved s).taken = vars.taken ++ [vars.newName reserved s] := by
  rw [add_of_find?_eq_none reserved h, taken, List.map_append]
  rfl

lemma find?_add_self (reserved : List String) (h : vars.find? s = none) :
    (vars.add reserved s).find? s = some (vars.newName reserved s) := by
  have hnone : vars.entries.find? (fun e => e.1 = s) = none := by
    simpa [List.find?_eq_none] using find?_eq_none_iff.1 h
  simp [add_of_find?_eq_none reserved h, find?, List.find?_append, hnone]

/-- What adding a slot without a variable does. -/
lemma add_eq (reserved : List String) (h : vars.find? s = none) :
    ∃ name, name ∉ vars.taken ∧ vars.add reserved s = ⟨vars.entries ++ [(s, name)]⟩ :=
  ⟨_, newName_not_mem, add_of_find?_eq_none reserved h⟩

lemma taken_add_nodup (h : vars.taken.Nodup) (s : Slot) : (vars.add reserved s).taken.Nodup := by
  cases hfind : vars.find? s with
  | some name =>
    rw [add, hfind]
    exact h
  | none =>
    rw [taken_add reserved hfind, List.nodup_append]
    refine ⟨h, List.nodup_singleton _, ?_⟩
    rintro x hx y hy rfl
    exact newName_not_mem ((List.mem_singleton.1 hy) ▸ hx)

lemma find?_add_of_find? (h : vars.find? t = some name) (s : Slot) :
    (vars.add reserved s).find? t = some name := by
  cases hfind : vars.find? s with
  | some _ => rwa [add, hfind]
  | none =>
    obtain ⟨new, -, hadd⟩ := add_eq reserved hfind
    obtain ⟨e, he, hname⟩ := Option.map_eq_some_iff.1 h
    rw [hadd, find?, List.find?_append, he]
    simpa using hname

lemma exists_find?_add (reserved : List String) (vars : Variables) (s : Slot) :
    ∃ name, (vars.add reserved s).find? s = some name := by
  cases hfind : vars.find? s with
  | some name => exact ⟨name, find?_add_of_find? hfind s⟩
  | none => exact ⟨_, find?_add_self reserved hfind⟩

/-! ## Adding slots one after the other -/

lemma taken_foldl_nodup (h : vars.taken.Nodup) : (l.foldl (add reserved) vars).taken.Nodup := by
  induction l generalizing vars with
  | nil => exact h
  | cons s l ih => exact ih (taken_add_nodup h s)

lemma find?_foldl_of_find? (h : vars.find? t = some name) :
    (l.foldl (add reserved) vars).find? t = some name := by
  induction l generalizing vars with
  | nil => exact h
  | cons s l ih => exact ih (find?_add_of_find? h s)

lemma exists_find?_foldl (h : s ∈ l) :
    ∃ name, (l.foldl (add reserved) vars).find? s = some name := by
  induction l generalizing vars with
  | nil => simp at h
  | cons t l ih =>
    rw [List.foldl_cons]
    rcases List.mem_cons.1 h with rfl | hmem
    · obtain ⟨name, hname⟩ := exists_find?_add reserved vars s
      exact ⟨name, find?_foldl_of_find? hname⟩
    · exact ih hmem

lemma mem_of_mem_entries {e : Slot × String} (h : e ∈ (l.foldl (add reserved) vars).entries) :
    e ∈ vars.entries ∨ e.1 ∈ l := by
  induction l generalizing vars with
  | nil => exact .inl h
  | cons s l ih =>
    rcases ih h with hadd | hmem
    · cases hfind : vars.find? s with
      | some _ =>
        rw [add, hfind] at hadd
        exact .inl hadd
      | none =>
        obtain ⟨name, -, heq⟩ := add_eq reserved hfind
        rw [heq, List.mem_append, List.mem_singleton] at hadd
        rcases hadd with hold | rfl
        · exact .inl hold
        · exact .inr List.mem_cons_self
    · exact .inr (List.mem_cons_of_mem _ hmem)

/-- A slot that no node has goes by its plain name. -/
lemma nameOf_of_not_mem (h : s ∉ l) : (ofSlots l).nameOf s = s.plainName := by
  have hnone : (ofSlots l).find? s = none := by
    rw [find?_eq_none_iff]
    rintro e he rfl
    rcases mem_of_mem_entries he with hempty | hmem
    · simp at hempty
    · exact h hmem
  rw [nameOf, hnone, Option.getD_none]

/-- **Different slots have different variables.** -/
theorem nameOf_inj (hs : s ∈ l) (ht : t ∈ l)
    (h : (ofSlots l).nameOf s = (ofSlots l).nameOf t) : s = t := by
  obtain ⟨name, hname⟩ : ∃ name, (ofSlots l).find? s = some name := exists_find?_foldl hs
  obtain ⟨name', hname'⟩ : ∃ name, (ofSlots l).find? t = some name := exists_find?_foldl ht
  obtain rfl : name = name' := by simpa [nameOf, hname, hname'] using h
  have htaken : (ofSlots l).taken.Nodup := taken_foldl_nodup List.nodup_nil
  have hentry := List.inj_on_of_nodup_map htaken (mem_entries_of_find? hname)
    (mem_entries_of_find? hname') rfl
  exact (Prod.mk.inj hentry).1

/-! ## Which slots keep their plain names -/

/-- Variables of which each slot has one, and with each slot its plain name is taken, by this slot
or by another one. -/
structure Sound (vars : Variables) : Prop where
  slots_nodup : (vars.entries.map Prod.fst).Nodup
  plain_taken : ∀ e ∈ vars.entries, e.1.plainName ∈ vars.taken

lemma sound_empty : Sound ⟨[]⟩ := ⟨List.nodup_nil, by simp⟩

/-- Of the names that are reserved, the plain name of a slot is taken once the slot is there, and no
other one. -/
lemma Sound.mem_taken_add (h : vars.Sound) {x : String} (hx : x ∈ reserved) (s : Slot) :
    x ∈ (vars.add reserved s).taken ↔ x ∈ vars.taken ∨ s.plainName = x := by
  cases hfind : vars.find? s with
  | some name =>
    have hplain := h.plain_taken _ (mem_entries_of_find? hfind)
    rw [Variables.add, hfind]
    exact ⟨.inl, fun hor => hor.elim id fun heq => heq ▸ hplain⟩
  | none =>
    rw [taken_add reserved hfind, List.mem_append, List.mem_singleton, newName]
    by_cases hplain : s.plainName ∈ vars.taken
    · -- a name with a number is none of the reserved ones
      have hne : x ≠ leastFree (reserved ++ vars.taken) s.plainName := by
        rintro rfl
        exact leastFree_not_mem _ _ (List.mem_append_left _ hx)
      rw [if_pos hplain]
      exact ⟨fun hor => .inl (hor.resolve_right hne), fun hor => .inl (hor.elim id (· ▸ hplain))⟩
    · rw [if_neg hplain, eq_comm (a := x)]

lemma Sound.add (h : vars.Sound) (hs : s.plainName ∈ reserved) : (vars.add reserved s).Sound := by
  have hplain := (h.mem_taken_add hs s).2 (.inr rfl)
  cases hfind : vars.find? s with
  | some name =>
    rw [Variables.add, hfind]
    exact h
  | none =>
    refine ⟨?_, fun e he => ?_⟩
    · rw [add_of_find?_eq_none reserved hfind, List.map_append, List.nodup_append]
      refine ⟨h.slots_nodup, List.nodup_singleton _, ?_⟩
      rintro t ht u hu rfl
      obtain ⟨e, he, rfl⟩ := List.mem_map.1 ht
      exact find?_eq_none_iff.1 hfind e he (by simpa using hu)
    · rw [add_of_find?_eq_none reserved hfind, List.mem_append, List.mem_singleton] at he
      rcases he with hold | rfl
      · rw [taken_add reserved hfind]
        exact List.mem_append_left _ (h.plain_taken e hold)
      · exact hplain

lemma Sound.foldl (h : vars.Sound) (hl : ∀ s ∈ l, s.plainName ∈ reserved) :
    (l.foldl (Variables.add reserved) vars).Sound ∧
      ∀ x ∈ reserved, x ∈ (l.foldl (Variables.add reserved) vars).taken ↔
        x ∈ vars.taken ∨ ∃ s ∈ l, s.plainName = x := by
  induction l generalizing vars with
  | nil => simp [h]
  | cons s l ih =>
    obtain ⟨hsound, htaken⟩ := ih (h.add (hl s List.mem_cons_self))
      fun t ht => hl t (List.mem_cons_of_mem _ ht)
    refine ⟨hsound, fun x hx => ?_⟩
    rw [List.foldl_cons, htaken x hx, h.mem_taken_add hx, List.exists_mem_cons_iff, or_assoc]

lemma Sound.find?_eq_some_iff (h : vars.Sound) :
    vars.find? s = some name ↔ (s, name) ∈ vars.entries := by
  refine ⟨mem_entries_of_find?, fun hmem => ?_⟩
  cases hfind : vars.find? s with
  | none => exact absurd rfl (find?_eq_none_iff.1 hfind _ hmem)
  | some other =>
    have heq := List.inj_on_of_nodup_map h.slots_nodup (mem_entries_of_find? hfind) hmem rfl
    rw [(Prod.mk.inj heq).2]

/-! ## The slots in front of one -/

section Before

variable {before after : List Slot}

/-- The variables of the slots in front of some others. -/
def earlier (before after : List Slot) : Variables :=
  before.foldl (add ((before ++ after).map Slot.plainName)) ⟨[]⟩

lemma ofSlots_append (before after : List Slot) :
    ofSlots (before ++ after) =
      after.foldl (add ((before ++ after).map Slot.plainName)) (earlier before after) := by
  rw [ofSlots, List.foldl_append]
  rfl

lemma sound_earlier (before after : List Slot) : (earlier before after).Sound ∧
    ∀ x ∈ (before ++ after).map Slot.plainName,
      x ∈ (earlier before after).taken ↔ ∃ s ∈ before, s.plainName = x := by
  have hreserved : ∀ s ∈ before, s.plainName ∈ (before ++ after).map Slot.plainName :=
    fun s hs => List.mem_map.2 ⟨s, List.mem_append_left _ hs, rfl⟩
  obtain ⟨hsound, htaken⟩ := sound_empty.foldl hreserved
  refine ⟨hsound, fun x hx => ?_⟩
  rw [earlier, htaken x hx]
  simp [taken]

/-- A slot keeps the variable that it got first. -/
lemma nameOf_of_earlier (h : (earlier before after).find? s = some name) :
    (ofSlots (before ++ after)).nameOf s = name := by
  rw [nameOf, ofSlots_append, find?_foldl_of_find? h, Option.getD_some]

lemma mem_taken_earlier {x : String} : x ∈ (earlier before after).taken ↔
    ∃ t ∈ before, (ofSlots (before ++ after)).nameOf t = x := by
  constructor
  · intro hx
    obtain ⟨⟨t, name⟩, he, rfl⟩ := List.mem_map.1 hx
    have ht : t ∈ before := (mem_of_mem_entries he).resolve_left (by simp)
    exact ⟨t, ht, nameOf_of_earlier ((sound_earlier before after).1.find?_eq_some_iff.2 he)⟩
  · rintro ⟨t, ht, rfl⟩
    obtain ⟨name, hname⟩ : ∃ name, (earlier before after).find? t = some name :=
      exists_find?_foldl ht
    rw [nameOf_of_earlier hname]
    exact List.mem_map.2 ⟨_, mem_entries_of_find? hname, rfl⟩

/-- The variable of a slot depends on the slots in front of its first place. -/
lemma nameOf_eq_newName (hs : s ∉ before) :
    (ofSlots (before ++ s :: after)).nameOf s =
      (earlier before (s :: after)).newName ((before ++ s :: after).map Slot.plainName) s := by
  have hnone : (earlier before (s :: after)).find? s = none := by
    rw [find?_eq_none_iff]
    rintro e he rfl
    exact hs ((mem_of_mem_entries he).resolve_left (by simp))
  rw [nameOf, ofSlots_append, List.foldl_cons, find?_foldl_of_find? (find?_add_self _ hnone),
    Option.getD_some]

end Before

/-! ## How far the numbers go -/

lemma ofSlots_eq_earlier (l : List Slot) : ofSlots l = earlier l [] := by
  rw [earlier, List.append_nil, ofSlots]

lemma length_taken_le (l : List Slot) : (ofSlots l).taken.length ≤ l.length := by
  have hnodup : ((ofSlots l).entries.map Prod.fst).Nodup := by
    rw [ofSlots_eq_earlier]
    exact (sound_earlier l []).1.slots_nodup
  have hsub : (ofSlots l).entries.map Prod.fst ⊆ l := by
    intro s hs
    obtain ⟨e, he, rfl⟩ := List.mem_map.1 hs
    exact (mem_of_mem_entries he).resolve_left (by simp)
  have hle := (List.subperm_of_subset hnodup hsub).length_le
  rwa [List.length_map, ← List.length_map (f := Prod.snd)] at hle

end Variables

lemma numbered_ne (name : String) (n : ℕ) : numbered name n ≠ name := by
  intro h
  have hlength := congrArg String.length h
  rw [numbered, String.length_append, String.length_append] at hlength
  have hmark : "_".length = 1 := rfl
  omega

/-- As many names with a number as are taken, and one without. -/
lemma le_length_of_numbered {names : List String} {name : String} {n : ℕ} (hname : name ∈ names)
    (h : ∀ k, 2 ≤ k → k ≤ n → numbered name k ∈ names) : n ≤ names.length := by
  let found := name :: (List.range (n - 1)).map fun k => numbered name (k + 2)
  have hnodup : found.Nodup := by
    refine List.nodup_cons.2 ⟨fun hmem => ?_, nodup_numbered name (n - 1)⟩
    obtain ⟨k, -, hk⟩ := List.mem_map.1 hmem
    exact numbered_ne name _ hk
  have hsub : found ⊆ names := by
    intro x hx
    rcases List.mem_cons.1 hx with rfl | hmem
    · exact hname
    · obtain ⟨k, hk, rfl⟩ := List.mem_map.1 hmem
      have hlt := List.mem_range.1 hk
      exact h (k + 2) (by omega) (by omega)
  have hlength := (List.subperm_of_subset hnodup hsub).length_le
  simp only [found, List.length_cons, List.length_map, List.length_range] at hlength
  omega

/-! ## The variables of a plan -/

/-- A name that a slot behind those of `before` can get: it is the plain name of no slot of the
plan, and no slot of `before` has it. -/
def Unclaimed (p : Plan) (before : List Slot) (name : String) : Prop :=
  (∀ t ∈ slots p, t.plainName ≠ name) ∧ ∀ t ∈ before, (Variables.ofPlan p).nameOf t ≠ name

section Plan

variable {p : Plan} {before after : List Slot} {s : Slot}

lemma unclaimed_iff (hslots : slots p = before ++ s :: after) {name : String} :
    Unclaimed p before name ↔ name ∉ (before ++ s :: after).map Slot.plainName ++
      (Variables.earlier before (s :: after)).taken := by
  rw [Unclaimed, Variables.ofPlan, hslots, List.mem_append, not_or, Variables.mem_taken_earlier,
    List.mem_map]
  simp only [not_exists, not_and, ne_eq]

lemma nameOf_eq_plainName (hslots : slots p = before ++ s :: after) (hs : s ∉ before)
    (hfirst : ∀ t ∈ before, t.plainName ≠ s.plainName) :
    (Variables.ofPlan p).nameOf s = s.plainName := by
  have hmem : s.plainName ∈ (before ++ s :: after).map Slot.plainName :=
    List.mem_map.2 ⟨s, by simp, rfl⟩
  rw [Variables.ofPlan, hslots, Variables.nameOf_eq_newName hs, Variables.newName, if_neg]
  rw [(Variables.sound_earlier before (s :: after)).2 _ hmem]
  simpa using hfirst

/-- A slot whose plain name is taken gets the least number that makes it unclaimed. -/
lemma exists_number (hslots : slots p = before ++ s :: after) (hs : s ∉ before)
    (htaken : ∃ t ∈ before, t.plainName = s.plainName) :
    ∃ n, (Variables.ofPlan p).nameOf s = numbered s.plainName n ∧ 2 ≤ n ∧
      Unclaimed p before (numbered s.plainName n) ∧
        ∀ k, 2 ≤ k → k < n → ¬ Unclaimed p before (numbered s.plainName k) := by
  have hmem : s.plainName ∈ (before ++ s :: after).map Slot.plainName :=
    List.mem_map.2 ⟨s, by simp, rfl⟩
  have hplain := ((Variables.sound_earlier before (s :: after)).2 _ hmem).2 htaken
  obtain ⟨n, hn, hname, hfree, hleast⟩ := exists_leastFree
    ((before ++ s :: after).map Slot.plainName ++ (Variables.earlier before (s :: after)).taken)
    s.plainName
  refine ⟨n, ?_, hn, (unclaimed_iff hslots).2 hfree, fun k hk hlt hunclaimed => ?_⟩
  · rw [Variables.ofPlan, hslots, Variables.nameOf_eq_newName hs, Variables.newName, if_pos hplain,
      hname]
  · exact (unclaimed_iff hslots).1 hunclaimed (hleast k hk hlt)

/-- A name that is claimed belongs to some slot in the end. -/
lemma mem_taken_of_claimed (hslots : slots p = before ++ s :: after) {name : String}
    (h : ¬ Unclaimed p before name) : name ∈ (Variables.ofPlan p).taken := by
  have hclaimed : (∃ t ∈ slots p, t.plainName = name) ∨
      ∃ t ∈ before, (Variables.ofPlan p).nameOf t = name := by
    by_contra hnone
    push Not at hnone
    exact h hnone
  rw [Variables.ofPlan, Variables.ofSlots_eq_earlier]
  rcases hclaimed with ⟨t, ht, rfl⟩ | ⟨t, ht, rfl⟩
  · refine ((Variables.sound_earlier (slots p) []).2 _ ?_).2 ⟨t, ht, rfl⟩
    exact List.mem_map.2 ⟨t, List.mem_append_left _ ht, rfl⟩
  · rw [Variables.mem_taken_earlier, List.append_nil]
    exact ⟨t, hslots ▸ List.mem_append_left _ ht, rfl⟩

/-- All names that were tried before a number are taken in the end, and so is the one with it. -/
lemma number_le (hslots : slots p = before ++ s :: after)
    (htaken : ∃ t ∈ before, t.plainName = s.plainName) {n : ℕ}
    (hname : (Variables.ofPlan p).nameOf s = numbered s.plainName n)
    (hleast : ∀ k, 2 ≤ k → k < n → ¬ Unclaimed p before (numbered s.plainName k)) :
    n ≤ (slots p).length := by
  have hmem : s ∈ slots p := by simp [hslots]
  have hplain : s.plainName ∈ (Variables.ofPlan p).taken := by
    obtain ⟨t, ht, hsame⟩ := htaken
    refine mem_taken_of_claimed hslots fun hunclaimed => ?_
    exact hunclaimed.1 t (hslots ▸ List.mem_append_left _ ht) hsame
  refine Nat.le_trans (le_length_of_numbered hplain fun k hk hle => ?_)
    (Variables.length_taken_le (slots p))
  rcases Nat.lt_or_eq_of_le hle with hlt | rfl
  · exact mem_taken_of_claimed hslots (hleast k hk hlt)
  · obtain ⟨name, hfind⟩ : ∃ name, (Variables.ofPlan p).find? s = some name :=
      Variables.exists_find?_foldl hmem
    rw [← hname, Variables.nameOf, hfind, Option.getD_some]
    exact List.mem_map.2 ⟨_, Variables.mem_entries_of_find? hfind, rfl⟩

/-- The variable of a slot is its plain name, with a number or without. -/
lemma nameOf_cases (hs : s ∈ slots p) : (Variables.ofPlan p).nameOf s = s.plainName ∨
    ∃ n, (Variables.ofPlan p).nameOf s = numbered s.plainName n := by
  obtain ⟨before, after, hslots, hnew⟩ := List.eq_append_cons_of_mem hs
  by_cases htaken : ∃ t ∈ before, t.plainName = s.plainName
  · obtain ⟨n, hn, -⟩ := exists_number hslots hnew htaken
    exact .inr ⟨n, hn⟩
  · push Not at htaken
    exact .inl (nameOf_eq_plainName hslots hnew htaken)

lemma isIdentifier_nameOf (hs : s ∈ slots p) : IsIdentifier ((Variables.ofPlan p).nameOf s) ∧
    ∃ tail, (Variables.ofPlan p).nameOf s = "node_" ++ tail := by
  have htail : IsPlainText ((Variables.ofPlan p).nameOf s) ∧
      ∃ tail, (Variables.ofPlan p).nameOf s = "node_" ++ tail := by
    obtain ⟨tail, htail⟩ := exists_plainName_eq s
    rcases nameOf_cases hs with hname | ⟨n, hname⟩
    · rw [hname]
      exact ⟨isPlainText_plainName s, tail, htail⟩
    · rw [hname]
      refine ⟨isPlainText_numbered (isPlainText_plainName s) n, tail ++ "_" ++ toString n, ?_⟩
      rw [numbered, htail, String.append_assoc, String.append_assoc, String.append_assoc]
  obtain ⟨hplain, tail, heq⟩ := htail
  rw [heq] at hplain ⊢
  exact ⟨isIdentifier_node_append hplain, tail, rfl⟩

end Plan

/-- **Each slot has a variable of its own**, whatever the ids and the outputs of a plan are.  The
variable is an identifier, and different slots have different ones.  Of the slots with one plain
name the first keeps it.  Each other one gets the least number from two on with which the name is
neither the plain name of a slot nor the variable of an earlier slot; it is at most the number of
slots, so that the search for it ends. -/
theorem variables_distinct (p : Plan) :
    (∀ s ∈ slots p, (Variables.ofPlan p).find? s = some ((Variables.ofPlan p).nameOf s) ∧
      IsIdentifier ((Variables.ofPlan p).nameOf s) ∧
        ∃ tail, (Variables.ofPlan p).nameOf s = "node_" ++ tail) ∧
    (∀ s ∈ slots p, ∀ t ∈ slots p,
      (Variables.ofPlan p).nameOf s = (Variables.ofPlan p).nameOf t → s = t) ∧
    ∀ before s after, slots p = before ++ s :: after → s ∉ before →
      ((∀ t ∈ before, t.plainName ≠ s.plainName) →
        (Variables.ofPlan p).nameOf s = s.plainName) ∧
      ((∃ t ∈ before, t.plainName = s.plainName) →
        ∃ n, (Variables.ofPlan p).nameOf s = numbered s.plainName n ∧
          2 ≤ n ∧ n ≤ (slots p).length ∧ Unclaimed p before (numbered s.plainName n) ∧
            ∀ k, 2 ≤ k → k < n → ¬ Unclaimed p before (numbered s.plainName k)) := by
  refine ⟨fun s hs => ⟨?_, isIdentifier_nameOf hs⟩, fun s hs t ht => Variables.nameOf_inj hs ht, ?_⟩
  · obtain ⟨name, hname⟩ : ∃ name, (Variables.ofPlan p).find? s = some name :=
      Variables.exists_find?_foldl hs
    rw [Variables.nameOf, hname, Option.getD_some]
  · intro before s after hslots hs
    refine ⟨nameOf_eq_plainName hslots hs, fun htaken => ?_⟩
    obtain ⟨n, hname, hn, hfree, hleast⟩ := exists_number hslots hs htaken
    exact ⟨n, hname, hn, number_le hslots htaken hname hleast, hfree, hleast⟩

/-- A plan in which two outputs have one plain name, which a third output has with the number two;
in which the result of a node has the plain name of an output; and in which an id comes twice. -/
def colliding : Plan where
  nodes := [
    ⟨"a-b", 0, "f", ["out"], [], .static "f", [], 0⟩,
    ⟨"a_b", 1, "f", ["out"], [], .static "f", [], 0⟩,
    ⟨"a_b_out", 2, "f", ["2"], [], .static "f", [], 0⟩,
    ⟨"s", 3, "f", ["lo", "hi"], [], .static "f", [], 0⟩,
    ⟨"s_lo", 4, "f", ["a", "b"], [], .static "f", [], 0⟩,
    ⟨"a-b", 5, "f", ["out"], [], .static "f", [], 0⟩]

theorem variables_distinct_colliding :
    (Variables.ofPlan colliding).nameOf (.output "a-b" "out") = "node_a_b_out" ∧
      (Variables.ofPlan colliding).nameOf (.output "a_b" "out") = "node_a_b_out_3" ∧
      ¬ Unclaimed colliding [.output "a-b" "out"] "node_a_b_out_2" ∧
      IsIdentifier ((Variables.ofPlan colliding).nameOf (.result "s_lo")) ∧
      (Variables.ofPlan colliding).nameOf (.result "s_lo") ≠
        (Variables.ofPlan colliding).nameOf (.output "s" "lo") := by
  have hthird : (Variables.ofPlan colliding).nameOf (.output "a_b" "out") =
      numbered "node_a_b_out" 3 := by decide
  obtain ⟨hidentifier, hdistinct, hnumbers⟩ := variables_distinct colliding
  obtain ⟨hfirst, -⟩ := hnumbers [] (.output "a-b" "out") _ rfl (by decide)
  obtain ⟨-, hnext⟩ := hnumbers [.output "a-b" "out"] (.output "a_b" "out") _ rfl (by decide)
  obtain ⟨n, hn, -, -, -, hleast⟩ := hnext (by decide)
  obtain rfl : 3 = n := numbered_inj (hthird.symm.trans hn)
  refine ⟨hfirst (by simp), hthird, hleast 2 (by omega) (by omega),
    (hidentifier _ (by decide)).2.1, ?_⟩
  intro hsame
  exact absurd (hdistinct _ (by decide) _ (by decide) hsame) (by decide)

end Dataflow.Program
