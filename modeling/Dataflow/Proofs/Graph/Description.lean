import Dataflow.Graph.Description
import Dataflow.Proofs.Value.Json

/-!
# Defaults in descriptions

The default of an input is nested at most so deep as its place in a description leaves room
for (`Graph.depth_default_le`).
-/

namespace Dataflow

variable {α β ε : Type}

lemma exists_of_mapM_eq_some {f : α → Option β} {l : List α} {l' : List β} {b : β}
    (h : l.mapM f = some l') (hb : b ∈ l') : ∃ a ∈ l, f a = some b := by
  induction l generalizing l' with
  | nil =>
    obtain rfl : [] = l' := Option.some.inj h
    simp at hb
  | cons a l ih =>
    simp only [List.mapM_cons, Option.bind_eq_bind, Option.bind_eq_some_iff, Option.pure_def,
      Option.some.injEq] at h
    obtain ⟨b', hb', tail, htail, rfl⟩ := h
    rcases List.mem_cons.1 hb with rfl | hb
    · exact ⟨a, List.mem_cons_self, hb'⟩
    · obtain ⟨a', ha', heq⟩ := ih htail hb
      exact ⟨a', List.mem_cons_of_mem a ha', heq⟩

lemma exists_of_bind_eq_ok {x : Except ε α} {f : α → Except ε β} {b : β}
    (h : (x >>= f) = .ok b) : ∃ a, x = .ok a ∧ f a = .ok b := by
  cases x with
  | error e => exact absurd h (by intro h; cases h)
  | ok a => exact ⟨a, rfl, h⟩

lemma exists_of_mapM_eq_ok {f : α → Except ε β} {l : List α} {l' : List β} {b : β}
    (h : l.mapM f = .ok l') (hb : b ∈ l') : ∃ a ∈ l, f a = .ok b := by
  induction l generalizing l' with
  | nil =>
    obtain rfl : [] = l' := Except.ok.inj h
    simp at hb
  | cons a l ih =>
    rw [List.mapM_cons] at h
    obtain ⟨b', hb', h⟩ := exists_of_bind_eq_ok h
    obtain ⟨tail, htail, h⟩ := exists_of_bind_eq_ok h
    obtain rfl := Except.ok.inj h
    rcases List.mem_cons.1 hb with rfl | hb
    · exact ⟨a, List.mem_cons_self, hb'⟩
    · obtain ⟨a', ha', heq⟩ := ih htail hb
      exact ⟨a', List.mem_cons_of_mem a ha', heq⟩

lemma ok_of_mapM_eq_ok {f : α → Except ε β} {l : List α} {l' : List β} {a : α}
    (h : l.mapM f = .ok l') (ha : a ∈ l) : ∃ b, f a = .ok b := by
  induction l generalizing l' with
  | nil => cases ha
  | cons a' l ih =>
    rw [List.mapM_cons] at h
    obtain ⟨b, hb, h⟩ := exists_of_bind_eq_ok h
    obtain ⟨tail, htail, -⟩ := exists_of_bind_eq_ok h
    rcases List.mem_cons.1 ha with rfl | ha
    · exact ⟨b, hb⟩
    · exact ih htail ha

/-! ## Entries -/

namespace Json

lemma exists_of_optional? {read : Json → Option α} {j : Option Json} {a : α}
    (h : optional? read j = some (some a)) : ∃ j', read j' = some a := by
  unfold optional? at h
  split at h
  · simp at h
  · simp at h
  · rename_i j' _
    rw [Option.map_eq_some_iff] at h
    obtain ⟨a', hread, heq⟩ := h
    exact ⟨j', by rw [hread, heq]⟩

lemma exists_of_listOrEmpty? {read : Json → Option α} {j : Option Json} {l : List α} {a : α}
    (h : listOrEmpty? read j = some l) (ha : a ∈ l) : ∃ j', read j' = some a := by
  cases j with
  | none =>
    obtain rfl := Option.some.inj h
    simp at ha
  | some j =>
    rw [listOrEmpty?, Option.bind_eq_some_iff] at h
    obtain ⟨items, -, hitems⟩ := h
    obtain ⟨j', -, hread⟩ := exists_of_mapM_eq_some hitems ha
    exact ⟨j', hread⟩

end Json

lemma InputEntry.depth_default_le {j : Json} {e : InputEntry} {v : Value}
    (h : ofJson? j = some e) (hv : e.default = some v) : v.depth ≤ defaultDepth := by
  simp only [ofJson?, Option.bind_eq_bind, Option.bind_eq_some_iff] at h
  obtain ⟨fields, -, h⟩ := h
  split at h
  · simp only [Option.bind_eq_some_iff, Option.pure_def, Option.some.injEq] at h
    obtain ⟨name, -, default, hdefault, type, -, rfl⟩ := h
    obtain rfl : default = some v := hv
    obtain ⟨j', hread⟩ := Json.exists_of_optional? hdefault
    unfold defaultOf? at hread
    split at hread
    · rename_i hreadable
      rw [← Option.some.inj hread]
      exact Value.depth_ofJson_le hreadable
    · simp at hread
  · simp at h

lemma NodeEntry.exists_input {j : Json} {e : NodeEntry} {i : InputEntry}
    (h : ofJson? j = some e) (hi : i ∈ e.inputs) : ∃ j', InputEntry.ofJson? j' = some i := by
  simp only [ofJson?, Option.bind_eq_bind, Option.bind_eq_some_iff] at h
  obtain ⟨fields, -, h⟩ := h
  split at h
  · simp only [Option.bind_eq_some_iff, Option.pure_def, Option.some.injEq] at h
    obtain ⟨_, -, _, -, inputs, hinputs, _, -, _, -, _, -, _, -, rfl⟩ := h
    exact Json.exists_of_listOrEmpty? hinputs hi
  · simp at h

lemma Description.exists_node {j : Json} {d : Description} {nodes : List NodeEntry} {e : NodeEntry}
    (h : ofJson? j = some d) (hnodes : d.nodes = some nodes) (he : e ∈ nodes) :
    ∃ j', NodeEntry.ofJson? j' = some e := by
  simp only [ofJson?, Option.bind_eq_bind, Option.bind_eq_some_iff] at h
  obtain ⟨fields, -, h⟩ := h
  split at h
  · simp only [Option.bind_eq_some_iff, Option.pure_def, Option.some.injEq] at h
    obtain ⟨entries, hentries, _, -, rfl⟩ := h
    obtain rfl : entries = some nodes := hnodes
    obtain ⟨j', hread⟩ := Json.exists_of_optional? hentries
    exact Json.exists_of_listOrEmpty? hread he
  · simp at h

/-! ## Nodes -/

lemma eq_some_of_required {fault : GraphFault} {a? : Option α} {a : α}
    (h : required fault a? = .ok a) : a? = some a := by
  cases a? with
  | none => cases h
  | some a' => rw [Except.ok.inj h]

lemma NodeEntry.exists_default {position : ℕ} {e : NodeEntry} {n : Node} {i : Input}
    (h : e.node position = .ok n) (hi : i ∈ n.inputs) :
    ∃ entry ∈ e.inputs, entry.default = i.default := by
  rw [node] at h
  obtain ⟨id, -, h⟩ := exists_of_bind_eq_ok h
  obtain ⟨outputs, -, h⟩ := exists_of_bind_eq_ok h
  obtain ⟨inputs, hinputs, h⟩ := exists_of_bind_eq_ok h
  obtain ⟨outputs', -, h⟩ := exists_of_bind_eq_ok h
  obtain rfl := Except.ok.inj h
  obtain ⟨entry, hentry, hinput⟩ := exists_of_mapM_eq_ok hinputs hi
  obtain ⟨name, -, hinput⟩ := exists_of_bind_eq_ok hinput
  obtain rfl := Except.ok.inj hinput
  exact ⟨entry, hentry, rfl⟩

lemma Graph.nodes_of_ofParts {nodes : List Node} {connections : List Connection} {g : Graph}
    (h : ofParts nodes connections = .ok g) : g.nodes = nodes := by
  unfold ofParts at h
  split at h
  · cases h
  · obtain rfl := Except.ok.inj h
    rfl

/-- The defaults of a graph that was read are nested no deeper than their place allows. -/
theorem Graph.depth_default_le {text : String} {g : Graph} (h : ofText text = .ok g) {n : Node}
    (hn : n ∈ g.nodes) {i : Input} (hi : i ∈ n.inputs) {v : Value} (hv : i.default = some v) :
    v.depth ≤ InputEntry.defaultDepth := by
  obtain ⟨⟨nodes, connections⟩, hparts, h⟩ := exists_of_bind_eq_ok h
  obtain rfl := nodes_of_ofParts h
  obtain ⟨d, hd, hparts⟩ := exists_of_bind_eq_ok hparts
  obtain ⟨entries, hentries, hparts⟩ := exists_of_bind_eq_ok hparts
  obtain ⟨_, hnodes, hparts⟩ := exists_of_bind_eq_ok hparts
  obtain ⟨_, -, hparts⟩ := exists_of_bind_eq_ok hparts
  obtain ⟨rfl, rfl⟩ := Prod.mk.inj (Except.ok.inj hparts)
  obtain ⟨tree, htree⟩ : ∃ tree, Description.ofJson? tree = some d := by
    obtain ⟨tree, -, htree⟩ := Option.bind_eq_some_iff.1 (eq_some_of_required hd)
    exact ⟨tree, htree⟩
  obtain ⟨⟨e, position⟩, he, hnode⟩ := exists_of_mapM_eq_ok hnodes hn
  have he := List.mem_of_getElem? (List.mk_mem_zipIdx_iff_getElem?.1 he)
  obtain ⟨j, hj⟩ := Description.exists_node htree (eq_some_of_required hentries) he
  obtain ⟨entry, hentry, hdefault⟩ := NodeEntry.exists_default hnode hi
  obtain ⟨j', hj'⟩ := NodeEntry.exists_input hj hentry
  exact InputEntry.depth_default_le hj' (by rw [hdefault, hv])

end Dataflow
