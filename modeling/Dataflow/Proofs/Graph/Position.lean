import Mathlib.Data.List.Induction
import Mathlib.Data.List.Nodup
import Mathlib.Logic.Relation
import Dataflow.Schedule

/-!
# Places of nodes

The ids of a graph are distinct, so that the place of an id in the declaration order says the
same as the id.  Every connection joins two places, and the edges among the places are the
connections, one for one and in their order.
-/

namespace Dataflow

/-! ## Lists with distinct keys -/

section Keys

variable {α : Type} {key : α → String} {l : List α}

/-- With distinct keys, the first entry that has a key is the only one. -/
lemma findIdx?_key_eq_some_iff (h : (l.map key).Nodup) {k : String} {i : ℕ} :
    l.findIdx? (fun a => key a = k) = some i ↔ ∃ a, l[i]? = some a ∧ key a = k := by
  rw [List.findIdx?_eq_some_iff_getElem]
  constructor
  · rintro ⟨hi, hk, -⟩
    exact ⟨l[i], List.getElem?_eq_getElem hi, by simpa using hk⟩
  · rintro ⟨a, ha, rfl⟩
    obtain ⟨hi, rfl⟩ := List.getElem?_eq_some_iff.1 ha
    refine ⟨hi, by simp, fun j hj hkey => ?_⟩
    -- an entry with the same key in front of `i` would be a second one
    have hi' : i < (l.map key).length := by rwa [List.length_map]
    have hj' : j < (l.map key).length := by omega
    have heq : (l.map key)[j] = (l.map key)[i] := by simpa using hkey
    have hji : j = i := (List.Nodup.getElem_inj_iff h).1 heq
    omega

lemma exists_findIdx?_key {k : String} (hk : k ∈ l.map key) :
    ∃ i, l.findIdx? (fun a => key a = k) = some i := by
  obtain ⟨a, ha, rfl⟩ := List.mem_map.1 hk
  have hsome : (l.findIdx? fun b => key b = key a).isSome = true := by
    rw [List.findIdx?_isSome, List.any_eq_true]
    exact ⟨a, ha, by simp⟩
  exact Option.isSome_iff_exists.1 hsome

end Keys

/-- A list with increasing keys is what sorting makes of every list with the same members. -/
lemma mergeSort_eq_of_perm {α : Type} {key : α → ℕ} {l l' : List α} (h : l.Perm l')
    (hl' : l'.Pairwise fun a b => key a < key b) :
    (l.mergeSort fun a b => key a ≤ key b) = l' := by
  let le : α → α → Bool := fun a b => decide (key a ≤ key b)
  have hsorted : (l.mergeSort le).Pairwise fun a b => le a b := by
    refine List.pairwise_mergeSort (fun a b c hab hbc => ?_) (fun a b => ?_) l
    · simp only [le, decide_eq_true_eq] at hab hbc ⊢
      omega
    · simp only [le, Bool.or_eq_true, decide_eq_true_eq]
      omega
  have hsorted' : l'.Pairwise fun a b => le a b := hl'.imp fun hab => by
    simp only [le, decide_eq_true_eq]
    omega
  have hperm : (l.mergeSort le).Perm l' := (List.mergeSort_perm l le).trans h
  -- two members with one key are the same, as keys increase
  have hkeys : (l'.map key).Nodup := List.pairwise_map.2 (hl'.imp fun hab => by omega)
  refine List.Perm.eq_of_pairwise (fun a b ha hb hab hba => ?_) hsorted hsorted' hperm
  refine List.inj_on_of_nodup_map hkeys (hperm.mem_iff.1 ha) hb ?_
  simp only [le, decide_eq_true_eq] at hab hba
  omega

/-- The members of a list, taken by their places. -/
lemma filterMap_getElem?_range {α : Type} (l : List α) :
    (List.range l.length).filterMap (fun i => l[i]?) = l := by
  induction l using List.reverseRecOn with
  | nil => rfl
  | append_singleton l a ih =>
    have hinit : (List.range l.length).filterMap (fun i => (l ++ [a])[i]?) = l := by
      conv_rhs => rw [← ih]
      refine List.filterMap_congr fun i hi => ?_
      rw [List.getElem?_append_left (List.mem_range.1 hi)]
    rw [List.length_append, List.length_singleton, List.range_succ, List.filterMap_append, hinit]
    simp

namespace Graph

variable {g : Graph}

/-! ## Ids and places -/

/-- The ids at all places are those of the nodes, in declaration order. -/
lemma idsAt_range (g : Graph) : g.idsAt (List.range g.size) = g.nodes.map Node.id := by
  conv_rhs => rw [← filterMap_getElem?_range g.nodes]
  rw [List.map_filterMap]
  rfl

lemma position?_eq_some_iff {id : String} {i : ℕ} :
    g.position? id = some i ↔ ∃ n, g.nodes[i]? = some n ∧ n.id = id :=
  findIdx?_key_eq_some_iff g.valid.ids_nodup

lemma exists_position? {id : String} (h : id ∈ g.nodes.map Node.id) :
    ∃ i, g.position? id = some i :=
  exists_findIdx?_key h

lemma lt_size_of_position? {id : String} {i : ℕ} (h : g.position? id = some i) : i < g.size := by
  obtain ⟨n, hn, -⟩ := position?_eq_some_iff.1 h
  exact (List.getElem?_eq_some_iff.1 hn).1

lemma mem_idsAt_iff {places : List ℕ} {id : String} :
    id ∈ g.idsAt places ↔ ∃ v ∈ places, g.position? id = some v := by
  simp only [idsAt, List.mem_filterMap, Option.map_eq_some_iff, position?_eq_some_iff]

/-- Two ids at one place are the same. -/
lemma position?_inj {a b : String} {i : ℕ} (ha : g.position? a = some i)
    (hb : g.position? b = some i) : a = b := by
  obtain ⟨m, hm, rfl⟩ := position?_eq_some_iff.1 ha
  obtain ⟨n, hn, rfl⟩ := position?_eq_some_iff.1 hb
  rw [hm] at hn
  rw [Option.some.inj hn]

/-! ## Edges -/

/-- A connection leads from its origin to its target. -/
def Leads (g : Graph) (a b : String) : Prop :=
  ∃ c ∈ g.connections, c.fromNode = a ∧ c.toNode = b

/-- No way along the connections leads from a node back to it. -/
def Acyclic (g : Graph) : Prop := ∀ id, ¬ Relation.TransGen g.Leads id id

/-- Both ends of a connection have a place. -/
lemma exists_positions {c : Connection} (hc : c ∈ g.connections) :
    ∃ u v, g.position? c.fromNode = some u ∧ g.position? c.toNode = some v := by
  obtain ⟨u, hu⟩ := exists_position? (g.valid.from_declared c hc)
  obtain ⟨v, hv⟩ := exists_position? (g.valid.to_declared c hc)
  exact ⟨u, v, hu, hv⟩

lemma edge?_eq_some_iff {c : Connection} {e : ℕ × ℕ} :
    g.edge? c = some e ↔ g.position? c.fromNode = some e.1 ∧ g.position? c.toNode = some e.2 := by
  obtain ⟨u, v⟩ := e
  cases hu : g.position? c.fromNode <;> cases hv : g.position? c.toNode <;> simp [edge?, hu, hv]

lemma mem_edges_iff {u v : ℕ} :
    (u, v) ∈ g.dependencies.edges ↔
      ∃ c ∈ g.connections, g.position? c.fromNode = some u ∧ g.position? c.toNode = some v := by
  simp only [dependencies, List.mem_filterMap, edge?_eq_some_iff]

lemma edges_lt {e : ℕ × ℕ} (he : e ∈ g.dependencies.edges) : e.1 < g.size ∧ e.2 < g.size := by
  obtain ⟨c, -, hu, hv⟩ := mem_edges_iff.1 he
  exact ⟨lt_size_of_position? hu, lt_size_of_position? hv⟩

/-- No connection is lost among the edges, and their order stays. -/
lemma map_edges :
    g.dependencies.edges.map (fun e => (some e.1, some e.2)) =
      g.connections.map fun c => (g.position? c.fromNode, g.position? c.toNode) := by
  have key : ∀ l : List Connection, (∀ c ∈ l, c ∈ g.connections) →
      (l.filterMap g.edge?).map (fun e => (some e.1, some e.2)) =
        l.map fun c => (g.position? c.fromNode, g.position? c.toNode) := by
    intro l
    induction l with
    | nil => intro _; rfl
    | cons c l ih =>
      intro hl
      obtain ⟨u, v, hu, hv⟩ := exists_positions (hl c List.mem_cons_self)
      have hedge : g.edge? c = some (u, v) := edge?_eq_some_iff.2 ⟨hu, hv⟩
      rw [List.filterMap_cons_some hedge, List.map_cons, List.map_cons, hu, hv,
        ih fun d hd => hl d (List.mem_cons_of_mem _ hd)]
  exact key g.connections fun _ hc => hc

/-- A way along the edges is a way along the connections. -/
lemma transGen_leads {u v : ℕ}
    (h : Relation.TransGen (fun a b => (a, b) ∈ g.dependencies.edges) u v) {a b : String}
    (ha : g.position? a = some u) (hb : g.position? b = some v) :
    Relation.TransGen g.Leads a b := by
  induction h generalizing b with
  | single he =>
    obtain ⟨c, hc, hu, hv⟩ := mem_edges_iff.1 he
    exact .single ⟨c, hc, position?_inj hu ha, position?_inj hv hb⟩
  | tail _ he ih =>
    obtain ⟨c, hc, hu, hv⟩ := mem_edges_iff.1 he
    exact (ih hu).tail ⟨c, hc, rfl, position?_inj hv hb⟩

end Graph

end Dataflow
