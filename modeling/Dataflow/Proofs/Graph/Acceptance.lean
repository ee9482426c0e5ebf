import Dataflow.Proofs.Graph.Position

/-!
# Which parts make a graph

The faults are looked for one after the other, with a list of what has been met before.  What is
found in the end is whether the parts are well-formed, so that exactly the well-formed ones are
accepted (`Graph.exists_ofParts_iff`).  In what is accepted an id has one place, the one that an
index of the ids would keep for it, and an input has one connection at most (`Graph.acceptance`).
Being well-formed says nothing of the order of the parts: when they are written down in another
order, they are accepted as well.
-/

namespace Dataflow

namespace Graph

variable {g : Graph} {nodes nodes' : List Node} {connections connections' : List Connection}

/-! ## Faults -/

lemma idFault?_eq_none_iff {seen : List String} :
    idFault? seen nodes = none ↔
      (∀ n ∈ nodes, n.id ≠ "") ∧ (nodes.map Node.id).Nodup ∧ ∀ n ∈ nodes, n.id ∉ seen := by
  refine ⟨of_idFault?_eq_none, ?_⟩
  induction nodes generalizing seen with
  | nil => exact fun _ => rfl
  | cons n rest ih =>
    rintro ⟨hne, hnodup, hseen⟩
    rw [List.map_cons, List.nodup_cons] at hnodup
    rw [idFault?, if_neg (hne n List.mem_cons_self), if_neg (hseen n List.mem_cons_self)]
    refine ih ⟨fun m hm => hne m (List.mem_cons_of_mem _ hm), hnodup.2, fun m hm => ?_⟩
    -- neither the id of `n` nor one that was seen before
    rw [List.mem_cons, not_or]
    refine ⟨fun heq => hnodup.1 ?_, hseen m (List.mem_cons_of_mem _ hm)⟩
    exact List.mem_map.2 ⟨m, hm, heq⟩

lemma linkFault?_eq_none_iff {ids : List String} {taken : List (String × String)}
    {c : Connection} :
    linkFault? ids taken c = none ↔ c.fromNode ∈ ids ∧ c.toNode ∈ ids ∧ c.target ∉ taken := by
  refine ⟨of_linkFault?_eq_none, ?_⟩
  rintro ⟨hfrom, hto, htaken⟩
  rw [linkFault?, if_neg (not_not_intro hfrom), if_neg (not_not_intro hto), if_neg htaken]

lemma linksFault?_eq_none_iff {ids : List String} {taken : List (String × String)} :
    linksFault? ids taken connections = none ↔
      (∀ c ∈ connections, c.fromNode ∈ ids ∧ c.toNode ∈ ids) ∧
        (connections.map Connection.target).Nodup ∧ ∀ c ∈ connections, c.target ∉ taken := by
  refine ⟨of_linksFault?_eq_none, ?_⟩
  induction connections generalizing taken with
  | nil => exact fun _ => rfl
  | cons c rest ih =>
    rintro ⟨hends, hnodup, htaken⟩
    rw [List.map_cons, List.nodup_cons] at hnodup
    have hc : linkFault? ids taken c = none :=
      linkFault?_eq_none_iff.2 ⟨(hends c List.mem_cons_self).1, (hends c List.mem_cons_self).2,
        htaken c List.mem_cons_self⟩
    rw [linksFault?, hc]
    refine ih ⟨fun d hd => hends d (List.mem_cons_of_mem _ hd), hnodup.2, fun d hd => ?_⟩
    rw [List.mem_cons, not_or]
    refine ⟨fun heq => hnodup.1 ?_, htaken d (List.mem_cons_of_mem _ hd)⟩
    exact List.mem_map.2 ⟨d, hd, heq⟩

/-- The parts without a fault are the well-formed ones. -/
lemma fault?_eq_none_iff : fault? nodes connections = none ↔ Valid nodes connections := by
  refine ⟨valid_of_fault?_eq_none, fun h => ?_⟩
  have hids : idFault? [] nodes = none :=
    idFault?_eq_none_iff.2 ⟨h.id_ne_empty, h.ids_nodup, by simp⟩
  have hlinks : linksFault? (nodes.map Node.id) [] connections = none :=
    linksFault?_eq_none_iff.2
      ⟨fun c hc => ⟨h.from_declared c hc, h.to_declared c hc⟩, h.targets_nodup, by simp⟩
  rw [fault?, hids]
  exact hlinks

/-! ## Acceptance -/

/-- A graph is made of its own parts and of no others. -/
lemma ofParts_eq_ok_iff :
    ofParts nodes connections = .ok g ↔ g.nodes = nodes ∧ g.connections = connections := by
  constructor
  · intro h
    unfold ofParts at h
    split at h
    · simp at h
    · obtain rfl := Except.ok.inj h
      exact ⟨rfl, rfl⟩
  · rintro ⟨rfl, rfl⟩
    have hfault : fault? g.nodes g.connections = none := fault?_eq_none_iff.2 g.valid
    unfold ofParts
    split
    · rename_i fault hsome
      rw [hfault] at hsome
      simp at hsome
    · rfl

/-- Parts are accepted if and only if they are well-formed. -/
lemma exists_ofParts_iff :
    (∃ g, ofParts nodes connections = .ok g) ↔ Valid nodes connections := by
  constructor
  · rintro ⟨g, h⟩
    obtain ⟨rfl, rfl⟩ := ofParts_eq_ok_iff.1 h
    exact g.valid
  · exact fun h => ⟨⟨nodes, connections, h⟩, ofParts_eq_ok_iff.2 ⟨rfl, rfl⟩⟩

/-! ## The index of the ids -/

/-- An index with the places of some more nodes, of which the first one stands at `place`.  There
is none if an id is empty or has a place already. -/
def indexFrom? (index : Dict ℕ) (place : ℕ) : List Node → Option (Dict ℕ)
  | [] => some index
  | n :: rest =>
    if n.id = "" ∨ index.contains n.id then none
    else indexFrom? (index.insert n.id place) (place + 1) rest

lemma contains_insert_iff {index : Dict ℕ} {place : ℕ} {name id : String} :
    (index.insert name place).contains id = true ↔ id = name ∨ index.contains id = true := by
  rw [Entries.contains, Entries.contains, Dict.find?_insert]
  by_cases h : id = name <;> simp [h]

/-- The loop that builds the index stops at the nodes at which the one that looks for faults does. -/
lemma exists_indexFrom?_iff {seen : List String} {index : Dict ℕ} {place : ℕ}
    (hseen : ∀ id, index.contains id = true ↔ id ∈ seen) :
    (∃ index', indexFrom? index place nodes = some index') ↔ idFault? seen nodes = none := by
  induction nodes generalizing seen index place with
  | nil => simp [indexFrom?, idFault?]
  | cons n rest ih =>
    rw [indexFrom?, idFault?]
    by_cases hempty : n.id = ""
    · simp [hempty]
    · by_cases hmem : n.id ∈ seen
      · simp [hempty, hmem, (hseen n.id).2 hmem]
      · rw [if_neg hempty, if_neg hmem, if_neg (by simp [hempty, hseen, hmem])]
        refine ih fun id => ?_
        rw [contains_insert_iff, hseen, List.mem_cons]

/-- An index has a place for none of the ids that are added to it. -/
lemma not_contains_of_indexFrom? {index index' : Dict ℕ} {place : ℕ}
    (h : indexFrom? index place nodes = some index') : ∀ n ∈ nodes, ¬ index.contains n.id = true := by
  induction nodes generalizing index place with
  | nil => simp
  | cons n rest ih =>
    rw [indexFrom?] at h
    split at h
    · simp at h
    · rename_i hnew
      intro m hm
      rcases List.mem_cons.1 hm with rfl | hrest
      · exact fun hcontains => hnew (.inr hcontains)
      · exact fun hcontains => ih h m hrest (contains_insert_iff.2 (.inr hcontains))

/-- An index tells the place of each id that was added. -/
lemma find?_indexFrom? {index index' : Dict ℕ} {place : ℕ}
    (h : indexFrom? index place nodes = some index') (id : String) :
    index'.find? id =
      ((nodes.findIdx? fun n => n.id = id).map (place + ·)).or (index.find? id) := by
  induction nodes generalizing index place with
  | nil =>
    obtain rfl := Option.some.inj h
    simp
  | cons n rest ih =>
    have hnew := not_contains_of_indexFrom? h
    rw [indexFrom?] at h
    split at h
    · simp at h
    · have hrest := not_contains_of_indexFrom? h
      rw [ih h, Dict.find?_insert, List.findIdx?_cons]
      by_cases hid : id = n.id
      · -- no node of the rest has this id
        subst hid
        have hnone : (rest.findIdx? fun m => m.id = n.id) = none := by
          rw [List.findIdx?_eq_none_iff]
          intro m hm
          have hne : m.id ≠ n.id := fun heq => hrest m hm (contains_insert_iff.2 (.inl heq))
          simpa using hne
        simp [hnone]
      · have hid' : ¬ n.id = id := fun heq => hid heq.symm
        simp only [hid, hid', if_false, decide_false, Bool.false_eq_true, Option.map_map]
        congr 2
        funext i
        simp only [Function.comp_apply]
        omega

/-- The index of the nodes of a graph tells their places. -/
lemma exists_index (g : Graph) :
    ∃ index, indexFrom? .empty 0 g.nodes = some index ∧ ∀ id, g.position? id = index.find? id := by
  have hids : idFault? [] g.nodes = none :=
    idFault?_eq_none_iff.2 ⟨g.valid.id_ne_empty, g.valid.ids_nodup, by simp⟩
  have hempty : ∀ id, (Dict.empty : Dict ℕ).contains id = true ↔ id ∈ ([] : List String) := by
    simp [Dict.empty, Entries.contains]
  obtain ⟨index, hindex⟩ := (exists_indexFrom?_iff hempty).2 hids
  refine ⟨index, hindex, fun id => ?_⟩
  have hfind := find?_indexFrom? hindex id
  simpa [Dict.empty, position?] using hfind.symm

/-! ## Looking things up -/

lemma node?_eq (g : Graph) (id : String) :
    g.node? id = (g.position? id).bind fun i => g.nodes[i]? :=
  List.find?_eq_bind_findIdx?_getElem?

/-- The connections into an input. -/
def into (connections : List Connection) (node input : String) : List Connection :=
  connections.filter fun c => c.toNode = node ∧ c.toInput = input

lemma target_of_mem_into {c : Connection} {node input : String}
    (h : c ∈ into connections node input) : c.target = (node, input) := by
  have hto : c.toNode = node ∧ c.toInput = input := by simpa using (List.mem_filter.1 h).2
  rw [Connection.target, hto.1, hto.2]

/-- With distinct targets an input has one connection at most. -/
lemma length_into_le_one (h : (connections.map Connection.target).Nodup) (node input : String) :
    (into connections node input).length ≤ 1 := by
  have hnodup : ((into connections node input).map Connection.target).Nodup :=
    h.sublist (List.filter_sublist.map _)
  cases hinto : into connections node input with
  | nil => simp
  | cons c rest =>
    cases rest with
    | nil => simp
    | cons d rest =>
      have hc := target_of_mem_into (hinto ▸ List.mem_cons_self : c ∈ into connections node input)
      have hd := target_of_mem_into
        (hinto ▸ List.mem_cons_of_mem _ List.mem_cons_self : d ∈ into connections node input)
      rw [hinto, List.map_cons, List.map_cons, hc, hd] at hnodup
      simp at hnodup

lemma incoming?_eq_head? (g : Graph) (node input : String) :
    g.incoming? node input = (into g.connections node input).head? := List.head?_filter.symm

/-- **What makes a graph.**  Parts are accepted if and only if no id is empty, the ids are distinct,
both ends of each connection are declared, and no two connections lead into one input.  The graph
has the parts as they were given; an id has the place that the index of the ids keeps for it, which
is the place of the only node with this id, and a search for the node finds the one at this place;
and a search for the connection into an input finds the only one, if there is one. -/
theorem acceptance (nodes : List Node) (connections : List Connection) :
    ((∃ g, ofParts nodes connections = .ok g) ↔
      (∀ n ∈ nodes, n.id ≠ "") ∧ (nodes.Pairwise fun m n => m.id ≠ n.id) ∧
        (∀ c ∈ connections, (∃ n ∈ nodes, n.id = c.fromNode) ∧ ∃ n ∈ nodes, n.id = c.toNode) ∧
          connections.Pairwise fun c d => ¬ (c.toNode = d.toNode ∧ c.toInput = d.toInput)) ∧
    ∀ g, ofParts nodes connections = .ok g →
      g.nodes = nodes ∧ g.connections = connections ∧
        (∃ index, indexFrom? .empty 0 nodes = some index ∧
          ∀ id, g.position? id = index.find? id) ∧
        (∀ id i, g.position? id = some i ↔ ∃ n, nodes[i]? = some n ∧ n.id = id) ∧
        (∀ id, g.node? id = (g.position? id).bind fun i => nodes[i]?) ∧
        ∀ node input,
          (∀ c, g.incoming? node input = some c ↔ into connections node input = [c]) ∧
            (g.incoming? node input = none ↔ into connections node input = []) := by
  constructor
  · rw [exists_ofParts_iff]
    constructor
    · intro h
      refine ⟨h.id_ne_empty, List.pairwise_map.1 h.ids_nodup, fun c hc => ?_, ?_⟩
      · exact ⟨List.mem_map.1 (h.from_declared c hc), List.mem_map.1 (h.to_declared c hc)⟩
      · refine (List.pairwise_map.1 h.targets_nodup).imp fun hne hsame => hne ?_
        rw [Connection.target, hsame.1, hsame.2, Connection.target]
    · rintro ⟨hempty, hids, hends, htargets⟩
      refine ⟨hempty, List.pairwise_map.2 hids, fun c hc => List.mem_map.2 (hends c hc).1,
        fun c hc => List.mem_map.2 (hends c hc).2, List.pairwise_map.2 ?_⟩
      exact htargets.imp fun hne hsame => hne (Prod.mk.inj hsame)
  · intro g h
    obtain ⟨rfl, rfl⟩ := ofParts_eq_ok_iff.1 h
    refine ⟨rfl, rfl, exists_index g, fun id i => position?_eq_some_iff, node?_eq g, ?_⟩
    intro node input
    have hlength := length_into_le_one g.valid.targets_nodup node input
    rw [incoming?_eq_head?]
    match into g.connections node input, hlength with
    | [], _ => simp
    | [d], _ => simp

/-- Two nodes. -/
def pairNodes : List Node := [
  ⟨"a", "f", [], [⟨"x", none⟩], none, none, none⟩,
  ⟨"b", "g", [⟨"v", none, none⟩], [⟨"y", none⟩], none, none, none⟩]

/-- A connection between them, and one from the second to itself, into an undeclared input. -/
def pairLinks : List Connection := [⟨"a", "x", "b", "v"⟩, ⟨"b", "y", "b", "w"⟩]

theorem acceptance_pair :
    (∃ g, ofParts pairNodes pairLinks = .ok g ∧ g.position? "b" = some 1 ∧
      g.incoming? "b" "v" = some ⟨"a", "x", "b", "v"⟩ ∧ g.incoming? "a" "v" = none) ∧
    ¬ ∃ g, ofParts pairNodes (⟨"b", "y", "b", "v"⟩ :: pairLinks) = .ok g := by
  obtain ⟨haccept, hall⟩ := acceptance pairNodes pairLinks
  obtain ⟨g, hg⟩ := haccept.2 (by decide)
  obtain ⟨-, -, -, hplace, -, hinto⟩ := hall g hg
  refine ⟨⟨g, hg, (hplace "b" 1).2 ⟨_, rfl, rfl⟩, ((hinto "b" "v").1 _).2 (by decide),
    (hinto "a" "v").2.2 (by decide)⟩, fun hexists => ?_⟩
  have hvalid := (acceptance pairNodes (⟨"b", "y", "b", "v"⟩ :: pairLinks)).1.1 hexists
  exact absurd hvalid (by decide)

/-! ## Other orders -/

/-- Well-formed parts are well-formed in any order. -/
lemma Valid.perm (h : Valid nodes connections) (hnodes : nodes.Perm nodes')
    (hconnections : connections.Perm connections') : Valid nodes' connections' where
  id_ne_empty n hn := h.id_ne_empty n (hnodes.mem_iff.2 hn)
  ids_nodup := (hnodes.map Node.id).nodup_iff.1 h.ids_nodup
  from_declared c hc :=
    (hnodes.map Node.id).mem_iff.1 (h.from_declared c (hconnections.mem_iff.2 hc))
  to_declared c hc :=
    (hnodes.map Node.id).mem_iff.1 (h.to_declared c (hconnections.mem_iff.2 hc))
  targets_nodup := (hconnections.map Connection.target).nodup_iff.1 h.targets_nodup

/-- Of the connections only one leads into an input. -/
lemma incoming?_eq_some_iff {node input : String} {c : Connection} :
    g.incoming? node input = some c ↔ c ∈ g.connections ∧ c.target = (node, input) := by
  constructor
  · intro h
    refine ⟨List.mem_of_find?_eq_some h, ?_⟩
    obtain ⟨hnode, hinput⟩ : c.toNode = node ∧ c.toInput = input := by simpa using List.find?_some h
    rw [Connection.target, hnode, hinput]
  · rintro ⟨hc, htarget⟩
    obtain ⟨rfl, rfl⟩ := Prod.mk.inj htarget
    have hsome : (g.incoming? c.toNode c.toInput).isSome = true := by
      rw [incoming?, List.find?_isSome]
      exact ⟨c, hc, by simp⟩
    obtain ⟨d, hd⟩ := Option.isSome_iff_exists.1 hsome
    obtain ⟨hto, hinput⟩ : d.toNode = c.toNode ∧ d.toInput = c.toInput := by
      simpa using List.find?_some hd
    -- a second connection would have the same target
    have htargets : d.target = c.target := by rw [Connection.target, hto, hinput, Connection.target]
    rw [hd, List.inj_on_of_nodup_map g.valid.targets_nodup (List.mem_of_find?_eq_some hd) hc
      htargets]

end Graph

/-! ## Graphs with the same parts -/

/-- The nodes and the connections of two graphs are the same, but for their order. -/
structure Graph.Rearranged (g g' : Graph) : Prop where
  nodes_perm : g.nodes.Perm g'.nodes
  connections_perm : g.connections.Perm g'.connections

namespace Graph.Rearranged

variable {g g' : Graph}

lemma symm (h : g.Rearranged g') : g'.Rearranged g := ⟨h.nodes_perm.symm, h.connections_perm.symm⟩

lemma incoming?_eq (h : g.Rearranged g') (node input : String) :
    g.incoming? node input = g'.incoming? node input := by
  refine Option.ext fun c => ?_
  rw [incoming?_eq_some_iff, incoming?_eq_some_iff, h.connections_perm.mem_iff]

lemma leads_eq (h : g.Rearranged g') : g.Leads = g'.Leads := by
  funext a b
  simp only [Leads, h.connections_perm.mem_iff]

lemma acyclic_iff (h : g.Rearranged g') : g.Acyclic ↔ g'.Acyclic := by
  rw [Acyclic, Acyclic, h.leads_eq]

end Graph.Rearranged

end Dataflow
