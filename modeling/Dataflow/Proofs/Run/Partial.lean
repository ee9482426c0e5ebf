import Dataflow.Proofs.Run.FailSoft

/-!
# Reports of runs that were cut short

A run that is cancelled on the way realizes some nodes of its plan and leaves the others out.
If it realizes a node only after all nodes that lead to it, the nodes that it does realize come
to what they come to in a whole run, since they read the same outputs.  The report of such a run
is `Plan.partialReport`, and how it stands to the report of the whole run is said in
`Report.PartOf`.
-/

namespace Dataflow

/-- The keys of a dictionary are those under which something is found. -/
lemma Entries.mem_keys_iff {α : Type} {low : Option String} {d : Entries α low} {key : String} :
    key ∈ d.keys ↔ ∃ a, d.find? key = some a := by
  rw [keys, List.mem_map]
  constructor
  · rintro ⟨⟨key, a⟩, hmem, rfl⟩
    exact ⟨a, mem_toList_iff.1 hmem⟩
  · rintro ⟨a, ha⟩
    exact ⟨(key, a), mem_toList_iff.2 ha, rfl⟩

/-- The report of a run that was cut short, beside that of a whole run of a plan. -/
structure Report.PartOf (r whole : Report) (g : Graph) (p : Plan) : Prop where
  keys_subset : r.outputs.keys ⊆ p.order
  /-- A node that ran has only nodes before it that ran. -/
  closed : ∀ c ∈ g.connections, c.toNode ∈ r.outputs.keys → c.fromNode ∈ r.outputs.keys
  find?_eq : ∀ id ∈ r.outputs.keys, r.outputs.find? id = whole.outputs.find? id
  failure?_eq : ∀ id ∈ r.outputs.keys, r.failure? id = whole.failure? id
  failures_sublist : (r.failures.map NodeError.id).Sublist p.order
  failures_ran : ∀ e ∈ r.failures, e.id ∈ r.outputs.keys
  cancelled_iff : r.cancelled = true ↔ ∃ id ∈ p.order, id ∉ r.outputs.keys

namespace Plan

variable {env : Environment} {p : Plan} {ran : ℕ → Bool} {slots : Slots} {i : ℕ}
  {n : PlannedNode} {e : NodeError}

/-- What is stored if the nodes at some places are realized. -/
def ranSlots (env : Environment) (p : Plan) (ran : ℕ → Bool) : Slots :=
  fun q => if ran q then p.finalSlots env q else none

/-- The report of a run that realized the nodes at some places only. -/
def partialReport (env : Environment) (p : Plan) (ran : ℕ → Bool) : Report where
  outputs := p.collected (p.ranSlots env ran)
  failures := ((p.placedFailures env).filter fun f => ran f.1).map Prod.snd
  cancelled := !(List.range p.size).all ran

/-! ## Outputs -/

/-- A report has under the id of a node exactly what is stored at its place. -/
lemma find?_collected_eq (hids : p.order.Nodup) (hn : p.nodes[i]? = some n) :
    (p.collected slots).find? n.id = slots i := by
  cases hslot : slots i with
  | some outputs => exact find?_collected hids hn hslot
  | none =>
    rw [Option.eq_none_iff_forall_ne_some]
    intro outputs hfind
    obtain ⟨⟨m, j⟩, hmem, hentry⟩ := List.mem_filterMap.1 (Dict.mem_of_find?_ofList hfind)
    obtain ⟨o, ho, heq⟩ := Option.map_eq_some_iff.1 hentry
    -- the entry comes from the place of the node, where nothing is stored
    have hm := List.mk_mem_zipIdx_iff_getElem?.1 hmem
    obtain rfl : j = i := place_unique hids hm hn (Prod.mk.inj heq).1
    change slots j = some o at ho
    simp [hslot] at ho

lemma keys_collected_subset (p : Plan) (slots : Slots) :
    (p.collected slots).keys ⊆ p.order := by
  intro id hid
  obtain ⟨outputs, hfind⟩ := Entries.mem_keys_iff.1 hid
  have hmem := List.mem_map_of_mem (f := Prod.fst) (Dict.mem_of_find?_ofList hfind)
  exact (keys_collected_sublist p slots).subset hmem

lemma exists_place {id : String} (hid : id ∈ p.order) :
    ∃ (i : ℕ) (n : PlannedNode), p.nodes[i]? = some n ∧ n.id = id := by
  obtain ⟨n, hn, rfl⟩ := List.mem_map.1 hid
  obtain ⟨i, hi⟩ := List.mem_iff_getElem?.1 hn
  exact ⟨i, n, hi, rfl⟩

lemma find?_partialReport (hids : p.order.Nodup) (hn : p.nodes[i]? = some n) :
    (p.partialReport env ran).outputs.find? n.id = if ran i then p.finalSlots env i else none :=
  find?_collected_eq hids hn

lemma mem_keys_partialReport (hids : p.order.Nodup) (hp : p.Linked) (hb : p.Backed)
    (hn : p.nodes[i]? = some n) :
    n.id ∈ (p.partialReport env ran).outputs.keys ↔ ran i = true := by
  rw [Entries.mem_keys_iff, find?_partialReport hids hn, finalSlots_eq env hp hb hn]
  cases ran i <;> simp

/-! ## Failures -/

lemma mem_failures_partialReport :
    e ∈ (p.partialReport env ran).failures ↔ ∃ q n, p.nodes[q]? = some n ∧ ran q = true ∧
      (n.settle env (p.finalValues env)).failure? env.policy = some e := by
  rw [partialReport, List.mem_map]
  constructor
  · rintro ⟨⟨q, e⟩, hmem, rfl⟩
    obtain ⟨hplaced, hran⟩ := List.mem_filter.1 hmem
    obtain ⟨n, hn, he⟩ := mem_placedFailures.1 hplaced
    exact ⟨q, n, hn, hran, he⟩
  · rintro ⟨q, n, hn, hran, he⟩
    exact ⟨(q, e), List.mem_filter.2 ⟨mem_placedFailures.2 ⟨n, hn, he⟩, hran⟩, rfl⟩

lemma failure?_partialReport (hids : p.order.Nodup) (hn : p.nodes[i]? = some n) :
    (p.partialReport env ran).failure? n.id = some e ↔
      ran i = true ∧ (n.settle env (p.finalValues env)).failure? env.policy = some e := by
  -- a failure under the id of the node is that of the node itself
  have hsound : ∀ e', (p.partialReport env ran).failure? n.id = some e' →
      ran i = true ∧ (n.settle env (p.finalValues env)).failure? env.policy = some e' := by
    intro e' he'
    have hid : e'.id = n.id := by simpa using List.find?_some he'
    obtain ⟨q, m, hm, hran, hfailure⟩ :=
      mem_failures_partialReport.1 (List.mem_of_find?_eq_some he')
    have hmid : m.id = n.id := (Settled.id_of_failure? hfailure).symm.trans hid
    obtain rfl : q = i := place_unique hids hm hn hmid
    obtain rfl : m = n := Option.some.inj (hm.symm.trans hn)
    exact ⟨hran, hfailure⟩
  refine ⟨hsound e, ?_⟩
  rintro ⟨hran, hfailure⟩
  have hmem : e ∈ (p.partialReport env ran).failures :=
    mem_failures_partialReport.2 ⟨i, n, hn, hran, hfailure⟩
  have hsome : ((p.partialReport env ran).failure? n.id).isSome = true := by
    rw [Report.failure?, List.find?_isSome]
    exact ⟨e, hmem, by simpa using Settled.id_of_failure? hfailure⟩
  obtain ⟨e', he'⟩ := Option.isSome_iff_exists.1 hsome
  obtain rfl : e = e' := Option.some.inj (hfailure.symm.trans (hsound e' he').2)
  exact he'

lemma failures_partialReport_sublist (env : Environment) (p : Plan) (ran : ℕ → Bool) :
    ((p.partialReport env ran).failures.map NodeError.id).Sublist p.order := by
  have hids : ∀ (a : PlannedNode × ℕ) (f : ℕ × NodeError),
      (((a.1.settle env (p.finalValues env)).failure? env.policy).map fun e => (a.2, e)) = some f →
        f.2.id = a.1.id := by
    rintro a ⟨q, e⟩ hf
    obtain ⟨e', he', heq⟩ := Option.map_eq_some_iff.1 hf
    obtain ⟨rfl, rfl⟩ := Prod.mk.inj heq
    exact Settled.id_of_failure? he'
  have hall : ((p.placedFailures env).map fun f => f.2.id).Sublist p.order := by
    have hsublist := sublist_map_filterMap hids p.nodes.zipIdx
    have hnodes : p.nodes.zipIdx.map (fun a => a.1.id) = p.order := by
      rw [order]
      conv_rhs => rw [← List.zipIdx_map_fst 0 p.nodes, List.map_map]
      rfl
    rwa [hnodes] at hsublist
  refine List.Sublist.trans ?_ hall
  rw [partialReport, List.map_map]
  exact List.filter_sublist.map _

/-! ## Whole reports -/

lemma cancelled_partialReport :
    (p.partialReport env ran).cancelled = true ↔ ∃ q < p.size, ran q = false := by
  simp [partialReport]

/-- With all nodes realized, it is the report of a whole run. -/
lemma partialReport_of_all (hp : p.Linked) (hb : p.Backed) (hran : ∀ q < p.size, ran q = true) :
    p.partialReport env ran = p.settledReport env := by
  have hslots : p.ranSlots env ran = p.finalSlots env := by
    funext q
    by_cases hq : q < p.size
    · rw [ranSlots, if_pos (hran q hq)]
    · have hsettled : (p.settled env)[q]? = none := by
        rw [List.getElem?_eq_none_iff, length_settled]
        omega
      simp [ranSlots, finalSlots, Settled.slots, hsettled]
  have hfailures : (p.placedFailures env).filter (fun f => ran f.1) = p.placedFailures env := by
    refine List.filter_eq_self.2 ?_
    rintro ⟨q, e⟩ hmem
    obtain ⟨n, hn, -⟩ := mem_placedFailures.1 hmem
    exact hran q (lt_size_of_getElem? hn)
  have hcancelled : (!(List.range p.size).all ran) = false := by simpa using hran
  rw [partialReport, settledReport, hslots, hfailures, hcancelled, map_snd_placedFailures hp hb]

end Plan

/-! ## Parts of runs -/

namespace Graph.PlannedBy

variable {g : Graph} {order : List ℕ} {p : Plan} {env : Environment} {ran : ℕ → Bool}

/-- A connection is a link between the places of its ends. -/
lemma exists_link (hby : g.PlannedBy order p) {c : Connection} (hc : c ∈ g.connections) :
    ∃ i s m n, (i, s) ∈ p.links ∧ p.nodes[i]? = some m ∧ m.id = c.fromNode ∧
      p.nodes[s]? = some n ∧ n.id = c.toNode := by
  have hends := hby.links_perm.mem_iff.2 (List.mem_map_of_mem hc)
  obtain ⟨⟨i, s⟩, hlink, heq⟩ := List.mem_map.1 hends
  obtain ⟨hfrom, hto⟩ := Prod.mk.inj heq
  obtain ⟨m, hm, hmid⟩ := (Plan.position?_eq_some_iff hby.ids_nodup).1 hfrom.symm
  obtain ⟨n, hn, hnid⟩ := (Plan.position?_eq_some_iff hby.ids_nodup).1 hto.symm
  exact ⟨i, s, m, n, hlink, hm, hmid, hn, hnid⟩

/-- If the realized nodes are closed under the nodes that lead to them, the report is part of
that of the whole run. -/
lemma partOf (hby : g.PlannedBy order p)
    (hran : ∀ i s, (i, s) ∈ p.links → ran s = true → ran i = true) :
    (p.partialReport env ran).PartOf (p.settledReport env) g p := by
  have hids := hby.ids_nodup
  have hkeys {i : ℕ} {n : PlannedNode} (hn : p.nodes[i]? = some n) :
      n.id ∈ (p.partialReport env ran).outputs.keys ↔ ran i = true :=
    Plan.mem_keys_partialReport hids hby.linked hby.backed hn
  have hsubset : (p.partialReport env ran).outputs.keys ⊆ p.order :=
    Plan.keys_collected_subset p _
  have hwhole : p.settledReport env = p.partialReport env fun _ => true :=
    (Plan.partialReport_of_all hby.linked hby.backed fun _ _ => rfl).symm
  refine ⟨hsubset, ?_, ?_, ?_, Plan.failures_partialReport_sublist env p ran, ?_, ?_⟩
  · intro c hc hto
    obtain ⟨i, s, m, n, hlink, hm, hfrom, hn, htarget⟩ := hby.exists_link hc
    rw [← htarget, hkeys hn] at hto
    rw [← hfrom, hkeys hm]
    exact hran i s hlink hto
  · intro id hid
    obtain ⟨i, n, hn, rfl⟩ := Plan.exists_place (hsubset hid)
    rw [hwhole, Plan.find?_partialReport hids hn, Plan.find?_partialReport hids hn,
      (hkeys hn).1 hid]
  · intro id hid
    obtain ⟨i, n, hn, rfl⟩ := Plan.exists_place (hsubset hid)
    refine Option.ext fun e => ?_
    rw [hwhole, Plan.failure?_partialReport hids hn, Plan.failure?_partialReport hids hn,
      (hkeys hn).1 hid]
  · intro e he
    obtain ⟨q, n, hn, hq, hfailure⟩ := Plan.mem_failures_partialReport.1 he
    rw [Settled.id_of_failure? hfailure]
    exact (hkeys hn).2 hq
  · rw [Plan.cancelled_partialReport]
    constructor
    · rintro ⟨q, hq, hnot⟩
      obtain ⟨n, hn⟩ := Plan.exists_node hq
      refine ⟨n.id, List.mem_map_of_mem (List.mem_of_getElem? hn), ?_⟩
      rw [hkeys hn, hnot]
      simp
    · rintro ⟨id, hid, hnot⟩
      obtain ⟨i, n, hn, rfl⟩ := Plan.exists_place hid
      refine ⟨i, Plan.lt_size_of_getElem? hn, ?_⟩
      rwa [hkeys hn, Bool.not_eq_true] at hnot

end Graph.PlannedBy

end Dataflow
