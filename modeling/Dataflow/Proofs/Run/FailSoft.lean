import Dataflow.Proofs.Run.Arguments
import Dataflow.Proofs.Run.Interleaving
import Dataflow.Proofs.Run.World

/-!
# A failure does not end a run

A node that fails puts out nulls, and the nodes behind it run all the same.  Whatever the
compilations and the calls of a sequential run come to, its report therefore accounts for every
node of the plan (`Graph.fail_soft`): a node that failed has nulls for its outputs, and a node
that did not has the outputs of its call, which took the outputs of earlier nodes as they stand
in the report.
-/

namespace Dataflow

/-! ## Failures and nulls -/

lemma sublist_map_filterMap {α β γ : Type} {f : α → Option β} {g : β → γ} {k : α → γ}
    (h : ∀ a b, f a = some b → g b = k a) (l : List α) :
    ((l.filterMap f).map g).Sublist (l.map k) := by
  induction l with
  | nil => exact .slnil
  | cons a l ih =>
    rw [List.map_cons]
    cases hf : f a with
    | none =>
      rw [List.filterMap_cons_none hf]
      exact ih.cons _
    | some b =>
      rw [List.filterMap_cons_some hf, List.map_cons, h a b hf]
      exact ih.cons_cons _

namespace Settled

variable {policy : OutputPolicy} {d : Settled} {e : NodeError} {l : List Settled}

lemma of_failure?_eq_some (h : d.failure? policy = some e) :
    ∃ fault, d.outcome policy = .error fault ∧ e = d.node.fault fault := by
  rw [failure?] at h
  split at h
  · simp at h
  · rename_i fault hfault
    exact ⟨fault, hfault, (Option.some.inj h).symm⟩

lemma id_of_failure? (h : d.failure? policy = some e) : e.id = d.node.id := by
  obtain ⟨fault, -, rfl⟩ := of_failure?_eq_some h
  rfl

/-- Nodes with other ids have no failure under an id. -/
lemma find?_failures_eq_none {id : String} (h : ∀ d ∈ l, d.node.id ≠ id) :
    (l.filterMap (failure? policy)).find? (fun e => e.id = id) = none := by
  rw [List.find?_eq_none]
  intro e he hid
  obtain ⟨d, hd, hfailure⟩ := List.mem_filterMap.1 he
  exact h d hd ((id_of_failure? hfailure).symm.trans (by simpa using hid))

/-- Among the failures of nodes with distinct ids, that of a node is found by its id. -/
lemma find?_failures (hids : (l.map fun d => d.node.id).Nodup) (hd : d ∈ l) :
    (l.filterMap (failure? policy)).find? (fun e => e.id = d.node.id) = d.failure? policy := by
  induction l with
  | nil => simp at hd
  | cons c l ih =>
    rw [List.map_cons, List.nodup_cons] at hids
    obtain ⟨hc, hl⟩ := hids
    rcases List.mem_cons.1 hd with rfl | hmem
    · cases hfailure : d.failure? policy with
      | none =>
        rw [List.filterMap_cons_none hfailure]
        exact find?_failures_eq_none fun d' hd' heq => hc (List.mem_map.2 ⟨d', hd', heq⟩)
      | some e =>
        rw [List.filterMap_cons_some hfailure, List.find?_cons_of_pos]
        simpa using id_of_failure? hfailure
    · have hne : c.node.id ≠ d.node.id := fun heq => hc (List.mem_map.2 ⟨d, hmem, heq.symm⟩)
      cases hfailure : c.failure? policy with
      | none =>
        rw [List.filterMap_cons_none hfailure]
        exact ih hl hmem
      | some e =>
        rw [List.filterMap_cons_some hfailure, List.find?_cons_of_neg]
        · exact ih hl hmem
        · simpa [id_of_failure? hfailure] using hne

lemma outputs_of_failure (h : d.failure? policy ≠ none) : d.outputs policy = d.node.nulls := by
  obtain ⟨e, he⟩ := Option.ne_none_iff_exists'.1 h
  obtain ⟨fault, hfault, -⟩ := of_failure?_eq_some he
  rw [outputs, hfault]

end Settled

/-- The outputs of a node that fails are the declared ones, all of them null. -/
lemma PlannedNode.find?_nulls (n : PlannedNode) (output : String) :
    n.nulls.find? output = if output ∈ n.outputs then some .null else none := by
  have hsome : ((Dict.ofList (n.outputs.map fun o => (o, Value.null))).find? output).isSome =
      true ↔ output ∈ n.outputs := by
    rw [Dict.isSome_find?_ofList, List.map_map]
    exact Iff.of_eq (congrArg (output ∈ ·) (List.map_id _))
  rw [nulls]
  cases hfind : (Dict.ofList (n.outputs.map fun o => (o, Value.null))).find? output with
  | none =>
    rw [hfind] at hsome
    rw [if_neg fun hmem => by simpa using hsome.2 hmem]
  | some v =>
    obtain ⟨o, ho, heq⟩ := List.mem_map.1 (Dict.mem_of_find?_ofList hfind)
    obtain ⟨rfl, rfl⟩ := Prod.mk.inj heq
    rw [if_pos ho]

/-! ## What a report says of a node -/

/-- An argument is what a binding asks for.  A connected one has the value in the report, which
is null if the producer failed. -/
def Report.Supplies (r : Report) (binding : String × Binding) (argument : String × Value) : Prop :=
  argument.1 = binding.1 ∧
    match binding.2 with
    | .connected node output =>
      r.output? node output = some argument.2 ∧ (r.failure? node ≠ none → argument.2 = .null)
    | .literal v => argument.2 = v
    | .missing => False

/-- What the report of a run says of the node at a place, which was realized when the run had
come as far as `s`. -/
structure Report.Accounts (r : Report) (w : World) (p : Plan) (s : Progress) (place : ℕ)
    (n : PlannedNode) : Prop where
  /-- The nodes that it refers to had stored their outputs by then. -/
  stored_before : ∀ id output, (id, output) ∈ n.references →
    ∃ (j : ℕ) (m : PlannedNode) (outputs : Outputs), p.nodes[j]? = some m ∧ m.id = id ∧
      j < place ∧ s.slots j = some outputs ∧ r.outputs.find? id = some outputs
  nulls_of_failure : r.failure? n.id ≠ none →
    ∃ outputs, r.outputs.find? n.id = some outputs ∧
      ∀ o, outputs.find? o = if o ∈ n.outputs then some .null else none
  shaped_of_success : r.failure? n.id = none →
    ∃ (c : Invocation) (v : Value) (outputs : Outputs), w.invocation? p s n = some c ∧
      (c.behavior c.arguments).outcome.contained = .ok v ∧
        shaped w.policy n.outputs v = .ok outputs ∧ r.outputs.find? n.id = some outputs
  arguments_supplied : ∀ c, w.invocation? p s n = some c →
    List.Forall₂ r.Supplies n.arguments c.arguments.entries
  missing_input : ∀ e input, r.failure? n.id = some e → e.fault = .missingInput input →
    (input, .missing) ∈ n.arguments ∨
      ∃ (id output : String) (outputs : Outputs), (input, .connected id output) ∈ n.arguments ∧
        r.outputs.find? id = some outputs ∧ outputs.find? output = none

namespace World

variable {w : World} {token : Option CancelToken} {stopped : Bool} {g : Graph} {order : List ℕ}
  {p : Plan} {n m : PlannedNode} {i j : ℕ}

/-- The nodes in front of a place have stored their outputs when the run comes to it. -/
lemma slots_progress (h : (p.runSequentialIn w token stopped).result.cancelled = false)
    (hi : i < p.size) (hji : j < i) (hm : p.nodes[j]? = some m) :
    (w.progress token stopped p i).slots j =
      some ((w.settledAt token stopped p j m).outputs w.policy) := by
  have hkeeps := keeps_progress (report_eq h).1 (Nat.le_of_lt hi)
  rw [hkeeps.slots_eq, Settled.slots, List.getElem?_take_of_lt hji, getElem?_settled hm]
  rfl

lemma find?_outputs (hids : p.order.Nodup)
    (h : (p.runSequentialIn w token stopped).result.cancelled = false)
    (hn : p.nodes[i]? = some n) :
    (p.runSequentialIn w token stopped).result.outputs.find? n.id =
      some ((w.settledAt token stopped p i n).outputs w.policy) := by
  rw [(report_eq h).2]
  refine Plan.find?_collected hids hn ?_
  rw [Settled.slots, getElem?_settled hn]
  rfl

lemma failure?_eq (hids : p.order.Nodup)
    (h : (p.runSequentialIn w token stopped).result.cancelled = false)
    (hn : p.nodes[i]? = some n) :
    (p.runSequentialIn w token stopped).result.failure? n.id =
      (w.settledAt token stopped p i n).failure? w.policy := by
  have hnodup : ((w.settled token stopped p).map fun d => d.node.id).Nodup := by
    rw [Plan.order, ← map_node_settled w token stopped p, List.map_map] at hids
    exact hids
  rw [(report_eq h).2]
  exact Settled.find?_failures hnodup (List.mem_of_getElem? (getElem?_settled hn))

/-- What a node reads is there when the run comes to it, and is the same in the report. -/
lemma exists_producer (hby : g.PlannedBy order p)
    (h : (p.runSequentialIn w token stopped).result.cancelled = false)
    (hn : p.nodes[i]? = some n) {id output : String} (href : (id, output) ∈ n.references) :
    ∃ j m, p.nodes[j]? = some m ∧ m.id = id ∧ j < i ∧
      p.storedValue (w.progress token stopped p i).slots id output =
        (p.runSequentialIn w token stopped).result.output? id output := by
  obtain ⟨j, m, hm, rfl, hji, -⟩ := hby.exists_producer hn href
  refine ⟨j, m, hm, rfl, hji, ?_⟩
  have hslot := slots_progress h (Plan.lt_size_of_getElem? hn) hji hm
  rw [Plan.storedValue_eq hby.ids_nodup hm hslot, Report.output?,
    find?_outputs hby.ids_nodup h hm]
  rfl

/-- The producer of a value that a node reads has only nulls if it failed. -/
lemma null_of_failure (hids : p.order.Nodup)
    (h : (p.runSequentialIn w token stopped).result.cancelled = false)
    (hm : p.nodes[j]? = some m) {output : String} {v : Value}
    (hv : (p.runSequentialIn w token stopped).result.output? m.id output = some v)
    (hfailed : (p.runSequentialIn w token stopped).result.failure? m.id ≠ none) : v = .null := by
  rw [failure?_eq hids h hm] at hfailed
  rw [Report.output?, find?_outputs hids h hm, Settled.outputs_of_failure hfailed] at hv
  change m.nulls.find? output = some v at hv
  rw [m.find?_nulls] at hv
  split at hv
  · exact (Option.some.inj hv).symm
  · simp at hv

/-- An argument that a binding gives is the one that the report has for it. -/
lemma supplies (hby : g.PlannedBy order p)
    (h : (p.runSequentialIn w token stopped).result.cancelled = false)
    (hn : p.nodes[i]? = some n) {binding : String × Binding} {argument : String × Value}
    (hmem : binding ∈ n.arguments)
    (hgives : Binding.Gives (p.storedValue (w.progress token stopped p i).slots) binding
      argument) :
    (p.runSequentialIn w token stopped).result.Supplies binding argument := by
  obtain ⟨input, b⟩ := binding
  obtain ⟨hname, hvalue⟩ := hgives
  refine ⟨hname, ?_⟩
  cases b with
  | connected id output =>
    have href := PlannedNode.mem_references.2 (.inl ⟨input, hmem⟩)
    obtain ⟨j, m, hm, rfl, -, hread⟩ := exists_producer hby h hn href
    have hv := hread.symm.trans (Binding.of_value_connected hvalue)
    exact ⟨hv, null_of_failure hby.ids_nodup h hm hv⟩
  | literal v => exact (Except.ok.inj hvalue).symm
  | missing => simp [Binding.value] at hvalue

lemma arguments_supplied (hby : g.PlannedBy order p)
    (h : (p.runSequentialIn w token stopped).result.cancelled = false)
    (hn : p.nodes[i]? = some n) {c : Invocation}
    (hc : w.invocation? p (w.progress token stopped p i) n = some c) :
    List.Forall₂ (p.runSequentialIn w token stopped).result.Supplies n.arguments
      c.arguments.entries := by
  rw [w.invocation?_eq, Settled.invocation?] at hc
  split at hc
  · rename_i args b hcall
    obtain rfl := Option.some.inj hc
    have hgives := PlannedNode.forall₂_gathered (PlannedNode.of_settle_call hcall).1
    rw [List.forall₂_iff_zip] at hgives ⊢
    refine ⟨hgives.1, fun hzip => ?_⟩
    exact supplies hby h hn (List.of_mem_zip hzip).1 (hgives.2 hzip)
  · simp at hc

lemma exists_call_of_success (hids : p.order.Nodup)
    (h : (p.runSequentialIn w token stopped).result.cancelled = false)
    (hn : p.nodes[i]? = some n)
    (hsucceeded : (p.runSequentialIn w token stopped).result.failure? n.id = none) :
    ∃ (c : Invocation) (v : Value) (outputs : Outputs),
      w.invocation? p (w.progress token stopped p i) n = some c ∧
        (c.behavior c.arguments).outcome.contained = .ok v ∧
          shaped w.policy n.outputs v = .ok outputs ∧
            (p.runSequentialIn w token stopped).result.outputs.find? n.id = some outputs := by
  rw [failure?_eq hids h hn] at hsucceeded
  obtain ⟨outputs, houtcome⟩ := Settled.failure?_eq_none_iff.1 hsucceeded
  obtain ⟨args, b, hcall⟩ := Settled.exists_call houtcome
  obtain ⟨v, hv, hshaped⟩ := Settled.of_outcome hcall houtcome
  have hinvocation : w.invocation? p (w.progress token stopped p i) n =
      (w.settledAt token stopped p i n).invocation? := w.invocation?_eq p _ n
  refine ⟨⟨n.id, b, args⟩, v, outputs, ?_, hv, hshaped, ?_⟩
  · rw [hinvocation, Settled.invocation?, hcall]
    rfl
  · rw [find?_outputs hids h hn, Settled.outputs, houtcome]

lemma missing_input (hby : g.PlannedBy order p)
    (h : (p.runSequentialIn w token stopped).result.cancelled = false)
    (hn : p.nodes[i]? = some n) {e : NodeError} {input : String}
    (hfailed : (p.runSequentialIn w token stopped).result.failure? n.id = some e)
    (hmissing : e.fault = .missingInput input) :
    (input, .missing) ∈ n.arguments ∨
      ∃ (id output : String) (outputs : Outputs), (input, .connected id output) ∈ n.arguments ∧
        (p.runSequentialIn w token stopped).result.outputs.find? id = some outputs ∧
          outputs.find? output = none := by
  rw [failure?_eq hby.ids_nodup h hn] at hfailed
  obtain ⟨fault, hfault, rfl⟩ := Settled.of_failure?_eq_some hfailed
  obtain rfl : fault = .missingInput input := hmissing
  rcases PlannedNode.exists_binding_of_missingInput hfault with hmem | ⟨id, output, hmem, hnone⟩
  · exact .inl hmem
  · have href := PlannedNode.mem_references.2 (.inl ⟨input, hmem⟩)
    obtain ⟨j, m, hm, rfl, -, hread⟩ := exists_producer hby h hn href
    have houtputs := find?_outputs hby.ids_nodup h hm
    rw [hread, Report.output?, houtputs] at hnone
    exact .inr ⟨m.id, output, _, hmem, houtputs, hnone⟩

/-- The report of a run that is not cancelled accounts for every node of the plan. -/
lemma accounts (hby : g.PlannedBy order p)
    (h : (p.runSequentialIn w token stopped).result.cancelled = false)
    (hn : p.nodes[i]? = some n) :
    (p.runSequentialIn w token stopped).result.Accounts w p (w.progress token stopped p i) i
      n where
  stored_before := by
    intro id output href
    obtain ⟨j, m, hm, rfl, hji, -⟩ := hby.exists_producer hn href
    exact ⟨j, m, _, hm, rfl, hji, slots_progress h (Plan.lt_size_of_getElem? hn) hji hm,
      find?_outputs hby.ids_nodup h hm⟩
  nulls_of_failure := by
    intro hfailed
    rw [failure?_eq hby.ids_nodup h hn] at hfailed
    refine ⟨n.nulls, ?_, n.find?_nulls⟩
    rw [find?_outputs hby.ids_nodup h hn, Settled.outputs_of_failure hfailed, settledAt_node]
  shaped_of_success := exists_call_of_success hby.ids_nodup h hn
  arguments_supplied := fun _ => arguments_supplied hby h hn
  missing_input := fun _ _ => missing_input hby h hn

/-! ## The report as a whole -/

/-- The report of a run that is not cancelled has outputs for exactly the nodes of the plan. -/
lemma keys_outputs_perm (hids : p.order.Nodup)
    (h : (p.runSequentialIn w token stopped).result.cancelled = false) :
    (p.runSequentialIn w token stopped).result.outputs.keys.Perm p.order := by
  refine (List.perm_ext_iff_of_nodup (Entries.keys_nodup _) hids).2 fun id => ⟨?_, ?_⟩
  · intro hmem
    obtain ⟨⟨id, outputs⟩, hentry, rfl⟩ := List.mem_map.1 hmem
    rw [Entries.mem_toList_iff, (report_eq h).2] at hentry
    have hkeys := List.mem_map_of_mem (f := Prod.fst) (Dict.mem_of_find?_ofList hentry)
    exact (Plan.keys_collected_sublist p _).subset hkeys
  · intro hmem
    obtain ⟨n, hn, rfl⟩ := List.mem_map.1 hmem
    obtain ⟨i, hi⟩ := List.mem_iff_getElem?.1 hn
    exact List.mem_map_of_mem (f := Prod.fst)
      (Entries.mem_toList_iff.2 (find?_outputs hids h hi))

lemma failures_sublist
    (h : (p.runSequentialIn w token stopped).result.cancelled = false) :
    ((p.runSequentialIn w token stopped).result.failures.map fun e => (e.id, e.name)).Sublist
      (p.nodes.map fun n => (n.id, n.name)) := by
  have hident : ∀ d e, Settled.failure? w.policy d = some e →
      (e.id, e.name) = (d.node.id, d.node.name) := by
    intro d e he
    obtain ⟨fault, -, rfl⟩ := Settled.of_failure?_eq_some he
    rfl
  have hsublist := sublist_map_filterMap hident (w.settled token stopped p)
  have hnodes : (w.settled token stopped p).map (fun d => (d.node.id, d.node.name)) =
      p.nodes.map fun n => (n.id, n.name) := by
    conv_rhs => rw [← map_node_settled w token stopped p]
    rw [List.map_map]
    rfl
  rw [(report_eq h).2, ← hnodes]
  exact hsublist

end World

/-- **A failure does not end a run.**  Whatever the compilations and the calls come to, the
report of a sequential run that is not cancelled has the ids of the plan as its keys, the
failures are those of some nodes in the order of the plan, and it accounts for every node. -/
theorem Graph.fail_soft (g : Graph) (p : Plan) (h : g.plan = .ok p) :
    (∀ (env : Environment) (token : Option CancelToken) (stopped : Bool),
      p.runSequentialIn (.steady env) token stopped = p.runSequential env token stopped) ∧
    ∀ (w : World) (token : Option CancelToken) (stopped : Bool),
      (token = none → stopped = false →
        (p.runSequentialIn w token stopped).result.cancelled = false) ∧
      ∀ r, (p.runSequentialIn w token stopped).result = r → r.cancelled = false →
        r.outputs.keys.Perm p.order ∧
        (r.failures.map fun e => (e.id, e.name)).Sublist (p.nodes.map fun n => (n.id, n.name)) ∧
        (r.failures.map NodeError.id).Nodup ∧
        ∀ (i : ℕ) (n : PlannedNode), p.nodes[i]? = some n →
          r.Accounts w p (w.progress token stopped p i) i n := by
  obtain ⟨order, hby⟩ := exists_plannedBy h
  refine ⟨fun env token stopped => p.runSequentialIn_steady env token stopped,
    fun w token stopped => ⟨?_, ?_⟩⟩
  · rintro rfl rfl
    exact World.not_cancelled
  · rintro r rfl hran
    have hfailures := World.failures_sublist hran
    refine ⟨World.keys_outputs_perm hby.ids_nodup hran, hfailures, ?_,
      fun i n hn => World.accounts hby hran hn⟩
    -- the ids of the failures are among those of the plan
    have hids := hfailures.map Prod.fst
    rw [List.map_map, List.map_map] at hids
    exact hby.ids_nodup.sublist hids

/-- A world for `joining`, in which the first call panics and the last one fails. -/
def Graph.joiningWorld : World where
  policy := .strict
  registry := fun place =>
    if place = 0 then Dict.ofList [("one", .panic none)] else joiningEnvironment.registry
  compiler := fun _ => joiningEnvironment.compiler
  recalled := fun _ cache => cache

theorem Graph.fail_soft_joining :
    joining.plan = .ok joiningPlan ∧
      ∃ r, (joiningPlan.runSequentialIn joiningWorld none false).result = r ∧
        r.failures.map NodeError.id = ["one", "log"] ∧
        r.outputs.keys.Perm joiningPlan.order ∧
        r.output? "one" "out" = some .null := by
  have hplan : joining.plan = .ok joiningPlan := rfl
  obtain ⟨-, hruns⟩ := fail_soft joining joiningPlan hplan
  obtain ⟨hran, hreport⟩ := hruns joiningWorld none false
  obtain ⟨hkeys, -, -, haccounts⟩ := hreport _ rfl (hran rfl rfl)
  -- the first node failed, and its outputs are therefore null
  have hfailed : (joiningPlan.runSequentialIn joiningWorld none false).result.failure? "one" ≠
      none := by decide
  obtain ⟨outputs, houtputs, hnulls⟩ := (haccounts 0 _ rfl).nulls_of_failure hfailed
  refine ⟨hplan, _, rfl, by decide, hkeys, ?_⟩
  rw [Report.output?]
  change Entries.find? "one" _ = _ at houtputs
  rw [houtputs]
  exact hnulls "out"

end Dataflow
