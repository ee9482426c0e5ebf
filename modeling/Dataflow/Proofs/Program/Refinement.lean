import Dataflow.Proofs.Plan.Planning
import Dataflow.Proofs.Program.Execution

/-!
# The entry block does what a sequential run does

The lines of a node are executed after those of the nodes that it refers to, and no variable is
assigned twice, so that the variables which a node reads hold what these nodes have put out.
With this the block follows the settled nodes one by one (`Program.Follows`): it makes their
calls, and leaves their outputs in the variables.
-/

namespace Dataflow

/-! ## Declared outputs -/

section Shaped

variable {outputs : List String} {v : Value} {d : Dict Value}

/-- The checked result of a node with several outputs is a mapping with all of them. -/
lemma shaped_strict_several (houtputs : 1 < outputs.length)
    (h : shaped .strict outputs v = .ok d) :
    v = .map d ∧ ∀ o ∈ outputs, ∃ x, d.find? o = some x := by
  rcases outputs with _ | ⟨o, _ | ⟨o', rest⟩⟩
  · simp at houtputs
  · simp at houtputs
  · cases v with
    | map fields =>
      rw [shaped] at h
      · split at h
        · rename_i hagrees
          obtain rfl : fields = d := Except.ok.inj h
          refine ⟨rfl, fun a ha => ?_⟩
          have hall := hagrees.resolve_left (by simp)
          rw [Bool.and_eq_true, List.all_eq_true] at hall
          exact Option.isSome_iff_exists.1 (hall.2 a ha)
        · simp at h
      · simp
      · simp
    | _ => simp [shaped] at h

lemma shaped_strict_find? (h : shaped .strict outputs v = .ok d) {o : String} (ho : o ∈ outputs) :
    ∃ x, d.find? o = some x := by
  rcases outputs with _ | ⟨o', _ | ⟨o'', rest⟩⟩
  · simp at ho
  · obtain rfl : o = o' := List.mem_singleton.1 ho
    obtain rfl : Dict.empty.insert o v = d := Except.ok.inj h
    exact ⟨v, by rw [Dict.find?_insert, if_pos rfl]⟩
  · exact (shaped_strict_several (by simp) h).2 o ho

end Shaped

namespace Program

/-! ## The lines of a node -/

section Node

variable {env : Environment} {available : Available} {vars : Variables} {s : State}
  {n : PlannedNode}

lemma output_mem_slotsOf {o : String} (ho : o ∈ n.outputs) : Slot.output n.id o ∈ slotsOf n :=
  List.mem_append_right _ (List.mem_map_of_mem ho)

lemma result_mem_slotsOf (h : 1 < n.outputs.length) : Slot.result n.id ∈ slotsOf n :=
  List.mem_append_left _ (by simp [h])

lemma id_of_mem_slotsOf {slot : Slot} (h : slot ∈ slotsOf n) :
    slot = .result n.id ∨ ∃ o, slot = .output n.id o := by
  rcases List.mem_append.1 h with h | h
  · split at h
    · exact .inl (List.mem_singleton.1 h)
    · simp at h
  · obtain ⟨o, -, rfl⟩ := List.mem_map.1 h
    exact .inr ⟨o, rfl⟩

/-- The lines of a node make its call, leave its outputs in their variables, and assign no
variables but its own. -/
lemma execute_linesOf {args : Arguments} {b : Behavior} {d : Outputs}
    (hstrict : env.policy = .strict) (hreads : Reads available vars s n)
    (hcall : (n.settle env available).call = .ok (args, b))
    (houtcome : (n.settle env available).outcome env.policy = .ok d)
    (hinj : ∀ t ∈ slotsOf n, ∀ u ∈ slotsOf n, vars.nameOf t = vars.nameOf u → t = u) :
    ∃ s', execute env s ((linesOf vars n).map fun line => (n, line)) = .ok s' ∧
      s'.calls = s.calls ++ [⟨n.id, b, args⟩] ∧
      (∀ o ∈ n.outputs, s'.store (vars.nameOf (.output n.id o)) = d.find? o) ∧
      ∀ name, (∀ t ∈ slotsOf n, vars.nameOf t ≠ name) → s'.store name = s.store name := by
  obtain ⟨hgathered, hfunction⟩ := PlannedNode.of_settle_call hcall
  obtain ⟨v, hvalue, hshaped⟩ := Settled.of_outcome hcall houtcome
  rw [hstrict, PlannedNode.settle_node] at hshaped
  have hexecute := callOf_execute hreads hgathered hfunction hvalue
  generalize hs₁ : ({ s with calls := s.calls ++ [⟨n.id, b, args⟩] } : State) = s₁ at hexecute
  have hcalls : s₁.calls = s.calls ++ [⟨n.id, b, args⟩] := by rw [← hs₁]
  have hstore : s₁.store = s.store := by rw [← hs₁]
  unfold linesOf
  split
  · -- the call alone
    rename_i houtputs
    refine ⟨s₁, ?_, hcalls, by simp [houtputs], fun _ _ => by rw [hstore]⟩
    simp [execute, Line.execute, hexecute, bind, Except.bind, pure, Except.pure]
  · -- the result is the output
    rename_i output houtputs
    refine ⟨s₁.assign (vars.nameOf (.output n.id output)) v, ?_, hcalls, ?_, ?_⟩
    · simp [execute, Line.execute, hexecute, bind, Except.bind, pure, Except.pure]
    · intro o ho
      rw [houtputs] at ho hshaped
      obtain rfl : o = output := List.mem_singleton.1 ho
      obtain rfl : Dict.empty.insert o v = d := Except.ok.inj hshaped
      rw [State.assign_store_self, Dict.find?_insert, if_pos rfl]
    · intro name hname
      have hmem : output ∈ n.outputs := by simp [houtputs]
      have hne := hname _ (output_mem_slotsOf hmem)
      rw [State.assign_store_of_ne (Ne.symm hne), hstore]
  · -- the result is taken apart; its own variable is not that of an output
    rename_i hnil hsingle
    have hseveral : 1 < n.outputs.length := by
      rcases houtputs : n.outputs with _ | ⟨o, _ | ⟨o', rest⟩⟩
      · exact absurd houtputs hnil
      · exact absurd houtputs (hsingle o)
      · simp
    obtain ⟨rfl, hfields⟩ := shaped_strict_several hseveral hshaped
    have hresult := result_mem_slotsOf hseveral
    have hne : ∀ o ∈ n.outputs, vars.nameOf (.output n.id o) ≠ vars.nameOf (.result n.id) := by
      intro o ho heq
      simpa using hinj _ (output_mem_slotsOf ho) _ hresult heq
    obtain ⟨s', hunpack, hcalls', hparts, hother⟩ :=
      execute_unpack env n (fun o => vars.nameOf (.output n.id o))
        (State.assign_store_self s₁ (vars.nameOf (.result n.id)) (.map d))
        (fun o ho o' ho' heq => by
          simpa using hinj _ (output_mem_slotsOf ho) _ (output_mem_slotsOf ho') heq) hne hfields
    refine ⟨s', ?_, ?_, hparts, ?_⟩
    · simp [execute, Line.execute, hexecute, hunpack, bind, Except.bind, pure, Except.pure,
        Function.comp_def]
    · rw [hcalls']
      exact hcalls
    · intro name hname
      rw [hother name fun o ho => hname _ (output_mem_slotsOf ho),
        State.assign_store_of_ne (Ne.symm (hname _ hresult)), hstore]

end Node

/-! ## The block -/

/-- A block has executed the lines of some nodes: it has made their calls, and the variables of
their outputs hold the final values. -/
structure Follows (env : Environment) (p : Plan) (done : List PlannedNode) (s : State) : Prop where
  store_eq : ∀ m ∈ done, ∀ o ∈ m.outputs,
    s.store ((Variables.ofPlan p).nameOf (.output m.id o)) = p.finalValues env m.id o
  calls_eq : s.calls =
    (done.map fun n => n.settle env (p.finalValues env)).filterMap Settled.invocation?

section Block

variable {env : Environment} {p : Plan} {s : State} {done rest : List PlannedNode}
  {n : PlannedNode}

lemma mem_slots {t : Slot} (hn : n ∈ p.nodes) (ht : t ∈ slotsOf n) : t ∈ slots p :=
  List.mem_flatMap.2 ⟨n, hn, ht⟩

/-- The variables of earlier nodes are not those of the next one. -/
lemma nameOf_ne (hids : p.order.Nodup) (hsplit : p.nodes = done ++ n :: rest)
    {m : PlannedNode} (hm : m ∈ done) {o : String} (ho : o ∈ m.outputs) {t : Slot}
    (ht : t ∈ slotsOf n) :
    (Variables.ofPlan p).nameOf t ≠ (Variables.ofPlan p).nameOf (.output m.id o) := by
  intro heq
  have hn : n ∈ p.nodes := by simp [hsplit]
  have hmem : m ∈ p.nodes := by simp [hsplit, hm]
  have hslot := Variables.nameOf_inj (mem_slots hn ht) (mem_slots hmem (output_mem_slotsOf ho)) heq
  have hid : n.id = m.id := by
    rcases id_of_mem_slotsOf ht with rfl | ⟨o', rfl⟩
    · simp at hslot
    · exact (Slot.output.inj hslot).1
  rw [Plan.order, hsplit, List.map_append, List.map_cons, List.nodup_append] at hids
  exact hids.2.2 m.id (List.mem_map_of_mem hm) n.id List.mem_cons_self hid.symm

namespace Follows

lemma start (env : Environment) (p : Plan) : Follows env p [] State.start :=
  ⟨by simp, rfl⟩

variable (hids : p.order.Nodup) (hp : p.Linked) (hb : p.Backed) (hdeclared : p.Declared)

include hids hp hb hdeclared

/-- The next node reads final values. -/
lemma reads (h : Follows env p done s) (hsplit : p.nodes = done ++ n :: rest) :
    Reads (p.finalValues env) (Variables.ofPlan p) s n := by
  have hn : p.nodes[done.length]? = some n := by simp [hsplit]
  have hmem : n ∈ p.nodes := List.mem_of_getElem? hn
  intro id output href
  obtain ⟨j, m, hj, hm, hs⟩ := hb _ _ hn (id, output) href
  obtain ⟨m', hm', hid', ho⟩ := hdeclared n hmem (id, output) href
  obtain ⟨m'', hm'', hid⟩ := Plan.lastPosition?_eq_some hj
  obtain rfl : m'' = m := Option.some.inj (hm''.symm.trans hm)
  have hsame : m' = m'' :=
    List.inj_on_of_nodup_map hids hm' (List.mem_of_getElem? hm) (hid'.trans hid.symm)
  subst hsame
  -- the links lead forward, so that the producer is among the nodes before
  have hlt := (hp.forward hm _ hs).1
  have hdone : m' ∈ done := by
    rw [hsplit, List.getElem?_append_left hlt] at hm
    exact List.mem_of_getElem? hm
  have hread := h.store_eq m' hdone output ho
  rwa [hid'] at hread

variable (hstrict : env.policy = .strict)
  (hok : ∀ n ∈ p.nodes, ∃ d, (n.settle env (p.finalValues env)).outcome env.policy = .ok d)

include hstrict hok

/-- The lines of the next node are executed as the node is settled. -/
lemma step (h : Follows env p done s) (hsplit : p.nodes = done ++ n :: rest) :
    ∃ s', execute env s ((linesOf (Variables.ofPlan p) n).map fun line => (n, line)) = .ok s' ∧
      Follows env p (done ++ [n]) s' := by
  have hn : p.nodes[done.length]? = some n := by simp [hsplit]
  have hmem : n ∈ p.nodes := List.mem_of_getElem? hn
  obtain ⟨d, houtcome⟩ := hok n hmem
  obtain ⟨args, b, hcall⟩ := Settled.exists_call houtcome
  obtain ⟨s', hexecute, hcalls, hown, hother⟩ := execute_linesOf hstrict
    (h.reads hids hp hb hdeclared hsplit) hcall houtcome fun t ht u hu =>
      Variables.nameOf_inj (mem_slots hmem ht) (mem_slots hmem hu)
  refine ⟨s', hexecute, ?_, ?_⟩
  · intro m hm o ho
    rcases List.mem_append.1 hm with hdone | hnew
    · -- the lines of `n` assign no variable of an earlier node
      rw [hother _ fun t ht => nameOf_ne hids hsplit hdone ho ht]
      exact h.store_eq m hdone o ho
    · obtain rfl : m = n := List.mem_singleton.1 hnew
      rw [hown o ho, Plan.finalValues_eq hids hp hb hn houtcome]
  · rw [hcalls, h.calls_eq, List.map_append, List.filterMap_append]
    simp [Settled.invocation?, hcall]

/-- The rest of the block is executed to the end. -/
lemma run (h : Follows env p done s) (hsplit : p.nodes = done ++ rest) :
    ∃ s', execute env s (rest.flatMap fun n =>
        (linesOf (Variables.ofPlan p) n).map fun line => (n, line)) = .ok s' ∧
      Follows env p p.nodes s' := by
  induction rest generalizing done s with
  | nil =>
    rw [List.append_nil] at hsplit
    exact ⟨s, rfl, hsplit ▸ h⟩
  | cons n rest ih =>
    obtain ⟨s₁, hfirst, h₁⟩ := h.step hids hp hb hdeclared hstrict hok hsplit
    obtain ⟨s₂, hrest, h₂⟩ := ih h₁ (by simp [hsplit])
    refine ⟨s₂, ?_, h₂⟩
    rw [List.flatMap_cons, execute_append, hfirst]
    exact hrest

end Follows

end Block

end Program

/-! ## Refinement -/

/-- **The entry block refines the sequential run**: if no node fails in a strict run that is not
cancelled, the lines that are written for the nodes of the plan are executed to the end, make
the calls of the run in their order, and leave in the variable of every output the value that
the report has for it. -/
theorem Graph.entry_refines (g : Graph) (p : Plan) (program : Program) (env : Environment)
    (token : Option CancelToken) (stopped : Bool) (hplan : g.plan = .ok p)
    (hdeclared : p.Declared) (hprogram : p.program env.registry = .ok program)
    (hstrict : env.policy = .strict)
    (hfailures : (p.runSequential env token stopped).result.failures = [])
    (hran : token = none ∧ stopped = false ∨
      (p.runSequential env token stopped).result.cancelled = false) :
    (Program.block p).map Prod.snd = program.entry ∧
      ∃ s, Program.execute env .start (Program.block p) = .ok s ∧
        s.calls = p.sequentialCalls env token stopped ∧
        ∀ n ∈ p.nodes, ∀ o ∈ n.outputs, ∃ v,
          s.store ((Program.Variables.ofPlan p).nameOf (.output n.id o)) = some v ∧
            (p.runSequential env token stopped).result.output? n.id o = some v := by
  obtain ⟨order, hby⟩ := exists_plannedBy hplan
  have hentry : Program.ofPlan p = program := by
    rw [Plan.program] at hprogram
    split at hprogram
    · simp at hprogram
    · exact Except.ok.inj hprogram
  have hcancelled : (p.runSequential env token stopped).result.cancelled = false := by
    rcases hran with ⟨rfl, rfl⟩ | hran
    · exact Plan.runSequential_not_cancelled fun d _ => d.stops_none
    · exact hran
  have hreport := (Plan.runSequential_eq hcancelled).1
  have hok : ∀ n ∈ p.nodes, ∃ d, (n.settle env (p.finalValues env)).outcome env.policy = .ok d := by
    intro n hn
    rw [hreport, Plan.settledReport, Plan.settled_eq hby.linked hby.backed] at hfailures
    exact Settled.failure?_eq_none_iff.1
      (List.filterMap_eq_nil_iff.1 hfailures _ (List.mem_map_of_mem hn))
  obtain ⟨s, hexecute, hfollows⟩ := (Program.Follows.start env p).run hby.ids_nodup hby.linked
    hby.backed hdeclared hstrict hok (List.nil_append _).symm
  refine ⟨hentry ▸ Program.map_snd_block p, s, hexecute, ?_, ?_⟩
  · rw [hfollows.calls_eq, Plan.sequentialCalls_eq hcancelled,
      Plan.settled_eq hby.linked hby.backed]
  · intro n hn o ho
    obtain ⟨i, hi⟩ := List.mem_iff_getElem?.1 hn
    obtain ⟨d, houtcome⟩ := hok n hn
    obtain ⟨args, b, hcall⟩ := Settled.exists_call houtcome
    obtain ⟨x, -, hshaped⟩ := Settled.of_outcome hcall houtcome
    rw [hstrict] at hshaped
    obtain ⟨v, hv⟩ := shaped_strict_find? hshaped ho
    have hfinal : p.finalValues env n.id o = some v := by
      rw [Plan.finalValues_eq hby.ids_nodup hby.linked hby.backed hi houtcome, hv]
    refine ⟨v, ?_, ?_⟩
    · rw [hfollows.store_eq n hn o ho, hfinal]
    · rw [hreport, Plan.output?_settledReport hby.ids_nodup hby.linked hby.backed hi, hfinal]

/-- A graph in which the plain name of a result, that of the second node, is the plain name of
an output of the first one. -/
def Graph.splitting : Graph where
  nodes := [
    ⟨"s", "split", [], [⟨"lo", none⟩, ⟨"hi", none⟩], none, none, none⟩,
    ⟨"s_lo", "halve", [⟨"v", none, none⟩], [⟨"a", none⟩, ⟨"b", none⟩], none, none, none⟩]
  connections := [⟨"s", "lo", "s_lo", "v"⟩]
  valid := valid_of_fault?_eq_none (by decide)

/-- The plan of `splitting`. -/
def Graph.splittingPlan : Plan where
  nodes := [
    ⟨"s", 0, "split", ["lo", "hi"], [], .static "s", [1], 0⟩,
    ⟨"s_lo", 1, "halve", ["a", "b"], [("v", .connected "s" "lo")], .static "s_lo", [], 1⟩]

/-- An environment for `splitting`. -/
def Graph.splittingEnvironment : Environment where
  registry := Dict.ofList [
    ("s", .const (.map (Dict.ofList [("hi", .int 4), ("lo", .int 2)]))),
    ("s_lo", .const (.map (Dict.ofList [("a", .int 1), ("b", .int 1)])))]
  compiler := fun name message => .error (.compile name message)
  policy := .strict

theorem Graph.entry_refines_splitting :
    splitting.plan = .ok splittingPlan ∧
      ∃ s, Program.execute splittingEnvironment .start (Program.block splittingPlan) = .ok s ∧
        s.calls = splittingPlan.sequentialCalls splittingEnvironment none false ∧
        s.store "node_s_lo" = some (.int 2) := by
  have hplan : splitting.plan = .ok splittingPlan := rfl
  obtain ⟨-, s, hexecute, hcalls, hstore⟩ := entry_refines splitting splittingPlan
    (.ofPlan splittingPlan) splittingEnvironment none false hplan (by decide) rfl rfl rfl
    (.inl ⟨rfl, rfl⟩)
  refine ⟨hplan, s, hexecute, hcalls, ?_⟩
  obtain ⟨v, hv, hreport⟩ := hstore _ List.mem_cons_self "lo" (by decide)
  have hname :
      (Program.Variables.ofPlan splittingPlan).nameOf (.output "s" "lo") = "node_s_lo" := by
    decide
  have hvalue : (splittingPlan.runSequential splittingEnvironment none false).result.output?
      "s" "lo" = some (.int 2) := rfl
  rw [← hname, hv, ← hreport, hvalue]

end Dataflow
