import Mathlib.Data.List.Basic
import Dataflow.Proofs.Plan.Links
import Dataflow.Run.Realization
import Dataflow.Run.Report

/-!
# What a node comes to

A node is settled by what the nodes before it have put out: this decides its arguments and its
function, and with them its outputs or its fault.  Nothing else enters, in particular not the
functions that happen to be compiled already (`Environment.realize_settle`), and of the other
outputs only those that the node refers to (`PlannedNode.settle_congr`).
-/

namespace Dataflow

/-! ## Calls -/

/-- No event cancels a token that is not there. -/
lemma Event.stops_none (e : Event) : e.stops none = false := by
  unfold stops
  split <;> simp_all

/-- The function that a node calls, compiled afresh if it comes as text. -/
def PlannedNode.function (env : Environment) (available : Available) (n : PlannedNode) :
    Except NodeFault Behavior :=
  match n.behavior.resolve env.registry available with
  | .error fault => .error fault
  | .ok (.ready b) => .ok b
  | .ok (.text source) => env.compiled n.name source

/-- A node and its call: the arguments and the function, or what keeps it from being called. -/
structure Settled where
  node : PlannedNode
  call : Except NodeFault (Arguments × Behavior)

/-- A node with the call that it makes. -/
def PlannedNode.settle (env : Environment) (available : Available) (n : PlannedNode) : Settled where
  node := n
  call := do
    let args ← n.gathered available
    return (args, ← n.function env available)

namespace Settled

/-- What comes of a node. -/
def outcome (policy : OutputPolicy) (s : Settled) : Except NodeFault Outputs :=
  match s.call with
  | .error fault => .error fault
  | .ok (args, b) => (fromCall (b args).outcome.contained).bind (shaped policy s.node.outputs)

/-- The outputs that are stored for a node. -/
def outputs (policy : OutputPolicy) (s : Settled) : Outputs :=
  match s.outcome policy with
  | .ok outputs => outputs
  | .error _ => s.node.nulls

/-- The failure of a node, if it fails. -/
def failure? (policy : OutputPolicy) (s : Settled) : Option NodeError :=
  match s.outcome policy with
  | .ok _ => none
  | .error fault => some (s.node.fault fault)

/-- The effects of a node: those of its call. -/
def effects (s : Settled) : List Effect :=
  match s.call with
  | .error _ => []
  | .ok (args, b) => (b args).effects

/-- Whether the call of a node cancels the token that a run heeds. -/
def stops (token : Option CancelToken) (s : Settled) : Bool :=
  s.effects.any fun e => Event.stops token (.effect e)

/-- What is stored at the places of a list of nodes. -/
def slots (policy : OutputPolicy) (l : List Settled) : Slots :=
  fun place => l[place]?.map (outputs policy)

end Settled

section Settle

variable {env : Environment} {available available' : Available} {n : PlannedNode}

lemma Settled.stops_none (d : Settled) : d.stops none = false := by
  simp [stops, Event.stops_none]

lemma Settled.failure?_eq_none_iff {policy : OutputPolicy} {d : Settled} :
    d.failure? policy = none ↔ ∃ outputs, d.outcome policy = .ok outputs := by
  unfold failure?
  cases d.outcome policy <;> simp

@[simp] lemma PlannedNode.settle_node : (n.settle env available).node = n := rfl

/-! ### One lemma for each way a call comes about -/

lemma PlannedNode.settle_of_gathered_error {fault : NodeFault}
    (h : n.gathered available = .error fault) :
    n.settle env available = ⟨n, .error fault⟩ := by
  simp [settle, h, bind, Except.bind]

lemma PlannedNode.settle_of_function_error {args : Arguments} {fault : NodeFault}
    (h : n.gathered available = .ok args) (hf : n.function env available = .error fault) :
    n.settle env available = ⟨n, .error fault⟩ := by
  simp [settle, h, hf, bind, Except.bind]

lemma PlannedNode.settle_of_ok {args : Arguments} {b : Behavior}
    (h : n.gathered available = .ok args) (hf : n.function env available = .ok b) :
    n.settle env available = ⟨n, .ok (args, b)⟩ := by
  simp [settle, h, hf, bind, Except.bind, pure, Except.pure]

lemma PlannedNode.function_of_error {fault : NodeFault}
    (h : n.behavior.resolve env.registry available = .error fault) :
    n.function env available = .error fault := by
  rw [function, h]

lemma PlannedNode.function_of_ready {b : Behavior}
    (h : n.behavior.resolve env.registry available = .ok (.ready b)) :
    n.function env available = .ok b := by
  rw [function, h]

lemma PlannedNode.function_of_text {source : String}
    (h : n.behavior.resolve env.registry available = .ok (.text source)) :
    n.function env available = env.compiled n.name source := by
  rw [function, h]

lemma PlannedNode.of_settle_call {args : Arguments} {b : Behavior}
    (h : (n.settle env available).call = .ok (args, b)) :
    n.gathered available = .ok args ∧ n.function env available = .ok b := by
  cases hargs : n.gathered available with
  | error fault => simp [settle_of_gathered_error hargs] at h
  | ok args' =>
    cases hfunction : n.function env available with
    | error fault => simp [settle_of_function_error hargs hfunction] at h
    | ok b' =>
      rw [settle_of_ok hargs hfunction] at h
      obtain ⟨rfl, rfl⟩ : args' = args ∧ b' = b := by simpa using h
      exact ⟨rfl, rfl⟩

lemma Settled.exists_call {policy : OutputPolicy} {d : Settled} {outputs : Outputs}
    (h : d.outcome policy = .ok outputs) : ∃ args b, d.call = .ok (args, b) := by
  rw [outcome] at h
  split at h
  · simp at h
  · rename_i args b hcall
    exact ⟨args, b, hcall⟩

/-- A node with an outcome has a call that returned a value. -/
lemma Settled.of_outcome {policy : OutputPolicy} {d : Settled} {outputs : Outputs}
    {args : Arguments} {b : Behavior} (hcall : d.call = .ok (args, b))
    (h : d.outcome policy = .ok outputs) :
    ∃ v, (b args).outcome.contained = .ok v ∧ shaped policy d.node.outputs v = .ok outputs := by
  rw [outcome, hcall] at h
  cases hvalue : (b args).outcome.contained with
  | error e => simp [hvalue, fromCall, Except.bind] at h
  | ok v => exact ⟨v, rfl, by simpa [hvalue, fromCall, Except.bind] using h⟩

/-! ### What a call depends on -/

lemma Binding.value_congr {b : Binding} (input : String)
    (h : ∀ r, b.reference? = some r → available r.1 r.2 = available' r.1 r.2) :
    b.value available input = b.value available' input := by
  cases b with
  | connected node output =>
    have hread : available node output = available' node output := h (node, output) rfl
    rw [value, value, hread]
  | literal _ => rfl
  | missing => rfl

lemma gather_congr {bindings : List (String × Binding)} (args : Arguments)
    (h : ∀ b ∈ bindings, ∀ r, b.2.reference? = some r → available r.1 r.2 = available' r.1 r.2) :
    gather available args bindings = gather available' args bindings := by
  induction bindings generalizing args with
  | nil => rfl
  | cons b bindings ih =>
    obtain ⟨input, binding⟩ := b
    have hrest := fun args => ih args fun c hc => h c (List.mem_cons_of_mem _ hc)
    rw [gather, gather, Binding.value_congr input (h (input, binding) List.mem_cons_self)]
    cases binding.value available' input with
    | error fault => rfl
    | ok v => exact hrest (args.push input v)

lemma BehaviorSource.resolve_congr {b : BehaviorSource} (r : Registry)
    (h : ∀ r, b.reference? = some r → available r.1 r.2 = available' r.1 r.2) :
    b.resolve r available = b.resolve r available' := by
  cases b with
  | upstream node output =>
    have hread : available node output = available' node output := h (node, output) rfl
    rw [resolve, resolve, hread]
  | static _ => rfl
  | inline _ => rfl
  | external _ _ => rfl

lemma PlannedNode.argument_mem_references {b : String × Binding} (hb : b ∈ n.arguments)
    {r : String × String} (hr : b.2.reference? = some r) : r ∈ n.references :=
  List.mem_append_left _ (List.mem_filterMap.2 ⟨b, hb, hr⟩)

lemma PlannedNode.behavior_mem_references {r : String × String}
    (hr : n.behavior.reference? = some r) : r ∈ n.references :=
  List.mem_append_right _ (by rw [hr]; simp)

lemma PlannedNode.function_congr
    (h : ∀ r, n.behavior.reference? = some r → available r.1 r.2 = available' r.1 r.2) :
    n.function env available = n.function env available' := by
  rw [function, function, BehaviorSource.resolve_congr env.registry h]

/-- A node is settled by the outputs that it refers to. -/
lemma PlannedNode.settle_congr (h : ∀ r ∈ n.references, available r.1 r.2 = available' r.1 r.2) :
    n.settle env available = n.settle env available' := by
  have hgathered : n.gathered available = n.gathered available' := by
    unfold gathered
    split
    · rfl
    · exact gather_congr _ fun b hb r hr => h r (argument_mem_references hb hr)
  have hfunction : n.function env available = n.function env available' :=
    function_congr fun r hr => h r (behavior_mem_references hr)
  rw [settle, settle, hgathered, hfunction]

/-! ### Invocations -/

/-- A call for a node. -/
structure Invocation where
  node : String
  behavior : Behavior
  arguments : Arguments

/-- The effects of a call. -/
def Invocation.effects (c : Invocation) : List Effect := (c.behavior c.arguments).effects

/-- The call of a settled node, if it makes one. -/
def Settled.invocation? (d : Settled) : Option Invocation :=
  match d.call with
  | .ok (args, b) => some ⟨d.node.id, b, args⟩
  | .error _ => none

/-- The call that a node makes when it is realized, if it comes to that. -/
def Environment.invocation? (env : Environment) (available : Available) (cache : Cache)
    (n : PlannedNode) : Option Invocation :=
  match n.gathered available, n.behavior.resolve env.registry available with
  | .ok args, .ok (.ready b) => some ⟨n.id, b, args⟩
  | .ok args, .ok (.text source) =>
    match cache.find? n.name source with
    | some b => some ⟨n.id, b, args⟩
    | none =>
      match env.compiled n.name source with
      | .ok b => some ⟨n.id, b, args⟩
      | .error _ => none
  | _, _ => none

lemma Settled.effects_eq (d : Settled) :
    d.effects = d.invocation?.toList.flatMap Invocation.effects := by
  unfold Settled.effects Settled.invocation?
  cases d.call with
  | ok _ => simp [Invocation.effects]
  | error _ => rfl

/-! ### The cache -/

/-- The functions that a cache holds are those that compiling gives. -/
def Cache.Sound (env : Environment) (cache : Cache) : Prop :=
  ∀ name source b, cache.find? name source = some b → env.compiled name source = .ok b

lemma Cache.sound_nil : Cache.Sound env [] := by
  intro name source b h
  simp [Cache.find?] at h

lemma Cache.Sound.cons {cache : Cache} (h : cache.Sound env) {name source : String}
    {b : Behavior} (hb : env.compiled name source = .ok b) :
    Cache.Sound env (((name, source), b) :: cache) := by
  intro name' source' b' hfind
  by_cases heq : (name, source) = (name', source')
  · obtain ⟨rfl, rfl⟩ := Prod.mk.inj heq
    have hbb : b = b' := by simpa [Cache.find?] using hfind
    rw [← hbb, hb]
  · refine h name' source' b' ?_
    rw [Cache.find?, List.find?_cons_of_neg (by simpa using heq)] at hfind
    exact hfind

lemma called_result {args : Arguments} {b : Behavior} {cache : Cache} {events : List Event} :
    (env.called n args b cache events).result =
      Settled.outcome env.policy ⟨n, .ok (args, b)⟩ := rfl

/-- What realizing a node gives, with a cache that is sound: the outcome of the settled node, a
sound cache, no effects but those of the call, and the call of the settled node. -/
lemma Environment.realize_settle {cache : Cache} (h : cache.Sound env) (available : Available)
    (n : PlannedNode) :
    (env.realize available cache n).result = (n.settle env available).outcome env.policy ∧
      (env.realize available cache n).cache.Sound env ∧
      (∃ compiled : List String, (env.realize available cache n).events =
        compiled.map .compiled ++ (n.settle env available).effects.map .effect) ∧
      env.invocation? available cache n = (n.settle env available).invocation? := by
  -- the cases are those of `realize`, in its order
  cases hargs : n.gathered available with
  | error fault =>
    have hrealize : env.realize available cache n = ⟨.error fault, cache, []⟩ := by
      simp [realize, hargs, bind, Except.bind]
    rw [hrealize, PlannedNode.settle_of_gathered_error hargs]
    exact ⟨rfl, h, ⟨[], rfl⟩, by simp [invocation?, hargs, Settled.invocation?]⟩
  | ok args =>
    cases hsource : n.behavior.resolve env.registry available with
    | error fault =>
      have hrealize : env.realize available cache n = ⟨.error fault, cache, []⟩ := by
        simp [realize, hargs, hsource, bind, Except.bind]
      rw [hrealize, PlannedNode.settle_of_function_error hargs
        (PlannedNode.function_of_error hsource)]
      exact ⟨rfl, h, ⟨[], rfl⟩, by simp [invocation?, hargs, hsource, Settled.invocation?]⟩
    | ok f =>
      cases f with
      | ready b =>
        have hrealize : env.realize available cache n = env.called n args b cache [] := by
          simp [realize, hargs, hsource, bind, Except.bind, pure, Except.pure]
        rw [hrealize, PlannedNode.settle_of_ok hargs (PlannedNode.function_of_ready hsource)]
        exact ⟨rfl, h, ⟨[], rfl⟩, by simp [invocation?, hargs, hsource, Settled.invocation?]⟩
      | text source =>
        have hfunction := PlannedNode.function_of_text hsource
        cases hhit : cache.find? n.name source with
        | some b =>
          have hrealize : env.realize available cache n = env.called n args b cache [] := by
            simp [realize, hargs, hsource, hhit, bind, Except.bind, pure, Except.pure]
          rw [hrealize, PlannedNode.settle_of_ok hargs (hfunction.trans (h _ _ _ hhit))]
          exact ⟨rfl, h, ⟨[], rfl⟩,
            by simp [invocation?, hargs, hsource, hhit, Settled.invocation?]⟩
        | none =>
          cases hcompiled : env.compiled n.name source with
          | error fault =>
            have hrealize : env.realize available cache n =
                ⟨.error fault, cache, [.compiled n.name]⟩ := by
              simp [realize, hargs, hsource, hhit, hcompiled, bind, Except.bind, pure, Except.pure]
            rw [hrealize, PlannedNode.settle_of_function_error hargs (hfunction.trans hcompiled)]
            exact ⟨rfl, h, ⟨[n.name], rfl⟩,
              by simp [invocation?, hargs, hsource, hhit, hcompiled, Settled.invocation?]⟩
          | ok b =>
            have hrealize : env.realize available cache n =
                env.called n args b (((n.name, source), b) :: cache) [.compiled n.name] := by
              simp [realize, hargs, hsource, hhit, hcompiled, bind, Except.bind, pure, Except.pure]
            rw [hrealize, PlannedNode.settle_of_ok hargs (hfunction.trans hcompiled)]
            exact ⟨rfl, h.cons hcompiled, ⟨[n.name], rfl⟩,
              by simp [invocation?, hargs, hsource, hhit, hcompiled, Settled.invocation?]⟩

/-- What is stored for a node that is realized is what the settled node puts out. -/
lemma Realized.stored_of_result {policy : OutputPolicy} {d : Settled} {r : Realized}
    (h : r.result = d.outcome policy) : r.stored d.node = d.outputs policy := by
  cases houtcome : d.outcome policy <;> simp [stored, Settled.outputs, h, houtcome]

lemma Realized.failure_of_result {policy : OutputPolicy} {d : Settled} {r : Realized}
    (h : r.result = d.outcome policy) : r.fault?.map d.node.fault = d.failure? policy := by
  cases houtcome : d.outcome policy <;> simp [fault?, Settled.failure?, h, houtcome]

end Settle

end Dataflow
