import Mathlib.Data.List.Forall2
import Dataflow.Proofs.Run.Outcome

/-!
# Arguments

The arguments of a call are the values of the bindings of its node, one for each and in the same
order (`PlannedNode.forall₂_gathered`).  A node that is missing an input is so because of one of
its bindings (`PlannedNode.exists_binding_of_missingInput`): nothing else that can keep a node
from running is reported in this way.
-/

namespace Dataflow

variable {env : Environment} {available : Available} {policy : OutputPolicy} {n : PlannedNode}
  {fault : NodeFault} {input : String}

/-! ## Values of bindings -/

/-- An argument that a binding gives, under its own name. -/
def Binding.Gives (available : Available) (binding : String × Binding)
    (argument : String × Value) : Prop :=
  argument.1 = binding.1 ∧ binding.2.value available binding.1 = .ok argument.2

lemma Binding.of_value_connected {node output : String} {v : Value}
    (h : (connected node output).value available input = .ok v) :
    available node output = some v := by
  rw [value] at h
  split at h
  · rename_i v' hv'
    rw [hv', Except.ok.inj h]
  · simp at h

/-- The only fault of a binding is that the input is missing: nothing is bound to it, or an
output that is not there. -/
lemma Binding.of_value_error {b : Binding} (h : b.value available input = .error fault) :
    fault = .missingInput input ∧
      (b = .missing ∨
        ∃ node output, b = .connected node output ∧ available node output = none) := by
  cases b with
  | connected node output =>
    rw [value] at h
    split at h
    · simp at h
    · rename_i hnone
      exact ⟨(Except.error.inj h).symm, .inr ⟨node, output, rfl, hnone⟩⟩
  | literal v => simp [value] at h
  | missing => exact ⟨(Except.error.inj h).symm, .inl rfl⟩

/-! ## Gathering -/

lemma exists_added_of_gather {bindings : List (String × Binding)} {args args' : Arguments}
    (h : gather available args bindings = .ok args') :
    ∃ added, args'.entries = args.entries ++ added ∧
      List.Forall₂ (Binding.Gives available) bindings added := by
  induction bindings generalizing args with
  | nil => exact ⟨[], by rw [← Except.ok.inj h, List.append_nil], .nil⟩
  | cons b bindings ih =>
    obtain ⟨name, binding⟩ := b
    rw [gather] at h
    cases hv : binding.value available name with
    | error fault => simp [hv, bind, Except.bind] at h
    | ok v =>
      have hrest : gather available (args.push name v) bindings = .ok args' := by
        simpa [hv, bind, Except.bind] using h
      obtain ⟨added, heq, hadded⟩ := ih hrest
      refine ⟨(name, v) :: added, ?_, .cons ⟨rfl, hv⟩ hadded⟩
      rw [heq, Arguments.push, List.append_assoc, List.singleton_append]

lemma exists_binding_of_gather_error {bindings : List (String × Binding)} {args : Arguments}
    (h : gather available args bindings = .error fault) :
    ∃ b ∈ bindings, b.2.value available b.1 = .error fault := by
  induction bindings generalizing args with
  | nil => simp [gather] at h
  | cons b bindings ih =>
    obtain ⟨name, binding⟩ := b
    rw [gather] at h
    cases hv : binding.value available name with
    | error fault' =>
      obtain rfl : fault' = fault := by simpa [hv, bind, Except.bind] using h
      exact ⟨_, List.mem_cons_self, hv⟩
    | ok v =>
      have hrest : gather available (args.push name v) bindings = .error fault := by
        simpa [hv, bind, Except.bind] using h
      obtain ⟨b, hb, hvalue⟩ := ih hrest
      exact ⟨b, List.mem_cons_of_mem _ hb, hvalue⟩

namespace PlannedNode

/-- Each binding of a node gives one of its arguments, in the same order. -/
lemma forall₂_gathered {args : Arguments} (h : n.gathered available = .ok args) :
    List.Forall₂ (Binding.Gives available) n.arguments args.entries := by
  rw [gathered] at h
  split at h
  · simp at h
  · obtain ⟨added, heq, hadded⟩ := exists_added_of_gather h
    rwa [heq, List.nil_append]

lemma exists_binding_of_gathered_error (h : n.gathered available = .error fault) :
    ∃ b ∈ n.arguments, b.2.value available b.1 = .error fault := by
  rw [gathered] at h
  split at h
  · -- an input without a binding
    rename_i input hmissing
    obtain ⟨⟨name, binding⟩, hfind, rfl⟩ := Option.map_eq_some_iff.1 hmissing
    have hbinding : binding.isMissing = true := by simpa using List.find?_some hfind
    refine ⟨_, List.mem_of_find?_eq_some hfind, ?_⟩
    cases binding with
    | missing => rw [Binding.value, Except.error.inj h]
    | connected _ _ => simp [Binding.isMissing] at hbinding
    | literal _ => simp [Binding.isMissing] at hbinding
  · exact exists_binding_of_gather_error h

end PlannedNode

/-! ## Missing inputs -/

lemma fromCall_ne_missingInput {α : Type} (r : Except BehaviorError α) :
    fromCall r ≠ .error (.missingInput input) := by
  cases r <;> simp [fromCall]

lemma BehaviorSource.resolve_ne_missingInput (b : BehaviorSource) (r : Registry) :
    b.resolve r available ≠ .error (.missingInput input) := by
  cases b with
  | static key =>
    rw [resolve]
    split <;> simp
  | external module name =>
    rw [resolve]
    split <;> simp
  | inline source => simp [resolve]
  | upstream node output =>
    rw [resolve]
    split <;> simp

lemma shaped_ne_missingInput (outputs : List String) (v : Value) :
    shaped policy outputs v ≠ .error (.missingInput input) := by
  unfold shaped
  split
  · simp
  · simp
  · cases v with
    | map fields =>
      simp only
      split <;> simp
    | _ => simp

/-- That no function is found is not reported as a missing input. -/
lemma PlannedNode.function_ne_missingInput :
    n.function env available ≠ .error (.missingInput input) := by
  intro h
  rw [function] at h
  split at h
  · rename_i fault hfault
    rw [Except.error.inj h] at hfault
    exact n.behavior.resolve_ne_missingInput env.registry hfault
  · simp at h
  · exact fromCall_ne_missingInput _ h

/-- Nor is a call that fails, or that returns a value of the wrong shape. -/
lemma Settled.outcome_ne_missingInput {args : Arguments} {b : Behavior} :
    Settled.outcome policy ⟨n, .ok (args, b)⟩ ≠ .error (.missingInput input) := by
  intro h
  replace h : (fromCall (b args).outcome.contained).bind (shaped policy n.outputs) =
    .error (.missingInput input) := h
  cases hvalue : fromCall (b args).outcome.contained with
  | error fault =>
    rw [hvalue] at h
    obtain rfl := Except.error.inj h
    exact fromCall_ne_missingInput _ hvalue
  | ok v =>
    rw [hvalue] at h
    exact shaped_ne_missingInput n.outputs v h

/-- A node is missing an input only if nothing is bound to it, or an output that is not there. -/
lemma PlannedNode.exists_binding_of_missingInput
    (h : (n.settle env available).outcome policy = .error (.missingInput input)) :
    (input, .missing) ∈ n.arguments ∨
      ∃ node output, (input, .connected node output) ∈ n.arguments ∧
        available node output = none := by
  cases hargs : n.gathered available with
  | error fault =>
    rw [settle_of_gathered_error hargs] at h
    obtain ⟨⟨name, b⟩, hb, hvalue⟩ := exists_binding_of_gathered_error hargs
    obtain ⟨hfault, hcases⟩ := Binding.of_value_error hvalue
    obtain rfl : name = input := by
      rw [hfault] at h
      simpa [Settled.outcome] using h
    rcases hcases with rfl | ⟨node, output, rfl, hnone⟩
    · exact .inl hb
    · exact .inr ⟨node, output, hb, hnone⟩
  | ok args =>
    cases hfunction : n.function env available with
    | error fault =>
      rw [settle_of_function_error hargs hfunction] at h
      obtain rfl : fault = .missingInput input := by simpa [Settled.outcome] using h
      exact absurd hfunction function_ne_missingInput
    | ok b =>
      rw [settle_of_ok hargs hfunction] at h
      exact absurd h Settled.outcome_ne_missingInput

end Dataflow
