import Mathlib.Data.List.Perm.Subperm
import Dataflow.Proofs.Program.Refinement
import Dataflow.Proofs.Run.Calls

/-!
# The outputs of strict runs

In a strict run a node with several outputs has to return a mapping with exactly these keys.  What
is checked is that the mapping has as many keys as the node has outputs, and every output among
them; if no output is declared twice, that comes to the same (`agrees_iff_keys`), and the outputs
that are stored have the declared names as their keys, however the node ends
(`Graph.strict_shapes`).  A name that is declared twice makes room for a key that is not declared,
and keeps out the mapping with the declared keys (`Graph.doubled_shapes`).
-/

namespace Dataflow

/-! ## Results -/

section Results

variable {declared : List String} {fields outputs : Outputs} {v : Value} {o : String}

/-- With distinct names, as many keys as names and all names among the keys make the keys the
names. -/
lemma agrees_iff_keys (hnodup : declared.Nodup) :
    (fields.size = declared.length ∧ ∀ o ∈ declared, o ∈ fields.keys) ↔
      ∀ o, o ∈ fields.keys ↔ o ∈ declared := by
  have hkeys : fields.keys.length = fields.size := List.length_map _
  constructor
  · rintro ⟨hsize, hall⟩
    have hsub : declared.Subperm fields.keys := hnodup.subperm hall
    have hperm := hsub.perm_of_length_le (by omega)
    exact fun o => hperm.symm.mem_iff
  · intro hsame
    have hperm : fields.keys.Perm declared :=
      (List.perm_ext_iff_of_nodup (Entries.keys_nodup fields) hnodup).2 hsame
    exact ⟨hkeys ▸ hperm.length_eq, fun o ho => (hsame o).2 ho⟩

/-- What becomes of a mapping that a node with several outputs returns. -/
lemma shaped_strict_map (h : 1 < declared.length) (fields : Outputs) :
    shaped .strict declared (.map fields) =
      if fields.size = declared.length ∧ ∀ o ∈ declared, o ∈ fields.keys then .ok fields
      else .error (.wrongShape declared (.mapping fields.keys)) := by
  have hagrees : (OutputPolicy.strict = .lenient ∨
      (fields.size == declared.length && declared.all fun o => fields.contains o) = true) ↔
        fields.size = declared.length ∧ ∀ o ∈ declared, o ∈ fields.keys := by
    simp [Entries.contains, Entries.mem_keys_iff, Option.isSome_iff_exists]
  rcases declared with _ | ⟨o, _ | ⟨o', rest⟩⟩
  · simp at h
  · simp at h
  · rw [shaped]
    · exact if_congr hagrees rfl rfl
    · simp
    · simp

/-- The outputs that are made of a result have the declared names as their keys. -/
lemma keys_of_shaped (hnodup : declared.Nodup) (h : shaped .strict declared v = .ok outputs) :
    o ∈ outputs.keys ↔ o ∈ declared := by
  rcases hdeclared : declared with _ | ⟨a, _ | ⟨b, rest⟩⟩
  · rw [hdeclared] at h
    obtain rfl : Dict.empty = outputs := Except.ok.inj h
    simp [Entries.mem_keys_iff, Dict.empty]
  · rw [hdeclared] at h
    obtain rfl : Dict.empty.insert a v = outputs := Except.ok.inj h
    rw [Entries.mem_keys_iff, Dict.find?_insert, List.mem_singleton]
    by_cases ho : o = a <;> simp [ho, Dict.empty]
  · have hseveral : 1 < declared.length := by simp [hdeclared]
    obtain ⟨rfl, -⟩ := shaped_strict_several hseveral h
    rw [shaped_strict_map hseveral] at h
    split at h
    · rename_i hagrees
      rw [← hdeclared]
      exact (agrees_iff_keys hnodup).1 hagrees o
    · simp at h

end Results

lemma PlannedNode.mem_keys_nulls {n : PlannedNode} {o : String} :
    o ∈ n.nulls.keys ↔ o ∈ n.outputs := by
  rw [Entries.mem_keys_iff, find?_nulls]
  by_cases ho : o ∈ n.outputs <;> simp [ho]

/-! ## Nodes -/

namespace Settled

variable {d : Settled} {o : String}

/-- What comes of a node whose call returns a value. -/
lemma outcome_of_invocation? {c : Invocation} {v : Value} (hc : d.invocation? = some c)
    (hv : (c.behavior c.arguments).outcome = .value v) (policy : OutputPolicy) :
    d.outcome policy = shaped policy d.node.outputs v := by
  rw [invocation?] at hc
  split at hc
  · rename_i args b hcall
    obtain rfl := Option.some.inj hc
    rw [outcome, hcall]
    change (fromCall (b args).outcome.contained).bind _ = _
    change (b args).outcome = .value v at hv
    rw [hv]
    rfl
  · simp at hc

lemma keys_of_failure (h : d.failure? .strict ≠ none) :
    o ∈ (d.outputs .strict).keys ↔ o ∈ d.node.outputs := by
  rw [outputs_of_failure h, PlannedNode.mem_keys_nulls]

/-- The outputs of a node with distinct names have these as their keys. -/
lemma keys_of_nodup (hnodup : d.node.outputs.Nodup) :
    o ∈ (d.outputs .strict).keys ↔ o ∈ d.node.outputs := by
  by_cases hfailure : d.failure? .strict = none
  · obtain ⟨outputs, houtcome⟩ := failure?_eq_none_iff.1 hfailure
    obtain ⟨args, b, hcall⟩ := exists_call houtcome
    obtain ⟨v, -, hshaped⟩ := of_outcome hcall houtcome
    rw [Settled.outputs, houtcome]
    exact keys_of_shaped hnodup hshaped
  · exact keys_of_failure hfailure

/-- A node with several outputs whose call returns a mapping fails if the mapping does not agree
with the outputs. -/
lemma failure?_of_map {c : Invocation} {fields : Outputs} (hc : d.invocation? = some c)
    (hv : (c.behavior c.arguments).outcome = .value (.map fields))
    (hseveral : 1 < d.node.outputs.length) :
    d.failure? .strict =
      if fields.size = d.node.outputs.length ∧ ∀ o ∈ d.node.outputs, o ∈ fields.keys then none
      else some (d.node.fault (.wrongShape d.node.outputs (.mapping fields.keys))) := by
  rw [failure?, outcome_of_invocation? hc hv, shaped_strict_map hseveral]
  split
  · rename_i outputs heq
    split at heq
    · rename_i hagrees
      rw [if_pos hagrees]
    · simp at heq
  · rename_i fault heq
    split at heq
    · simp at heq
    · rename_i hagrees
      rw [if_neg hagrees, Except.error.inj heq]

end Settled

/-! ## Runs -/

lemma Settled.failure?_ne_none_of_invocation? {d : Settled} (policy : OutputPolicy)
    (h : d.invocation? = none) : d.failure? policy ≠ none := by
  intro hfailure
  obtain ⟨outputs, houtcome⟩ := failure?_eq_none_iff.1 hfailure
  obtain ⟨args, b, hcall⟩ := exists_call houtcome
  rw [invocation?, hcall] at h
  simp at h

/-- **In a strict run the outputs of a node have the declared names as their keys**, if the node
fails, and also if it does not, provided that no name is declared twice.  The report has outputs
of exactly the nodes that were executed: their call was made, or a fault kept them from being
called.  A node with several outputs whose call returns a mapping fails for its shape exactly if
the mapping does not have as many keys as the node has outputs, and all of them among its keys; if
no name is declared twice, that is, if its keys are not the declared names. -/
theorem Graph.strict_shapes (g : Graph) (p : Plan) (hplan : g.plan = .ok p)
    (calls : List (ℕ × Invocation)) (r : Report) (hr : p.Runs .strict calls r) (i : ℕ)
    (n : PlannedNode) (hn : p.nodes[i]? = some n) :
    ((∃ outputs, r.outputs.find? n.id = some outputs) ↔
        (∃ c, (i, c) ∈ calls) ∨ r.failure? n.id ≠ none) ∧
      (∀ outputs, r.outputs.find? n.id = some outputs → r.failure? n.id ≠ none ∨ n.outputs.Nodup →
        ∀ o, o ∈ outputs.keys ↔ o ∈ n.outputs) ∧
      ∀ c fields, (i, c) ∈ calls → (c.behavior c.arguments).outcome = .value (.map fields) →
        1 < n.outputs.length →
          (r.failure? n.id = some (n.fault (.wrongShape n.outputs (.mapping fields.keys))) ↔
            ¬ (fields.size = n.outputs.length ∧ ∀ o ∈ n.outputs, o ∈ fields.keys)) ∧
          (n.outputs.Nodup →
            (r.failure? n.id = some (n.fault (.wrongShape n.outputs (.mapping fields.keys))) ↔
              ¬ ∀ o, o ∈ fields.keys ↔ o ∈ n.outputs)) := by
  obtain ⟨order, hby⟩ := exists_plannedBy hplan
  rcases hr.tells hby.ids_nodup hby.linked hn with
    ⟨hout, hfailure, hcalls⟩ | ⟨d, rfl, hcalls, hout, hfailure⟩
  · -- the node was not executed
    refine ⟨?_, fun outputs h => by simp [hout] at h, fun c fields hc => absurd hc (hcalls c)⟩
    simp [hout, hfailure, hcalls]
  · rw [hfailure, hout]
    refine ⟨iff_of_true ⟨_, rfl⟩ ?_, fun outputs h hkeys o => ?_, ?_⟩
    · cases hinvocation : d.invocation? with
      | none => exact .inr (Settled.failure?_ne_none_of_invocation? .strict hinvocation)
      | some c => exact .inl ⟨c, (hcalls c).2 hinvocation⟩
    · obtain rfl := Option.some.inj h
      rcases hkeys with hfails | hnodup
      · exact Settled.keys_of_failure hfails
      · exact Settled.keys_of_nodup hnodup
    · intro c fields hc hv hseveral
      have hshape : d.failure? .strict =
          some (d.node.fault (.wrongShape d.node.outputs (.mapping fields.keys))) ↔
            ¬ (fields.size = d.node.outputs.length ∧ ∀ o ∈ d.node.outputs, o ∈ fields.keys) := by
        rw [Settled.failure?_of_map ((hcalls c).1 hc) hv hseveral]
        split
        · rename_i hagrees
          exact iff_of_false (by simp) (not_not_intro hagrees)
        · rename_i hagrees
          exact iff_of_true rfl hagrees
      exact ⟨hshape, fun hnodup => by rw [hshape, agrees_iff_keys hnodup]⟩

/-- An environment for `splitting`, in which the second node returns a mapping with another key
than its second output. -/
def Graph.misshapingEnvironment : Environment :=
  { splittingEnvironment with
    registry := splittingEnvironment.registry.insert "s_lo"
      (.const (.map (Dict.ofList [("a", .int 1), ("c", .int 1)]))) }

theorem Graph.strict_shapes_splitting :
    splitting.plan = .ok splittingPlan ∧
      ∃ calls r outputs, splittingPlan.Runs .strict calls r ∧
        r.outputs.find? "s_lo" = some outputs ∧ (∀ o, o ∈ outputs.keys ↔ o ∈ ["a", "b"]) ∧
        r.failure? "s_lo" =
          some ⟨"s_lo", "halve", .wrongShape ["a", "b"] (.mapping ["a", "c"])⟩ := by
  have hplan : splitting.plan = .ok splittingPlan := rfl
  let n : PlannedNode :=
    ⟨"s_lo", 1, "halve", ["a", "b"], [("v", .connected "s" "lo")], .static "s_lo", [], 1⟩
  let fields : Outputs := Dict.ofList [("a", .int 1), ("c", .int 1)]
  have hrun := Plan.Runs.sequential (p := splittingPlan) (.steady misshapingEnvironment) rfl none
    false
  have hcall : (1, ⟨"s_lo", .const (.map fields), ⟨[("v", .int 2)]⟩⟩) ∈
      splittingPlan.callsIn (.steady misshapingEnvironment) none false :=
    List.mem_of_getElem? (i := 1) rfl
  have hout : (splittingPlan.runSequentialIn (.steady misshapingEnvironment) none
      false).result.outputs.find? n.id = some n.nulls := rfl
  obtain ⟨-, hkeys, hshape⟩ := strict_shapes splitting splittingPlan hplan _ _ hrun 1 n rfl
  have hnodup : n.outputs.Nodup := by decide
  have hdiffers : ¬ ∀ o, o ∈ fields.keys ↔ o ∈ n.outputs := by
    intro hsame
    simpa [n] using (hsame "c").1 (by decide)
  obtain ⟨-, hiff⟩ := hshape _ fields hcall rfl (by decide)
  exact ⟨hplan, _, _, _, hrun, hout, hkeys _ hout (.inr hnodup), (hiff hnodup).2 hdiffers⟩

/-- A graph with a node that declares an output twice. -/
def Graph.doubled : Graph where
  nodes := [⟨"n", "f", [], [⟨"x", none⟩, ⟨"x", none⟩], none, none, none⟩]
  connections := []
  valid := valid_of_fault?_eq_none (by decide)

/-- The plan of `doubled`. -/
def Graph.doubledPlan : Plan := ⟨[⟨"n", 0, "f", ["x", "x"], [], .static "n", [], 0⟩]⟩

/-- A strict environment for `doubled`, in which the node returns a mapping with given keys. -/
def Graph.doubledEnvironment (keys : List String) : Environment where
  registry := Dict.ofList [("n", .const (.map (Dict.ofList (keys.map fun key => (key, .null)))))]
  compiler := fun name message => .error (.compile name message)
  policy := .strict

/-- A node that declares an output twice may put out a key that it does not declare, and fails for
its shape when its result has the declared keys. -/
theorem Graph.doubled_shapes :
    doubled.plan = .ok doubledPlan ∧
      (∃ r, (doubledPlan.runSequential (doubledEnvironment ["x", "y"]) none false).result = r ∧
        r.failures = [] ∧ (r.outputs.find? "n").map Entries.keys = some ["x", "y"]) ∧
      ∃ r, (doubledPlan.runSequential (doubledEnvironment ["x"]) none false).result = r ∧
        r.failures = [⟨"n", "f", .wrongShape ["x", "x"] (.mapping ["x"])⟩] :=
  ⟨rfl, ⟨_, rfl, rfl, by decide⟩, _, rfl, rfl⟩

end Dataflow
