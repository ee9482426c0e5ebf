import Dataflow.Proofs.Run.AnyOutcome
import Dataflow.Proofs.Run.FailSoft

/-!
# Nodes that nothing can call

A node with an input that nothing is bound to, or with a function that should be in the registry
and is not, can be told from the plan and the registry alone (`PlannedNode.staticFault?`).  A run
checks neither in advance.  When it comes to the node, whatever happened before, the node fails:
an input without a binding is looked for first, then the values of the connected inputs, and the
function last (`PlannedNode.settle_of_lacks`).  In a parallel run the task of such a node makes no
call, and stores outputs only after it has recorded a fault (`Doom`).
-/

namespace Dataflow

lemma Binding.isMissing_iff {b : Binding} : b.isMissing = true ↔ b = .missing := by
  cases b <;> simp [isMissing]

namespace PlannedNode

variable {r r' : Registry} {n : PlannedNode} {f f' : NodeFault} {input : String}
  {env : Environment} {available : Available}

/-- A node that nothing can call: an input has no binding, or the function should be in the
registry and is not there. -/
def Unprovided (r : Registry) (n : PlannedNode) : Prop :=
  (∃ input, (input, .missing) ∈ n.arguments) ∨
    ∃ key, n.behavior = .static key ∧ r.contains key = false

/-- What a node lacks that nothing can call: the first input without a binding, or its function
if every input has a binding. -/
inductive Lacks (r : Registry) (n : PlannedNode) : NodeFault → Prop where
  | input {before after : List (String × Binding)} {input : String}
    (harguments : n.arguments = before ++ (input, .missing) :: after)
    (hbefore : ∀ a ∈ before, a.2 ≠ .missing) : Lacks r n (.missingInput input)
  | function {key : String} (hkey : n.behavior = .static key) (hr : r.contains key = false)
    (hbound : ∀ a ∈ n.arguments, a.2 ≠ .missing) : Lacks r n (.unregistered key)

/-- The faults that a run may come to at a node that lacks something: what it lacks or, if every
input has a binding, the value of a connected input that is not there. -/
inductive Meets (n : PlannedNode) (f : NodeFault) : NodeFault → Prop where
  | lacking : Meets n f f
  | value {input node output : String} (hbound : ∀ a ∈ n.arguments, a.2 ≠ .missing)
    (harguments : (input, .connected node output) ∈ n.arguments) : Meets n f (.missingInput input)

/-! ## What the plan and the registry tell -/

lemma missingInput?_eq_some_iff : n.missingInput? = some input ↔
    ∃ before after, n.arguments = before ++ (input, .missing) :: after ∧
      ∀ a ∈ before, a.2 ≠ .missing := by
  simp only [missingInput?, Option.map_eq_some_iff, List.find?_eq_some_iff_append,
    Binding.isMissing_iff, Bool.not_eq_true', ← Bool.not_eq_true, Ne]
  constructor
  · rintro ⟨⟨name, b⟩, ⟨hb, before, after, harguments, hbefore⟩, rfl⟩
    obtain rfl : b = .missing := hb
    exact ⟨before, after, harguments, hbefore⟩
  · rintro ⟨before, after, harguments, hbefore⟩
    exact ⟨(input, .missing), ⟨rfl, before, after, harguments, hbefore⟩, rfl⟩

lemma missingInput?_eq_none_iff :
    n.missingInput? = none ↔ ∀ a ∈ n.arguments, a.2 ≠ .missing := by
  simp only [missingInput?, Option.map_eq_none_iff, List.find?_eq_none, Binding.isMissing_iff, Ne]

lemma Lacks.unprovided (h : n.Lacks r f) : n.Unprovided r := by
  cases h with
  | input harguments _ => exact .inl ⟨_, harguments ▸ List.mem_append_right _ List.mem_cons_self⟩
  | function hkey hr _ => exact .inr ⟨_, hkey, hr⟩

/-- What a node lacks is an input if, and only if, one has no binding. -/
lemma Lacks.iff_of_missing (hmissing : n.missingInput? = some input) :
    n.Lacks r f ↔ f = .missingInput input := by
  constructor
  · intro h
    cases h with
    | input harguments hbefore =>
      have hfirst := missingInput?_eq_some_iff.2 ⟨_, _, harguments, hbefore⟩
      rw [Option.some.inj (hfirst.symm.trans hmissing)]
    | function _ _ hbound => simp [missingInput?_eq_none_iff.2 hbound] at hmissing
  · rintro rfl
    obtain ⟨before, after, harguments, hbefore⟩ := missingInput?_eq_some_iff.1 hmissing
    exact .input harguments hbefore

lemma Lacks.iff_of_bound (hbound : ∀ a ∈ n.arguments, a.2 ≠ .missing) :
    n.Lacks r f ↔
      ∃ key, n.behavior = .static key ∧ r.contains key = false ∧ f = .unregistered key := by
  constructor
  · intro h
    cases h with
    | input harguments _ =>
      exact absurd rfl (hbound _ (harguments ▸ List.mem_append_right _ List.mem_cons_self))
    | function hkey hr _ => exact ⟨_, hkey, hr, rfl⟩
  · rintro ⟨key, hkey, hr, rfl⟩
    exact .function hkey hr hbound

lemma staticFault?_eq_some_iff : n.staticFault? r = some f ↔ n.Lacks r f := by
  cases hmissing : n.missingInput? with
  | some input =>
    rw [Lacks.iff_of_missing hmissing]
    simp [staticFault?, hmissing, eq_comm]
  | none =>
    rw [Lacks.iff_of_bound (missingInput?_eq_none_iff.1 hmissing)]
    simp only [staticFault?, hmissing]
    cases n.behavior with
    | static key =>
      by_cases hr : r.contains key = true
      · simp [hr]
      · simpa [hr] using eq_comm
    | _ => simp

lemma unprovided_iff : n.Unprovided r ↔ ∃ f, n.Lacks r f := by
  refine ⟨fun h => ?_, fun ⟨_, h⟩ => h.unprovided⟩
  cases hmissing : n.missingInput? with
  | some input => exact ⟨_, (Lacks.iff_of_missing hmissing).2 rfl⟩
  | none =>
    have hbound := missingInput?_eq_none_iff.1 hmissing
    rcases h with ⟨input, hmem⟩ | ⟨key, hkey, hr⟩
    · exact absurd rfl (hbound _ hmem)
    · exact ⟨_, .function hkey hr hbound⟩

lemma staticFault?_eq_none_iff : n.staticFault? r = none ↔ ¬ n.Unprovided r := by
  rw [unprovided_iff, not_exists, Option.eq_none_iff_forall_ne_some]
  simp only [Ne, staticFault?_eq_some_iff]

lemma Lacks.congr (h : n.Lacks r f) (hkeys : ∀ key, r'.contains key = r.contains key) :
    n.Lacks r' f := by
  cases h with
  | input harguments hbefore => exact .input harguments hbefore
  | function hkey hr hbound => exact .function hkey (by rw [hkeys, hr]) hbound

/-- An input without a binding is the fault that a run comes to. -/
lemma Meets.eq_of_lacks (h : n.Meets f f') (hlacks : n.Lacks r f)
    (hinput : f = .missingInput input) : f' = f := by
  cases h with
  | lacking => rfl
  | value hbound _ =>
    obtain ⟨key, -, -, hkey⟩ := (Lacks.iff_of_bound hbound).1 hlacks
    simp [hinput] at hkey

/-! ## What happens to the node -/

/-- A value that is missing belongs to a connected input. -/
lemma Meets.of_value_error (hbound : ∀ a ∈ n.arguments, a.2 ≠ .missing) {b : String × Binding}
    (hb : b ∈ n.arguments) (h : b.2.value available b.1 = .error f') : n.Meets f f' := by
  obtain ⟨name, binding⟩ := b
  obtain ⟨rfl, hmissing | ⟨node, output, hconnected, -⟩⟩ := Binding.of_value_error h
  · exact absurd hmissing (hbound _ hb)
  · obtain rfl : binding = .connected node output := hconnected
    exact .value hbound hb

lemma Lacks.resolve_eq (h : n.Lacks r f) (hbound : ∀ a ∈ n.arguments, a.2 ≠ .missing) :
    n.behavior.resolve r available = .error f := by
  obtain ⟨key, hkey, hr, rfl⟩ := (Lacks.iff_of_bound hbound).1 h
  have hnone : r.find? key = none := by simpa [Entries.contains] using hr
  rw [hkey, BehaviorSource.resolve, hnone]

/-- A node that lacks something is not called, whatever the nodes before it have put out. -/
lemma settle_of_lacks (h : n.Lacks env.registry f) :
    ∃ f', n.Meets f f' ∧ n.settle env available = ⟨n, .error f'⟩ := by
  cases hmissing : n.missingInput? with
  | some input =>
    obtain rfl := (Lacks.iff_of_missing hmissing).1 h
    refine ⟨_, .lacking, settle_of_gathered_error ?_⟩
    rw [gathered, hmissing]
  | none =>
    have hbound := missingInput?_eq_none_iff.1 hmissing
    cases hargs : n.gathered available with
    | error f' =>
      obtain ⟨b, hb, hvalue⟩ := exists_binding_of_gathered_error hargs
      exact ⟨f', .of_value_error hbound hb hvalue, settle_of_gathered_error hargs⟩
    | ok args =>
      exact ⟨f, .lacking, settle_of_function_error hargs (function_of_error (h.resolve_eq hbound))⟩

end PlannedNode

/-! ## Sequential runs -/

/-- The registries of a world have the keys of a given one; what they hold there may change. -/
def World.Registers (w : World) (r : Registry) : Prop :=
  ∀ place key, (w.registry place).contains key = r.contains key

lemma World.registers_steady (env : Environment) : (World.steady env).Registers env.registry :=
  fun _ _ => rfl

/-- A failure of the node at a place: the failures in front of it are of earlier nodes, and those
behind it of later ones. -/
def Report.FailsAt (report : Report) (p : Plan) (place : ℕ) (e : NodeError) : Prop :=
  ∃ before after, report.failures = before ++ e :: after ∧
    (before.map NodeError.id).Sublist ((p.nodes.take place).map PlannedNode.id) ∧
      (after.map NodeError.id).Sublist ((p.nodes.drop (place + 1)).map PlannedNode.id)

namespace World

variable {w : World} {r : Registry} {token : Option CancelToken} {stopped : Bool} {p : Plan}
  {n : PlannedNode} {f : NodeFault} {i : ℕ}

lemma failure?_of_lacks (hw : w.Registers r) (h : n.Lacks r f) :
    ∃ f', n.Meets f f' ∧
      (w.settledAt token stopped p i n).failure? w.policy = some (n.fault f') := by
  let s := w.progress token stopped p i
  have hlacks : n.Lacks ((w.env s.stored.length).recalling (w.recalled s.stored.length
      s.cache)).registry f := h.congr (hw s.stored.length)
  obtain ⟨f', hmeets, hsettle⟩ := PlannedNode.settle_of_lacks hlacks
  refine ⟨f', hmeets, ?_⟩
  rw [settledAt, settle, hsettle]
  rfl

/-- A run that is not cancelled records the failure of a node that lacks something. -/
lemma failsAt_of_lacks (hw : w.Registers r) (hn : p.nodes[i]? = some n) (h : n.Lacks r f)
    (hran : (p.runSequentialIn w token stopped).result.cancelled = false) :
    ∃ f', n.Meets f f' ∧
      (p.runSequentialIn w token stopped).result.FailsAt p i (n.fault f') := by
  obtain ⟨f', hmeets, hfailure⟩ : ∃ f', n.Meets f f' ∧
      (w.settledAt token stopped p i n).failure? w.policy = some (n.fault f') :=
    failure?_of_lacks hw h
  have hplace : (w.settled token stopped p)[i]? = some (w.settledAt token stopped p i n) :=
    getElem?_settled hn
  obtain ⟨hi, hd⟩ := List.getElem?_eq_some_iff.1 hplace
  have hsplit : w.settled token stopped p = (w.settled token stopped p).take i ++
      w.settledAt token stopped p i n :: (w.settled token stopped p).drop (i + 1) := by
    rw [← hd, List.getElem_cons_drop, List.take_append_drop]
  have hids : ∀ l : List Settled, ((l.filterMap (Settled.failure? w.policy)).map
      NodeError.id).Sublist ((l.map Settled.node).map PlannedNode.id) := by
    intro l
    rw [List.map_map]
    exact sublist_map_filterMap (fun _ _ he => Settled.id_of_failure? he) l
  refine ⟨f', hmeets, ((w.settled token stopped p).take i).filterMap (Settled.failure? w.policy),
    ((w.settled token stopped p).drop (i + 1)).filterMap (Settled.failure? w.policy), ?_, ?_, ?_⟩
  · rw [(report_eq hran).2]
    conv_lhs => rw [hsplit, List.filterMap_append, List.filterMap_cons_some hfailure]
  · rw [← map_node_settled w token stopped p, ← List.map_take]
    exact hids _
  · rw [← map_node_settled w token stopped p, ← List.map_drop]
    exact hids _

end World

/-! ## Parallel runs -/

/-- A fault that the node at a place met is among the failures. -/
def PlannedNode.Recorded (n : PlannedNode) (f : NodeFault) (place : ℕ) (s : Shared) : Prop :=
  ∃ f', n.Meets f f' ∧ (place, n.fault f') ∈ s.failures

/-- What the task for a node that lacks something may do next: it makes no call, and it stores
outputs only after a fault is recorded. -/
def Phase.Doomed (n : PlannedNode) (f : NodeFault) (place : ℕ) (s : Shared) : Phase → Prop
  | waiting => True
  | reading _ rest => (∀ a ∈ n.arguments, a.2 ≠ .missing) ∧ rest ⊆ n.arguments
  | resolving _ => ∀ a ∈ n.arguments, a.2 ≠ .missing
  | failing f' => n.Meets f f'
  | storing _ | releasing _ => n.Recorded f place s
  | seeking .. | compiling .. | keeping .. | calling .. => False

section Doomed

variable {env : Environment} {r : Registry} {token : Option CancelToken} {p : Plan}
  {s s' : Shared} {n : PlannedNode} {f : NodeFault} {i place : ℕ} {phase phase' : Phase}

lemma PlannedNode.Recorded.mono (h : n.Recorded f place s) (hsub : s.failures ⊆ s'.failures) :
    n.Recorded f place s' := by
  obtain ⟨f', hmeets, hmem⟩ := h
  exact ⟨f', hmeets, hsub hmem⟩

lemma Phase.Doomed.mono (h : phase.Doomed n f place s) (hsub : s.failures ⊆ s'.failures) :
    phase.Doomed n f place s' := by
  cases phase with
  | storing _ => exact PlannedNode.Recorded.mono h hsub
  | releasing _ => exact PlannedNode.Recorded.mono h hsub
  | _ => exact h

lemma doomed_firstPhase (hlacks : n.Lacks r f) : n.firstPhase.Doomed n f place s := by
  unfold PlannedNode.firstPhase
  split
  · rename_i input hmissing
    obtain rfl := (PlannedNode.Lacks.iff_of_missing hmissing).1 hlacks
    exact .lacking
  · rename_i hnone
    exact ⟨PlannedNode.missingInput?_eq_none_iff.1 hnone, List.Subset.refl _⟩

/-- A step of the task leads to one of the phases again. -/
lemma Phase.Doomed.advance (h : phase.Doomed n f place s) (hlacks : n.Lacks env.registry f)
    (hnext : (p.advance env token s place n phase).next = some phase') :
    phase'.Doomed n f place (p.advance env token s place n phase).shared := by
  cases phase with
  | waiting =>
    rw [Plan.advance] at hnext ⊢
    split at hnext
    · simp [Advance.done] at hnext
    · rename_i hstopped
      rw [if_neg hstopped]
      obtain rfl := Option.some.inj hnext
      exact doomed_firstPhase hlacks
  | reading args rest =>
    obtain ⟨hbound, hrest⟩ := h
    cases rest with
    | nil =>
      obtain rfl := Option.some.inj hnext
      exact hbound
    | cons b rest =>
      obtain ⟨input, binding⟩ := b
      rw [Plan.advance] at hnext ⊢
      cases hvalue : binding.value (p.storedValue s.view) input with
      | ok v =>
        rw [hvalue] at hnext
        obtain rfl := Option.some.inj hnext
        exact ⟨hbound, fun a ha => hrest (List.mem_cons_of_mem _ ha)⟩
      | error f' =>
        rw [hvalue] at hnext
        obtain rfl := Option.some.inj hnext
        exact PlannedNode.Meets.of_value_error hbound (hrest List.mem_cons_self) hvalue
  | resolving args =>
    rw [Plan.advance, hlacks.resolve_eq h] at hnext
    obtain rfl := Option.some.inj hnext
    exact PlannedNode.Meets.lacking
  | failing f' =>
    obtain rfl := Option.some.inj hnext
    exact ⟨f', h, List.mem_append_right _ List.mem_cons_self⟩
  | storing outputs =>
    obtain rfl := Option.some.inj hnext
    exact h
  | releasing rest =>
    cases rest with
    | nil => simp [Plan.advance, Advance.done] at hnext
    | cons next rest =>
      obtain rfl := Option.some.inj hnext
      exact h
  | seeking args source => exact h.elim
  | compiling args source => exact h.elim
  | keeping args source b => exact h.elim
  | calling args b => exact h.elim

/-- What holds in a parallel run for a node that lacks something. -/
structure Doom (n : PlannedNode) (f : NodeFault) (place : ℕ) (m : Machine) : Prop where
  phase : ∀ phase, m.phase? place = some phase → phase.Doomed n f place m.shared
  stored : ∀ outputs, m.shared.view place = some outputs → n.Recorded f place m.shared

/-- A step of one of the tasks of a run whose registry has the keys of a given one, whatever a
compilation or a call comes to in it. -/
def Machine.KeyedStep (r : Registry) (token : Option CancelToken) (p : Plan) (m m' : Machine) :
    Prop :=
  ∃ (env : Environment) (b : Behavior) (i : ℕ),
    (∀ key, env.registry.contains key = r.contains key) ∧
    i < m.tasks.length ∧ m' = (m.answering i b).step env token p i

namespace Doom

open Machine

variable {m m' : Machine} {owed : ℕ → List ℕ} {stopped : Bool} {a : Advance} {q : ℕ}
  {nq : PlannedNode}

lemma start (hn : p.nodes[i]? = some n) : Doom n f i (.start p stopped) where
  phase phase hphase := by
    rw [Control.phase?_start stopped hn] at hphase
    split at hphase
    · obtain rfl : Phase.waiting = phase := Option.some.inj hphase
      trivial
    · simp at hphase
  stored outputs hview := by
    rw [Control.view_start] at hview
    simp at hview

/-- The node makes no call, so that it does not matter which function would be called. -/
lemma answering (h : Doom n f i m) (index : ℕ) (b : Behavior) :
    Doom n f i (m.answering index b) where
  phase phase hphase := by
    rcases m.phase?_answering index b i with heq | ⟨args, b', hcalling, -⟩
    · exact h.phase phase (heq.symm.trans hphase)
    · exact (h.phase _ hcalling).elim
  stored := h.stored

lemma advance (h : Doom n f i m) (hlacks : n.Lacks env.registry f) (hn : p.nodes[i]? = some n)
    (hcontrol : Control p owed m) (hadv : Advances env token p m m' q nq phase a) :
    Doom n f i m' := by
  have hsub := hadv.move.failures_subset
  refine ⟨?_, ?_⟩ <;> rw [hadv.shared_eq]
  · intro phase' hphase'
    by_cases hiq : i = q
    · subst hiq
      obtain rfl : nq = n := Option.some.inj (hadv.node.symm.trans hn)
      rw [hadv.phase?_self] at hphase'
      have hdoomed := h.phase phase hadv.task
      rw [← hadv.advance_eq] at hphase' ⊢
      exact hdoomed.advance hlacks hphase'
    · rcases hadv.phase?_of_ne hiq with hsame | ⟨-, hwaiting⟩
      · exact (h.phase phase' (hsame.symm.trans hphase')).mono hsub
      · obtain rfl : Phase.waiting = phase' := Option.some.inj (hwaiting.symm.trans hphase')
        trivial
  · intro outputs hview
    have hlt : q < m.shared.slots.length := by
      rw [hcontrol.length_slots]
      exact Plan.lt_size_of_getElem? hadv.node
    rcases hadv.move.view_eq hlt i with hsame | ⟨rfl, outputs', rfl, -⟩
    · exact (h.stored outputs (hsame.symm.trans hview)).mono hsub
    · exact PlannedNode.Recorded.mono (h.phase _ hadv.task) hsub

/-- In every state that a run reaches, the node has stored nothing, or a fault is recorded. -/
lemma reachable (hp : p.Linked) (hn : p.nodes[i]? = some n) (hlacks : n.Lacks r f)
    (h : Relation.ReflTransGen (KeyedStep r token p) (.start p stopped) m) :
    (∃ owed, Control p owed m) ∧ Doom n f i m := by
  induction h with
  | refl => exact ⟨⟨_, Control.start hp stopped⟩, start hn⟩
  | tail _ hstep ih =>
    obtain ⟨⟨owed, hcontrol⟩, hdoom⟩ := ih
    obtain ⟨env, b, index, hkeys, hindex, rfl⟩ := hstep
    have hcontrol' := hcontrol.answering index b
    obtain ⟨q, nq, phase, a, hadv⟩ := hcontrol'.exists_advances
      ⟨index, by simpa [Machine.answering] using hindex, rfl⟩
    obtain ⟨owed', howed'⟩ := hcontrol'.advance hp hadv
    exact ⟨⟨owed', howed'⟩,
      (hdoom.answering index b).advance (hlacks.congr hkeys) hn hcontrol' hadv⟩

end Doom

/-- A parallel run that has come to its end, and was not cancelled, has recorded the failure of a
node that lacks something. -/
lemma Machine.fails_of_lacks {m : Machine} {stopped : Bool} (hp : p.Linked)
    (hn : p.nodes[i]? = some n) (hlacks : n.Lacks r f)
    (h : Relation.ReflTransGen (KeyedStep r token p) (.start p stopped) m) (htasks : m.tasks = [])
    (hcancelled : m.shared.cancelled = false) :
    ∃ f', n.Meets f f' ∧ (i, n.fault f') ∈ m.shared.failures ∧
      n.fault f' ∈ (m.report p).failures := by
  obtain ⟨⟨owed, hcontrol⟩, hdoom⟩ := Doom.reachable hp hn hlacks h
  obtain ⟨outputs, hview⟩ :=
    hcontrol.all_stored hp htasks hcancelled (Plan.lt_size_of_getElem? hn)
  obtain ⟨f', hmeets, hmem⟩ := hdoom.stored outputs hview
  exact ⟨f', hmeets, hmem, List.mem_map.2 ⟨_, List.mem_mergeSort.2 hmem, rfl⟩⟩

end Doomed

end Dataflow
