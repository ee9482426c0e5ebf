import Mathlib.Logic.Function.Basic
import Dataflow.Proofs.Program.Variable
import Dataflow.Proofs.Run.Sequential

/-!
# Executing an entry block

The lines of an entry block are executed one after the other on a store of variables.  A line
comes with the node that it was written for: the call in it is a call of the function of this
node, or, for a function made from text, of the one that the compiler makes from the value of
the variable in question.  Execution is stuck at a variable that was not assigned, at a key
that a value does not have, where there is no function to call, and where a call fails.
-/

namespace Dataflow.Program

/-! ## Lines -/

/-- What keeps a line from being executed. -/
inductive Stuck where
  | unassigned (name : String)
  | missingKey (key : String)
  | uncallable (node : String)
  | raised (e : BehaviorError)

/-- The variables of a block, and the calls that it has made. -/
structure State where
  store : String → Option Value
  calls : List Invocation

namespace State

/-- No variable is assigned, and no call was made. -/
def start : State := ⟨fun _ => none, []⟩

/-- The value of a variable. -/
def read (s : State) (name : String) : Except Stuck Value :=
  match s.store name with
  | some v => .ok v
  | none => .error (.unassigned name)

/-- The state with a value for a variable. -/
def assign (s : State) (name : String) (v : Value) : State :=
  { s with store := Function.update s.store name (some v) }

end State

/-- The value of an argument. -/
def Argument.value (s : State) : Argument → Except Stuck Value
  | .variable name => s.read name
  | .literal v => .ok v

/-- The arguments with the values of the given ones added. -/
def evaluated (s : State) (args : Arguments) : List (String × Argument) → Except Stuck Arguments
  | [] => .ok args
  | (name, a) :: rest => do
    evaluated s (args.push name (← a.value s)) rest

/-- What is called for a node.  A function made from text is the one that the compiler makes
from the value of a variable. -/
def Callee.behavior (env : Environment) (s : State) (n : PlannedNode) :
    Callee → Except Stuck Behavior
  | materialized source name => do
    match ← s.read source with
    | .text text => (env.compiled name text).mapError fun _ => .uncallable n.id
    | _ => .error (.uncallable n.id)
  | function _ | member .. =>
    (n.function env fun _ _ => none).mapError fun _ => .uncallable n.id

/-- The result of a call for a node. -/
def Call.execute (env : Environment) (s : State) (n : PlannedNode) (c : Call) :
    Except Stuck (State × Value) := do
  let b ← c.callee.behavior env s n
  let args ← evaluated s ⟨[]⟩ c.arguments
  match (b args).outcome.contained with
  | .ok v => .ok ({ s with calls := s.calls ++ [⟨n.id, b, args⟩] }, v)
  | .error e => .error (.raised e)

/-- The state after a line that was written for a node. -/
def Line.execute (env : Environment) (s : State) (n : PlannedNode) : Line → Except Stuck State
  | run c => do
    let (s, _) ← c.execute env s n
    return s
  | assign target c => do
    let (s, v) ← c.execute env s n
    return s.assign target v
  | unpack target result key => do
    match ← s.read result with
    | .map fields =>
      match fields.find? key with
      | some v => .ok (s.assign target v)
      | none => .error (.missingKey key)
    | _ => .error (.missingKey key)

/-- The state after a block. -/
def execute (env : Environment) (s : State) : List (PlannedNode × Line) → Except Stuck State
  | [] => .ok s
  | (n, line) :: rest => do
    execute env (← line.execute env s n) rest

/-- The lines of the entry block of a plan, with the nodes that they were written for. -/
def block (p : Plan) : List (PlannedNode × Line) :=
  p.nodes.flatMap fun n => (linesOf (Variables.ofPlan p) n).map fun line => (n, line)

lemma map_snd_block (p : Plan) : (block p).map Prod.snd = (Program.ofPlan p).entry := by
  simp only [block, List.map_flatMap, List.map_map, Function.comp_def, List.map_id']
  rfl

/-! ## Calls -/

section Calls

variable {env : Environment} {available : Available} {vars : Variables} {s s' : State}
  {n : PlannedNode} {name : String} {v : Value}

@[simp] lemma State.assign_store_self (s : State) (name : String) (v : Value) :
    (s.assign name v).store name = some v := Function.update_self ..

lemma State.assign_store_of_ne {other : String} (h : other ≠ name) :
    (s.assign name v).store other = s.store other := Function.update_of_ne h ..

lemma State.read_of_store (h : s.store name = some v) : s.read name = .ok v := by
  rw [read, h]

/-- The variables of the outputs that a node refers to hold the values of these outputs. -/
def Reads (available : Available) (vars : Variables) (s : State) (n : PlannedNode) : Prop :=
  ∀ id output, (id, output) ∈ n.references →
    s.store (vars.nameOf (.output id output)) = available id output

/-- Arguments that can be gathered are evaluated to the same. -/
lemma evaluated_eq {bindings : List (String × Binding)} {args args' : Arguments}
    (hreads : ∀ b ∈ bindings, ∀ id output, b.2.reference? = some (id, output) →
      s.store (vars.nameOf (.output id output)) = available id output)
    (h : gather available args bindings = .ok args') :
    evaluated s args (bindings.map fun a => (a.1, argumentOf vars a.2)) = .ok args' := by
  induction bindings generalizing args with
  | nil =>
    obtain rfl : args = args' := Except.ok.inj h
    rfl
  | cons b bindings ih =>
    obtain ⟨input, binding⟩ := b
    rw [gather] at h
    cases hvalue : binding.value available input with
    | error fault => simp [hvalue, bind, Except.bind] at h
    | ok v =>
      have hargument : (argumentOf vars binding).value s = .ok v := by
        cases binding with
        | connected id output =>
          rw [Binding.value] at hvalue
          cases havailable : available id output with
          | none => simp [havailable] at hvalue
          | some w =>
            have hstore := hreads _ List.mem_cons_self id output rfl
            rw [havailable] at hvalue hstore
            obtain rfl : w = v := Except.ok.inj hvalue
            exact State.read_of_store hstore
        | literal w =>
          obtain rfl : w = v := Except.ok.inj hvalue
          rfl
        | missing => simp [Binding.value] at hvalue
      rw [hvalue] at h
      have hrest := ih (fun b hb => hreads b (List.mem_cons_of_mem _ hb)) h
      simp only [List.map_cons, evaluated, hargument]
      exact hrest

/-- What is called for a node is its function. -/
lemma calleeOf_behavior {b : Behavior} (hreads : Reads available vars s n)
    (h : n.function env available = .ok b) : (calleeOf vars n).behavior env s n = .ok b := by
  -- a function that is not made from the output of a node depends on no outputs
  have hown (hnone : n.behavior.reference? = none) : n.function env (fun _ _ => none) = .ok b := by
    rw [← h]
    exact PlannedNode.function_congr (by simp [hnone])
  cases hbehavior : n.behavior with
  | static key =>
    have hfunction := hown (by rw [hbehavior]; rfl)
    simp [calleeOf, hbehavior, Callee.behavior, hfunction, Except.mapError]
  | inline source =>
    have hfunction := hown (by rw [hbehavior]; rfl)
    simp [calleeOf, hbehavior, Callee.behavior, hfunction, Except.mapError]
  | external module name =>
    have hfunction := hown (by rw [hbehavior]; rfl)
    simp [calleeOf, hbehavior, Callee.behavior, hfunction, Except.mapError]
  | upstream id output =>
    have hstore := hreads id output (PlannedNode.mem_references.2 (.inr hbehavior))
    cases havailable : available id output with
    | none => simp [PlannedNode.function, hbehavior, BehaviorSource.resolve, havailable] at h
    | some v =>
      cases v with
      | text source =>
        have hcompiled : env.compiled n.name source = .ok b := by
          rw [← h]
          exact (PlannedNode.function_of_text
            (by simp [hbehavior, BehaviorSource.resolve, havailable])).symm
        have hread := State.read_of_store (hstore.trans havailable)
        simp [calleeOf, hbehavior, Callee.behavior, hread, hcompiled, Except.mapError, bind,
          Except.bind]
      | _ => simp [PlannedNode.function, hbehavior, BehaviorSource.resolve, havailable] at h

/-- A call that succeeds is executed as the node makes it. -/
lemma callOf_execute {args : Arguments} {b : Behavior} (hreads : Reads available vars s n)
    (hgathered : n.gathered available = .ok args) (hfunction : n.function env available = .ok b)
    (hvalue : (b args).outcome.contained = .ok v) :
    (callOf vars n).execute env s n =
      .ok ({ s with calls := s.calls ++ [⟨n.id, b, args⟩] }, v) := by
  have hgather : gather available ⟨[]⟩ n.arguments = .ok args := by
    rw [PlannedNode.gathered] at hgathered
    cases hmissing : n.missingInput? with
    | some input => simp [hmissing] at hgathered
    | none => simpa [hmissing] using hgathered
  have hargs : evaluated s ⟨[]⟩ (callOf vars n).arguments = .ok args :=
    evaluated_eq (fun b hb id output href =>
      hreads id output (PlannedNode.argument_mem_references hb href)) hgather
  have hcallee : (callOf vars n).callee.behavior env s n = .ok b :=
    calleeOf_behavior hreads hfunction
  simp [Call.execute, hcallee, hargs, hvalue, bind, Except.bind]

/-! ## Blocks -/

lemma execute_append (l r : List (PlannedNode × Line)) :
    execute env s (l ++ r) = (execute env s l).bind fun s' => execute env s' r := by
  induction l generalizing s with
  | nil => rfl
  | cons e l ih =>
    obtain ⟨n, line⟩ := e
    rw [List.cons_append, execute, execute]
    cases line.execute env s n with
    | error e => rfl
    | ok s' => exact ih

/-- Taking a result apart assigns each of its parts to a variable of its own, and changes
nothing else. -/
lemma execute_unpack (env : Environment) (n : PlannedNode) (target : String → String)
    {result : String} {fields : Dict Value} {outputs : List String}
    (hs : s.store result = some (.map fields))
    (hinj : ∀ o ∈ outputs, ∀ o' ∈ outputs, target o = target o' → o = o')
    (hresult : ∀ o ∈ outputs, target o ≠ result)
    (hfields : ∀ o ∈ outputs, ∃ v, fields.find? o = some v) :
    ∃ s', execute env s (outputs.map fun o => (n, .unpack (target o) result o)) = .ok s' ∧
      s'.calls = s.calls ∧
      (∀ o ∈ outputs, s'.store (target o) = fields.find? o) ∧
      ∀ name, (∀ o ∈ outputs, target o ≠ name) → s'.store name = s.store name := by
  induction outputs generalizing s with
  | nil => exact ⟨s, rfl, rfl, by simp, fun _ _ => rfl⟩
  | cons o outputs ih =>
    obtain ⟨v, hv⟩ := hfields o List.mem_cons_self
    have hline :
        (Line.unpack (target o) result o).execute env s n = .ok (s.assign (target o) v) := by
      simp [Line.execute, State.read_of_store hs, hv, bind, Except.bind]
    have hs' : (s.assign (target o) v).store result = some (.map fields) := by
      rw [State.assign_store_of_ne (Ne.symm (hresult o List.mem_cons_self)), hs]
    obtain ⟨s', hexecute, hcalls, hparts, hother⟩ := ih hs'
      (fun a ha b hb => hinj a (List.mem_cons_of_mem _ ha) b (List.mem_cons_of_mem _ hb))
      (fun a ha => hresult a (List.mem_cons_of_mem _ ha))
      (fun a ha => hfields a (List.mem_cons_of_mem _ ha))
    refine ⟨s', ?_, hcalls, ?_, ?_⟩
    · simp [execute, hline, hexecute, bind, Except.bind]
    · intro a ha
      by_cases hmem : a ∈ outputs
      · exact hparts a hmem
      · -- the variable of the first part is not assigned again
        obtain rfl : a = o := (List.mem_cons.1 ha).resolve_right hmem
        rw [hother (target a) ?_, State.assign_store_self, hv]
        intro b hb heq
        exact hmem (hinj b (List.mem_cons_of_mem _ hb) a List.mem_cons_self heq ▸ hb)
    · intro name hname
      rw [hother name fun a ha => hname a (List.mem_cons_of_mem _ ha)]
      exact State.assign_store_of_ne (Ne.symm (hname o List.mem_cons_self))

end Calls

end Dataflow.Program
