import Dataflow.Proofs.Run.Cancellation

/-!
# What a behavior in the registry can change

A node finds its function in the registry under a single key, if it finds it there at all.  What
the registry has under a key can therefore only change what comes of the nodes that look under
it, and of the nodes behind those (`Graph.Influenced`).  All other nodes have the same outputs
and the same failures, whatever the registry has there (`Graph.isolation`).
-/

namespace Dataflow

/-- The key under which a function is looked up in the registry. -/
def BehaviorSource.key? : BehaviorSource → Option String
  | static key => some key
  | external module name => some (qualifiedName module name)
  | inline _ | upstream .. => none

/-- A node that looks up its function under a key, or that comes behind such a node. -/
def Graph.Influenced (g : Graph) (key id : String) : Prop :=
  ∃ node ∈ g.nodes, (g.behaviorOf node).key? = some key ∧
    Relation.ReflTransGen g.Leads node.id id

/-- The reports of the runs of a plan, one node after the other or with a task for each. -/
inductive Plan.Reports (env : Environment) (p : Plan) : Report → Prop where
  | sequential (token : Option CancelToken) (stopped : Bool) :
    Reports env p (p.runSequential env token stopped).result
  | parallel {token : Option CancelToken} {stopped : Bool} {m : Machine}
    (hm : Relation.ReflTransGen (Machine.OpenStep env token p) (.start p stopped) m)
    (htasks : m.tasks = []) : Reports env p (m.report p)

section

variable {g : Graph} {order : List ℕ} {p : Plan} {env : Environment} {registry : Registry}
  {key : String} {n : PlannedNode} {i : ℕ}

/-! ## One node -/

/-- A function that is not looked up under a key is found alike in registries that agree on the
other keys. -/
lemma BehaviorSource.resolve_of_agree {b : BehaviorSource} {r r' : Registry}
    (hagree : ∀ k, k ≠ key → r.find? k = r'.find? k) (hb : b.key? ≠ some key)
    (available : Available) : b.resolve r available = b.resolve r' available := by
  cases b with
  | static k =>
    have hk : k ≠ key := fun heq => hb (congrArg some heq)
    rw [resolve, resolve, hagree k hk]
  | external module name =>
    have hk : qualifiedName module name ≠ key := fun heq => hb (congrArg some heq)
    rw [resolve, resolve, hagree _ hk]
  | inline _ => rfl
  | upstream _ _ => rfl

lemma PlannedNode.settle_of_agree
    (hagree : ∀ k, k ≠ key → env.registry.find? k = registry.find? k)
    (hn : n.behavior.key? ≠ some key) (available : Available) :
    n.settle env available = n.settle { env with registry } available := by
  have hfunction : n.function env available = n.function { env with registry } available := by
    rw [function, function, BehaviorSource.resolve_of_agree hagree hn]
    rfl
  rw [settle, settle, hfunction]

/-! ## All nodes -/

namespace Graph.PlannedBy

/-- The producers of a node that is not influenced are not influenced. -/
lemma exists_uninfluenced_producer (hby : g.PlannedBy order p) (hn : p.nodes[i]? = some n)
    (hfree : ¬ g.Influenced key n.id) {id output : String} (href : (id, output) ∈ n.references) :
    ∃ j m, p.nodes[j]? = some m ∧ m.id = id ∧ j < i ∧ ¬ g.Influenced key m.id := by
  obtain ⟨j, m, hm, rfl, hji, -⟩ := hby.exists_producer hn href
  refine ⟨j, m, hm, rfl, hji, ?_⟩
  rintro ⟨node, hnode, hkey, hreach⟩
  obtain ⟨v, nv, -, -, rfl⟩ := hby.getElem?_nodes_eq_some_iff.1 hn
  obtain ⟨c, hc, hfrom, hto⟩ := exists_connection href
  exact hfree ⟨node, hnode, hkey, hreach.tail ⟨c, hc, hfrom, hto⟩⟩

/-- A node that is not influenced does not look under the key itself. -/
lemma key?_ne_of_uninfluenced (hby : g.PlannedBy order p) (hn : p.nodes[i]? = some n)
    (hfree : ¬ g.Influenced key n.id) : n.behavior.key? ≠ some key := by
  obtain ⟨v, node, -, hnode, rfl⟩ := hby.getElem?_nodes_eq_some_iff.1 hn
  exact fun hkey => hfree ⟨node, List.mem_of_getElem? hnode, hkey, .refl⟩

/-- A node that is not influenced comes to the same with either registry. -/
lemma settle_eq (hby : g.PlannedBy order p)
    (hagree : ∀ k, k ≠ key → env.registry.find? k = registry.find? k)
    (hn : p.nodes[i]? = some n) (hfree : ¬ g.Influenced key n.id) :
    n.settle env (p.finalValues env) =
      n.settle { env with registry } (p.finalValues { env with registry }) := by
  -- by induction on the place: what the node reads comes from nodes before it
  induction i using Nat.strongRecOn generalizing n with
  | ind i ih =>
    rw [← PlannedNode.settle_of_agree hagree (hby.key?_ne_of_uninfluenced hn hfree)]
    refine PlannedNode.settle_congr fun r hr => ?_
    obtain ⟨id, output⟩ := r
    obtain ⟨j, m, hm, rfl, hji, hfree'⟩ := hby.exists_uninfluenced_producer hn hfree hr
    have hslot := Plan.finalSlots_eq env hby.linked hby.backed hm
    have hslot' := Plan.finalSlots_eq { env with registry } hby.linked hby.backed hm
    rw [Plan.finalValues, Plan.finalValues, Plan.storedValue_eq hby.ids_nodup hm hslot,
      Plan.storedValue_eq hby.ids_nodup hm hslot', ih j hji hm hfree']

end Graph.PlannedBy

/-! ## Reports -/

/-- A run that is not cancelled reports what all nodes come to. -/
lemma Plan.Reports.eq_settledReport {r : Report} (h : p.Reports env r) (hp : p.Linked)
    (hb : p.Backed) (hran : r.cancelled = false) : r = p.settledReport env := by
  cases h with
  | sequential token stopped => exact (Plan.runSequential_eq hran).1
  | @parallel token stopped m hm htasks =>
    have hsound := (Machine.Sound.start hp).steps hp hb hm
    rw [hsound.report_eq_partial hp hb htasks] at hran ⊢
    have hall : ¬ ∃ q < p.size, (m.shared.view q).isSome = false := by
      rw [← Plan.cancelled_partialReport, hran]
      simp
    refine Plan.partialReport_of_all hp hb fun q hq => ?_
    rw [← Bool.not_eq_false]
    exact fun hnone => hall ⟨q, hq, hnone⟩

lemma Plan.failure?_settledReport (hids : p.order.Nodup) (hp : p.Linked) (hb : p.Backed)
    (hn : p.nodes[i]? = some n) :
    (p.settledReport env).failure? n.id =
      (n.settle env (p.finalValues env)).failure? env.policy := by
  rw [← partialReport_of_all hp hb fun _ _ => rfl]
  refine Option.ext fun e => ?_
  rw [failure?_partialReport hids hn]
  simp

end

/-- **A behavior can only change what comes of its own nodes and of the nodes behind them.**  In
two runs that are not cancelled, with registries that agree on all keys but one, every node that
is not influenced by this key has the same outputs, and has failed in the same way or not at
all. -/
theorem Graph.isolation (g : Graph) (p : Plan) (h : g.plan = .ok p) (key : String)
    (env : Environment) (registry : Registry)
    (hagree : ∀ k, k ≠ key → env.registry.find? k = registry.find? k) (r r' : Report)
    (hr : p.Reports env r) (hran : r.cancelled = false)
    (hr' : p.Reports { env with registry } r') (hran' : r'.cancelled = false) (id : String)
    (hid : id ∈ p.order) (hfree : ¬ g.Influenced key id) :
    (∃ outputs, r.outputs.find? id = some outputs ∧ r'.outputs.find? id = some outputs) ∧
      r.failure? id = r'.failure? id := by
  obtain ⟨order, hby⟩ := exists_plannedBy h
  have hids := hby.ids_nodup
  have hp := hby.linked
  have hb := hby.backed
  obtain ⟨i, n, hn, rfl⟩ := Plan.exists_place hid
  have hsettle := hby.settle_eq hagree hn hfree
  obtain rfl := hr.eq_settledReport hp hb hran
  obtain rfl := hr'.eq_settledReport hp hb hran'
  refine ⟨⟨_, Plan.find?_collected hids hn (Plan.finalSlots_eq env hp hb hn), ?_⟩, ?_⟩
  · rw [hsettle]
    exact Plan.find?_collected hids hn (Plan.finalSlots_eq { env with registry } hp hb hn)
  · rw [Plan.failure?_settledReport hids hp hb hn, Plan.failure?_settledReport hids hp hb hn,
      hsettle]

/-- The registry of `joiningEnvironment` with a behavior for the last node that does not fail. -/
def Graph.joiningRegistry : Registry := joiningEnvironment.registry.insert "log" (.const .null)

theorem Graph.isolation_joining :
    joining.plan = .ok joiningPlan ∧ ¬ joining.Influenced "log" "sum" ∧
      ∃ r r', joiningPlan.Reports joiningEnvironment r ∧
        joiningPlan.Reports { joiningEnvironment with registry := joiningRegistry } r' ∧
        r.failures.map NodeError.id = ["log"] ∧ r'.failures = [] ∧
        (∃ outputs, r.outputs.find? "sum" = some outputs ∧ r'.outputs.find? "sum" = some outputs) ∧
        r.failure? "sum" = r'.failure? "sum" := by
  have hplan : joining.plan = .ok joiningPlan := rfl
  -- nothing lies behind the only node that looks under the key
  have hkeys : ∀ node ∈ joining.nodes, (joining.behaviorOf node).key? = some "log" →
      node.id = "log" := by decide
  have hlast : ∀ c ∈ joining.connections, c.fromNode ≠ "log" := by decide
  have hfree : ¬ joining.Influenced "log" "sum" := by
    rintro ⟨node, hnode, hkey, hreach⟩
    rw [hkeys node hnode hkey] at hreach
    rcases hreach.cases_head with heq | ⟨id, ⟨c, hc, hfrom, -⟩, -⟩
    · simp at heq
    · exact hlast c hc hfrom
  have hagree : ∀ k, k ≠ "log" →
      joiningEnvironment.registry.find? k = joiningRegistry.find? k := by
    intro k hk
    have hfind := Dict.find?_insert joiningEnvironment.registry "log" k (.const .null)
    rw [if_neg hk] at hfind
    exact hfind.symm
  obtain ⟨houtputs, hfailure⟩ := isolation joining joiningPlan hplan "log" joiningEnvironment
    joiningRegistry hagree _ _ (.sequential none false) rfl (.sequential none false) rfl "sum"
    (by decide) hfree
  exact ⟨hplan, hfree, _, _, .sequential none false, .sequential none false, by decide, by decide,
    houtputs, hfailure⟩

end Dataflow
