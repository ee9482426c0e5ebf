import Dataflow.Engine.Session
import Dataflow.Proofs.Run.Unprovided
import Dataflow.Proofs.Schedule.HeldBack

/-!
# What an engine refuses

Whatever an engine is asked to do with a graph, it plans the graph first.  A graph whose
connections contain a cycle has no plan, so it is refused each time with the same error, which
names the nodes on a cycle and behind one (`Graph.cycle_refused`).

Of a plan, an engine refuses to write a program if some node has an input without a binding, or a
function that is not registered; it names the first one.  It does not refuse to run the plan, but
in each run that is not cancelled this node fails (`Engine.backends_agree`).
-/

namespace Dataflow

namespace Graph

variable {g : Graph} {c : Cycle}

lemma planTraced_of_cycle (h : g.topologicalOrder = .error c) :
    g.planTraced.result = .error (.cycle c) := by
  have hplan : g.plan = .error c := by rw [plan, h]; rfl
  rw [planTraced, hplan]

/-- What would become of the plan does not matter where there is none. -/
lemma withPlan_of_cycle (h : g.topologicalOrder = .error c) {α : Type}
    (next : Plan → Traced (Except EngineError α)) :
    (Engine.withPlan g next).result = .error (.cycle c) := by
  rw [Engine.withPlan, planTraced_of_cycle h]

/-- **A graph with a cycle is refused**: it has no order, and the error lists, in declaration order
and each once, the nodes that lie on a cycle or are reached from one.  Asked for the order or the
plan of the graph, for a run, with or without a token, for its program, or for what either of the
backends makes of it, an engine answers with this error, whatever it did before. -/
theorem cycle_refused (h : ¬ g.Acyclic) :
    ∃ c : Cycle, g.topologicalOrder = .error c ∧
      (c.nodes.Sublist (g.nodes.map Node.id) ∧ c.nodes.Nodup ∧
        ∀ id, id ∈ c.nodes ↔ ∃ a, Relation.TransGen g.Leads a a ∧
          Relation.ReflTransGen g.Leads a id) ∧
      g.planTraced.result = .error (.cycle c) ∧
      g.planTraced.result.map Plan.order = .error (.cycle c) ∧
      (∀ e : Engine, (Engine.withPlan g e.generate).result = .error (.cycle c)) ∧
      ∀ (s : Session) (heeds : Bool), (s.runGraph heeds g).result = .error (.cycle c) ∧
        ∀ b, (Engine.withPlan g (s.execute heeds b)).result = .error (.cycle c) := by
  obtain ⟨c, hc⟩ := exists_cycle h
  have hplan := planTraced_of_cycle hc
  refine ⟨c, hc, ⟨cycle_sublist hc, cycle_nodup hc, fun _ => mem_cycle_iff hc⟩, hplan, ?_, ?_, ?_⟩
  · rw [hplan]
    rfl
  · intro e
    exact withPlan_of_cycle hc _
  · intro s heeds
    exact ⟨withPlan_of_cycle hc _, fun _ => withPlan_of_cycle hc _⟩

/-- A graph with a cycle of two nodes and one of one node, each with a node in front of it and one
behind. -/
def looping : Graph where
  nodes := [
    ⟨"behind", "f", [⟨"v", none, none⟩], [⟨"out", none⟩], none, none, none⟩,
    ⟨"start", "f", [], [⟨"out", none⟩], none, none, none⟩,
    ⟨"left", "f", [⟨"u", none, none⟩, ⟨"v", none, none⟩], [⟨"out", none⟩], none, none, none⟩,
    ⟨"free", "f", [⟨"v", none, none⟩], [⟨"out", none⟩], none, none, none⟩,
    ⟨"right", "f", [⟨"v", none, none⟩], [⟨"out", none⟩], none, none, none⟩,
    ⟨"self", "f", [⟨"u", none, none⟩, ⟨"v", none, none⟩], [⟨"out", none⟩], none, none, none⟩]
  connections := [
    ⟨"start", "out", "left", "u"⟩, ⟨"right", "out", "left", "v"⟩, ⟨"left", "out", "right", "v"⟩,
    ⟨"right", "out", "behind", "v"⟩, ⟨"start", "out", "free", "v"⟩, ⟨"free", "out", "self", "u"⟩,
    ⟨"self", "out", "self", "v"⟩]
  valid := valid_of_fault?_eq_none (by decide)

theorem cycle_refused_looping :
    ¬ looping.Acyclic ∧
      looping.topologicalOrder = .error ⟨["behind", "left", "right", "self"]⟩ ∧
      looping.HeldBack "behind" ∧ ¬ looping.HeldBack "free" ∧
      (Session.start.runGraph true looping).result =
        .error (.cycle ⟨["behind", "left", "right", "self"]⟩) := by
  have horder : looping.topologicalOrder = .error ⟨["behind", "left", "right", "self"]⟩ := by decide
  have hcyclic : ¬ looping.Acyclic := by
    intro h
    have hself : looping.Leads "self" "self" :=
      ⟨⟨"self", "out", "self", "v"⟩, by decide, rfl, rfl⟩
    exact h "self" (.single hself)
  obtain ⟨c, hc, ⟨-, -, hnamed⟩, -, -, -, hrun⟩ := cycle_refused hcyclic
  obtain rfl : c = ⟨["behind", "left", "right", "self"]⟩ := Except.error.inj (hc.symm.trans horder)
  exact ⟨hcyclic, horder, (hnamed "behind").1 (by decide), fun h => absurd ((hnamed "free").2 h)
    (by decide), (hrun Session.start true).1⟩

end Graph

/-! ## Plans without a program -/

/-- The first node of a plan that nothing can call. -/
structure Plan.FirstUnprovided (r : Registry) (p : Plan) (place : ℕ) (n : PlannedNode) : Prop where
  node : p.nodes[place]? = some n
  unprovided : n.Unprovided r
  provided_before : ∀ j < place, ∀ m, p.nodes[j]? = some m → ¬ m.Unprovided r

lemma Report.isSuccess_iff {r : Report} :
    r.isSuccess = true ↔ r.failures = [] ∧ r.cancelled = false := by
  simp [isSuccess]

namespace Engine

variable {en : Engine} {p : Plan} {err : EngineError}

lemma exists_of_staticError? {r : Registry} {e : NodeError} (h : p.staticError? r = some e) :
    ∃ i n f, p.FirstUnprovided r i n ∧ n.Lacks r f ∧ e = n.fault f := by
  obtain ⟨before, n, after, hnodes, hn, hbefore⟩ := List.findSome?_eq_some_iff.1 h
  obtain ⟨f, hf, rfl⟩ := Option.map_eq_some_iff.1 hn
  have hlacks := PlannedNode.staticFault?_eq_some_iff.1 hf
  refine ⟨before.length, n, f, ⟨?_, hlacks.unprovided, fun j hj m hm => ?_⟩, hlacks, rfl⟩
  · rw [hnodes, List.getElem?_append_right (Nat.le_refl _), Nat.sub_self]
    rfl
  · rw [hnodes, List.getElem?_append_left hj] at hm
    have hnone := hbefore m (List.mem_of_getElem? hm)
    exact PlannedNode.staticFault?_eq_none_iff.1 (Option.map_eq_none_iff.1 hnone)

/-- Nothing but a node that nothing can call keeps a plan from having a program. -/
lemma exists_text_or_error (en : Engine) (p : Plan) :
    (∃ text, (en.generate p).result = .ok text) ∨
      ∃ e, p.staticError? en.registry = some e ∧ (en.generate p).result = .error (.node e) := by
  simp only [generate, Plan.program]
  cases p.staticError? en.registry with
  | none => exact .inl ⟨_, rfl⟩
  | some e => exact .inr ⟨e, rfl, rfl⟩

lemma exists_of_generate_error (h : (en.generate p).result = .error err) :
    ∃ i n f, p.FirstUnprovided en.registry i n ∧ n.Lacks en.registry f ∧
      err = .node (n.fault f) := by
  rcases exists_text_or_error en p with ⟨text, hok⟩ | ⟨e, he, herror⟩
  · rw [hok] at h
    simp at h
  · obtain ⟨i, n, f, hfirst, hlacks, rfl⟩ := exists_of_staticError? he
    exact ⟨i, n, f, hfirst, hlacks, Except.error.inj (h.symm.trans herror)⟩

/-- A plan without a node that nothing can call has a program. -/
lemma exists_text (h : ∀ i n f, p.FirstUnprovided en.registry i n → n.Lacks en.registry f → False) :
    ∃ text, (en.generate p).result = .ok text := by
  refine (exists_text_or_error en p).resolve_right ?_
  rintro ⟨e, he, -⟩
  obtain ⟨i, n, f, hfirst, hlacks, -⟩ := exists_of_staticError? he
  exact h i n f hfirst hlacks

/-! ### Runs that succeed -/

lemma exists_text_of_run {w : World} (hw : w.Registers en.registry) {token : Option CancelToken}
    {stopped : Bool} (h : (p.runSequentialIn w token stopped).result.isSuccess = true) :
    ∃ text, (en.generate p).result = .ok text := by
  obtain ⟨hfailures, hran⟩ := Report.isSuccess_iff.1 h
  refine exists_text fun i n f hfirst hlacks => ?_
  obtain ⟨f', -, before, after, hfails, -⟩ := World.failsAt_of_lacks hw hfirst.node hlacks hran
  rw [hfailures] at hfails
  simp at hfails

lemma exists_text_of_report (hp : p.Linked) {token : Option CancelToken} {stopped : Bool}
    {m : Machine}
    (hm : Relation.ReflTransGen (Machine.KeyedStep en.registry token p) (.start p stopped) m)
    (htasks : m.tasks = []) (h : (m.report p).isSuccess = true) :
    ∃ text, (en.generate p).result = .ok text := by
  obtain ⟨hfailures, hran⟩ := Report.isSuccess_iff.1 h
  refine exists_text fun i n f hfirst hlacks => ?_
  obtain ⟨f', -, -, hmem⟩ := Machine.fails_of_lacks hp hfirst.node hlacks hm htasks hran
  rw [hfailures] at hmem
  simp at hmem

/-- The parallel run of the program is one of the interleavings, and it comes to its end. -/
lemma exists_machine (env : Environment) (token : Option CancelToken) (stopped : Bool) (p : Plan) :
    ∃ m, Relation.ReflTransGen (Machine.KeyedStep env.registry token p) (.start p stopped) m ∧
      m.tasks = [] ∧ (p.runParallel env token stopped).result = m.report p := by
  let fuel := (p.nodes.map PlannedNode.steps).foldl (· + ·) 0
  refine ⟨(Machine.start p stopped).drain env token p fuel, ?_, ?_, rfl⟩
  · have hkeyed : ∀ m m', Machine.Step env token p m m' →
        Machine.KeyedStep env.registry token p m m' := by
      rintro m m' ⟨i, hi, rfl⟩
      obtain ⟨b, hb⟩ := Machine.exists_answering_eq m i
      exact ⟨env, b, i, fun _ => rfl, hi, by rw [hb]⟩
    exact Relation.ReflTransGen.mono hkeyed _ _ (Machine.drain_steps env token p fuel _)
  · exact Machine.drain_done (Machine.work_start p stopped).le

/-- **The two backends agree on what cannot run.**  If there is no program for a plan, the error is
that of the first node with an input that has no binding or a function that is not registered.
In every run of the plan that is not cancelled this node fails, whatever its registry holds under
its keys, whatever compiler and policy it has, and whatever failed before: sequential runs record
the failure in its place, and so does every interleaving of a parallel run, if the links of the
plan are sound.  An input without a binding is the same error on both sides.  So a plan of which
some run succeeds has a program. -/
theorem backends_agree (en : Engine) (p : Plan) :
    (∀ env token stopped, (World.steady env).Registers env.registry ∧
      p.runSequentialIn (.steady env) token stopped = p.runSequential env token stopped) ∧
    (∀ err, (en.generate p).result = .error err →
      ∃ i n f, p.FirstUnprovided en.registry i n ∧ n.Lacks en.registry f ∧
        err = .node ⟨n.id, n.name, f⟩ ∧
        (∀ (w : World) token stopped, w.Registers en.registry →
          (p.runSequentialIn w token stopped).result.cancelled = false →
            ∃ f', (p.runSequentialIn w token stopped).result.FailsAt p i ⟨n.id, n.name, f'⟩ ∧
              n.Meets f f' ∧ ((∃ input, f = .missingInput input) → f' = f)) ∧
        ∀ token stopped m, p.Linked →
          Relation.ReflTransGen (Machine.KeyedStep en.registry token p) (.start p stopped) m →
            m.tasks = [] → (m.report p).cancelled = false →
              ∃ f', ⟨n.id, n.name, f'⟩ ∈ (m.report p).failures ∧
                n.Meets f f' ∧ ((∃ input, f = .missingInput input) → f' = f)) ∧
    (∀ (w : World) token stopped, w.Registers en.registry →
      (p.runSequentialIn w token stopped).result.isSuccess = true →
        ∃ text, (en.generate p).result = .ok text) ∧
    ∀ token stopped, en.config.mode = .sequential ∨ p.Linked →
      (en.run token stopped p).result.isSuccess = true →
        ∃ text, (en.generate p).result = .ok text := by
  refine ⟨?_, ?_, fun _ _ _ hw => exists_text_of_run hw, ?_⟩
  · intro env token stopped
    exact ⟨World.registers_steady env, Plan.runSequentialIn_steady env token stopped p⟩
  · intro err herr
    obtain ⟨i, n, f, hfirst, hlacks, rfl⟩ := exists_of_generate_error herr
    refine ⟨i, n, f, hfirst, hlacks, rfl, ?_, ?_⟩
    · intro w token stopped hw hran
      obtain ⟨f', hmeets, hfails⟩ := World.failsAt_of_lacks hw hfirst.node hlacks hran
      exact ⟨f', hfails, hmeets, fun ⟨_, hinput⟩ => hmeets.eq_of_lacks hlacks hinput⟩
    · intro token stopped m hp hm htasks hran
      obtain ⟨f', hmeets, -, hmem⟩ := Machine.fails_of_lacks hp hfirst.node hlacks hm htasks hran
      exact ⟨f', hmem, hmeets, fun ⟨_, hinput⟩ => hmeets.eq_of_lacks hlacks hinput⟩
  · intro token stopped hmode hsuccess
    have hsequential : (p.runSequential en.environment token stopped).result.isSuccess = true →
        ∃ text, (en.generate p).result = .ok text := by
      rw [← Plan.runSequentialIn_steady]
      exact exists_text_of_run (World.registers_steady en.environment)
    rw [run] at hsuccess
    split at hsuccess
    · exact hsequential hsuccess
    · rename_i workers hparallel
      have hp : p.Linked := hmode.resolve_left (by simp [hparallel])
      obtain ⟨m, hm, htasks, hreport⟩ := exists_machine en.environment token stopped p
      rw [hreport] at hsuccess
      exact exists_text_of_report hp hm htasks hsuccess

/-- A plan of two nodes, of which the second reads both outputs of the first. -/
def pair : Plan where
  nodes := [
    ⟨"a", 0, "f", ["x", "y"], [], .static "a", [1, 1], 0⟩,
    ⟨"b", 1, "g", ["z"], [("u", .connected "a" "x"), ("v", .connected "a" "y")],
      .static "b", [], 2⟩]

/-- An engine without the second function, in which the first one gives one output only. -/
def poor : Engine where
  registry := Dict.ofList [("a", .const (.map (Dict.ofList [("x", .int 5)])))]
  compiler := fun _ _ => .panic none
  config := ⟨.sequential, .lenient⟩

/-- An engine with both functions. -/
def rich : Engine where
  registry := Dict.ofList
    [("a", .const (.map (Dict.ofList [("x", .int 5), ("y", .int 6)]))), ("b", .collect)]
  compiler := fun _ _ => .panic none
  config := .standard

theorem backends_agree_pair :
    (poor.generate pair).result = .error (.node ⟨"b", "g", .unregistered "b"⟩) ∧
      (pair.runSequential poor.environment none false).result.failures =
        [⟨"b", "g", .missingInput "v"⟩] ∧
      (∃ f', (pair.runSequential poor.environment none false).result.FailsAt pair 1
        ⟨"b", "g", f'⟩) ∧
      (rich.run none false pair).result.isSuccess = true ∧
        ∃ text, (rich.generate pair).result = .ok text := by
  have herror : (poor.generate pair).result = .error (.node ⟨"b", "g", .unregistered "b"⟩) := rfl
  have hsuccess : (rich.run none false pair).result.isSuccess = true := rfl
  obtain ⟨hsteady, hfaults, -, -⟩ := backends_agree poor pair
  obtain ⟨-, -, -, hran⟩ := backends_agree rich pair
  obtain ⟨i, n, f, hfirst, -, herr, hfails, -⟩ := hfaults _ herror
  obtain ⟨hregisters, hrun⟩ := hsteady poor.environment none false
  obtain ⟨f', hfail, -⟩ := hfails _ none false hregisters World.not_cancelled
  rw [hrun] at hfail
  obtain ⟨hid, hname, -⟩ : "b" = n.id ∧ "g" = n.name ∧ .unregistered "b" = f := by simpa using herr
  obtain rfl : i = 1 := by
    match i, hfirst.node with
    | 0, hnode =>
      obtain rfl := Option.some.inj hnode
      simp at hid
    | 1, _ => rfl
  rw [← hid, ← hname] at hfail
  exact ⟨herror, rfl, ⟨f', hfail⟩, hsuccess, hran none false (.inl rfl) hsuccess⟩

end Engine

end Dataflow
