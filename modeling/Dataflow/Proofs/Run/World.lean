import Dataflow.Proofs.Run.Sequential

/-!
# Sequential runs whose calls come to anything

A behavior or a compiler may keep a state of its own, so that it answers differently each time
it is called.  In a `World` the node at each place finds its own registry, its own compiler and
its own functions in the cache; as a node makes at most one compilation and one call, these may
come to anything.  A run goes on as before: if it is not cancelled, it settles one node after the
other, each by the outputs stored before (`World.keeps_progress`).
-/

namespace Dataflow

/-! ## Worlds -/

/-- What the nodes of a run draw on, each at its place. -/
structure World where
  policy : OutputPolicy
  registry : ℕ → Registry
  compiler : ℕ → Compiler
  /-- What the functions in the cache have become when the run comes to a place. -/
  recalled : ℕ → Cache → Cache

namespace World

/-- What the node at a place draws on. -/
def env (w : World) (place : ℕ) : Environment := ⟨w.registry place, w.compiler place, w.policy⟩

/-- The world in which nothing changes. -/
def steady (env : Environment) : World where
  policy := env.policy
  registry := fun _ => env.registry
  compiler := fun _ => env.compiler
  recalled := fun _ cache => cache

/-- Realizes the node that comes next. -/
def realize (w : World) (p : Plan) (s : Progress) (n : PlannedNode) : Realized :=
  (w.env s.stored.length).realize (p.storedValue s.slots) (w.recalled s.stored.length s.cache) n

/-- The call that the node makes which comes next. -/
def invocation? (w : World) (p : Plan) (s : Progress) (n : PlannedNode) : Option Invocation :=
  (w.env s.stored.length).invocation? (p.storedValue s.slots)
    (w.recalled s.stored.length s.cache) n

end World

namespace Plan

/-- Runs the given nodes in a world, the last of the plan, and says whether the run was
cancelled. -/
def runFromIn (w : World) (token : Option CancelToken) (p : Plan) (s : Progress) :
    List PlannedNode → Progress × Bool
  | [] => (s, false)
  | n :: rest =>
    if s.stopped then ({ s with events := s.events ++ [.skipped n.id] }, true)
    else p.runFromIn w token (s.after token n (w.realize p s n)) rest

/-- Runs a plan in a world. -/
def runSequentialIn (w : World) (token : Option CancelToken) (stopped : Bool) (p : Plan) :
    Traced Report :=
  let (s, cancelled) := p.runFromIn w token (.start stopped) p.nodes
  let report : Report := ⟨p.collected s.slots, s.failures, cancelled⟩
  ⟨report, s.events ++ [p.finished report]⟩

end Plan

/-- How far a run in a world has come before the node at a place. -/
def World.progress (w : World) (token : Option CancelToken) (stopped : Bool) (p : Plan)
    (place : ℕ) : Progress :=
  (p.runFromIn w token (.start stopped) (p.nodes.take place)).1

variable {env : Environment} {w : World} {token : Option CancelToken} {stopped : Bool} {p : Plan}
  {s : Progress} {n : PlannedNode} {i : ℕ}

lemma Plan.runFromIn_steady (env : Environment) (token : Option CancelToken) (p : Plan)
    (s : Progress) (nodes : List PlannedNode) :
    p.runFromIn (.steady env) token s nodes = p.runFrom env token s nodes := by
  induction nodes generalizing s with
  | nil => rfl
  | cons n nodes ih =>
    rw [runFromIn, runFrom]
    split
    · rfl
    · exact ih _

/-- In a world in which nothing changes a run is the one of the environment. -/
theorem Plan.runSequentialIn_steady (env : Environment) (token : Option CancelToken)
    (stopped : Bool) (p : Plan) :
    p.runSequentialIn (.steady env) token stopped = p.runSequential env token stopped := by
  rw [runSequentialIn, runSequential, runFromIn_steady]

/-- A run over more nodes goes on behind the first ones, unless it was cancelled there. -/
lemma Plan.runFromIn_append (s : Progress) (l r : List PlannedNode) :
    p.runFromIn w token s (l ++ r) =
      if (p.runFromIn w token s l).2 then p.runFromIn w token s l
      else p.runFromIn w token (p.runFromIn w token s l).1 r := by
  induction l generalizing s with
  | nil => rfl
  | cons n l ih =>
    rw [List.cons_append, runFromIn, runFromIn]
    by_cases hstopped : s.stopped = true
    · simp [hstopped]
    · rw [if_neg hstopped, if_neg hstopped, ih]

/-! ## Calls -/

/-- The environment whose compiler gives what a cache holds, if it holds it. -/
def Environment.recalling (env : Environment) (cache : Cache) : Environment :=
  { env with
    compiler := fun name source =>
      match cache.find? name source with
      | some b => .value b
      | none => env.compiler name source }

lemma Cache.sound_recalling (env : Environment) (cache : Cache) :
    cache.Sound (env.recalling cache) := by
  intro name source b h
  simp [Environment.compiled, Environment.recalling, h, Outcome.contained, fromCall]

lemma Environment.compiled_recalling {cache : Cache} {name source : String}
    (h : cache.find? name source = none) :
    (env.recalling cache).compiled name source = env.compiled name source := by
  simp [compiled, recalling, h]

/-- To realize a node with what the cache holds, or with a compiler that gives it, is the
same. -/
lemma Environment.realize_recalling (available : Available) (cache : Cache) (n : PlannedNode) :
    (env.recalling cache).realize available cache n = env.realize available cache n := by
  unfold realize
  simp only [show (env.recalling cache).registry = env.registry from rfl]
  split
  · rfl
  · rfl
  · split
    · rfl
    · rename_i hnone
      rw [compiled_recalling hnone]
      rfl

lemma Environment.invocation?_recalling (available : Available) (cache : Cache)
    (n : PlannedNode) :
    (env.recalling cache).invocation? available cache n = env.invocation? available cache n := by
  unfold invocation?
  simp only [show (env.recalling cache).registry = env.registry from rfl]
  split
  · rfl
  · split
    · rfl
    · rename_i hnone
      rw [compiled_recalling hnone]
  · rfl

namespace World

/-- The node that comes next, with the call that it makes. -/
def settle (w : World) (p : Plan) (s : Progress) (n : PlannedNode) : Settled :=
  n.settle ((w.env s.stored.length).recalling (w.recalled s.stored.length s.cache))
    (p.storedValue s.slots)

lemma realize_result (w : World) (p : Plan) (s : Progress) (n : PlannedNode) :
    (w.realize p s n).result = (w.settle p s n).outcome w.policy := by
  have hsound := Cache.sound_recalling (w.env s.stored.length)
    (w.recalled s.stored.length s.cache)
  have hresult := (Environment.realize_settle hsound (p.storedValue s.slots) n).1
  rwa [Environment.realize_recalling] at hresult

lemma invocation?_eq (w : World) (p : Plan) (s : Progress) (n : PlannedNode) :
    w.invocation? p s n = (w.settle p s n).invocation? := by
  have hsound := Cache.sound_recalling (w.env s.stored.length)
    (w.recalled s.stored.length s.cache)
  have hcall := (Environment.realize_settle hsound (p.storedValue s.slots) n).2.2.2
  rwa [Environment.invocation?_recalling] at hcall

end World

/-! ## What a run keeps -/

/-- A run that has stored the outputs of the nodes in `before`, and their failures. -/
structure Progress.Keeps (policy : OutputPolicy) (before : List Settled) (s : Progress) :
    Prop where
  stored_eq : s.stored = before.map (Settled.outputs policy)
  failures_eq : s.failures = before.filterMap (Settled.failure? policy)

namespace Progress.Keeps

variable {policy : OutputPolicy} {before : List Settled}

lemma start (policy : OutputPolicy) (stopped : Bool) :
    (Progress.start stopped).Keeps policy [] := ⟨rfl, rfl⟩

lemma slots_eq (h : s.Keeps policy before) : s.slots = Settled.slots policy before := by
  funext place
  rw [Progress.slots, h.stored_eq, List.getElem?_map, Settled.slots]

/-- A node that is realized is kept behind the ones before it. -/
lemma after (h : s.Keeps w.policy before) (p : Plan) (token : Option CancelToken)
    (n : PlannedNode) :
    (s.after token n (w.realize p s n)).Keeps w.policy (before ++ [w.settle p s n]) := by
  have hresult := w.realize_result p s n
  have hnode : (w.settle p s n).node = n := rfl
  have hstored : (w.realize p s n).stored n = (w.settle p s n).outputs w.policy := by
    rw [← Realized.stored_of_result hresult, hnode]
  have hfailure : (w.realize p s n).fault?.map n.fault = (w.settle p s n).failure? w.policy := by
    rw [← Realized.failure_of_result hresult, hnode]
  generalize w.settle p s n = d at hstored hfailure ⊢
  refine ⟨?_, ?_⟩
  · simp only [Progress.after, h.stored_eq, hstored, List.map_append, List.map_cons, List.map_nil]
  · simp only [Progress.after, h.failures_eq, hfailure, List.filterMap_append]
    cases hd : d.failure? w.policy <;> simp [hd]

end Progress.Keeps

namespace World

/-- The node at a place, settled by what a run has stored before. -/
def settledAt (w : World) (token : Option CancelToken) (stopped : Bool) (p : Plan) (place : ℕ)
    (n : PlannedNode) : Settled := w.settle p (w.progress token stopped p place) n

@[simp] lemma settledAt_node : (w.settledAt token stopped p i n).node = n := rfl

/-- The nodes of a plan as they are settled in a run that is not cancelled. -/
def settled (w : World) (token : Option CancelToken) (stopped : Bool) (p : Plan) : List Settled :=
  p.nodes.zipIdx.map fun (n, place) => w.settledAt token stopped p place n

lemma getElem?_settled (hn : p.nodes[i]? = some n) :
    (w.settled token stopped p)[i]? = some (w.settledAt token stopped p i n) := by
  rw [settled, List.getElem?_map, List.getElem?_zipIdx, hn, Nat.zero_add]
  rfl

lemma length_settled (w : World) (token : Option CancelToken) (stopped : Bool) (p : Plan) :
    (w.settled token stopped p).length = p.size := by
  simp [settled, Plan.size]

lemma map_node_settled (w : World) (token : Option CancelToken) (stopped : Bool) (p : Plan) :
    (w.settled token stopped p).map Settled.node = p.nodes := by
  rw [settled, List.map_map]
  exact List.zipIdx_map_fst 0 p.nodes

/-- A part of a run that is not cancelled is not cancelled. -/
lemma not_cancelled_take (h : (p.runFromIn w token (.start stopped) p.nodes).2 = false) (i : ℕ) :
    (p.runFromIn w token (.start stopped) (p.nodes.take i)).2 = false := by
  rw [← List.take_append_drop i p.nodes, Plan.runFromIn_append] at h
  by_contra hcancelled
  rw [if_pos (by simpa using hcancelled)] at h
  exact hcancelled h

/-- A run that is not cancelled realizes each node behind the ones before it. -/
lemma progress_succ (h : (p.runFromIn w token (.start stopped) p.nodes).2 = false)
    (hn : p.nodes[i]? = some n) :
    w.progress token stopped p (i + 1) = (w.progress token stopped p i).after token n
      (w.realize p (w.progress token stopped p i) n) := by
  have htake : p.nodes.take (i + 1) = p.nodes.take i ++ [n] := by
    rw [List.take_add_one, hn, Option.toList_some]
  have hbefore := not_cancelled_take h i
  have hnext := not_cancelled_take h (i + 1)
  rw [htake, Plan.runFromIn_append, hbefore, if_neg (by simp)] at hnext
  rw [progress, htake, Plan.runFromIn_append, hbefore, if_neg (by simp)]
  change (p.runFromIn w token (w.progress token stopped p i) [n]).2 = false at hnext
  change (p.runFromIn w token (w.progress token stopped p i) [n]).1 = _
  rw [Plan.runFromIn] at hnext ⊢
  by_cases hstopped : (w.progress token stopped p i).stopped = true
  · simp [hstopped] at hnext
  · rw [if_neg hstopped]
    rfl

/-- **A run that is not cancelled has settled, before each place, all nodes in front of it.** -/
theorem keeps_progress (h : (p.runFromIn w token (.start stopped) p.nodes).2 = false)
    (hi : i ≤ p.size) :
    (w.progress token stopped p i).Keeps w.policy ((w.settled token stopped p).take i) := by
  induction i with
  | zero => exact Progress.Keeps.start w.policy stopped
  | succ i ih =>
    obtain ⟨n, hn⟩ := Plan.exists_node hi
    rw [progress_succ h hn, List.take_add_one, getElem?_settled hn]
    exact (ih (Nat.le_of_lt hi)).after p token n

/-- The report of a run that is not cancelled. -/
lemma report_eq (h : (p.runSequentialIn w token stopped).result.cancelled = false) :
    (p.runFromIn w token (.start stopped) p.nodes).2 = false ∧
      (p.runSequentialIn w token stopped).result =
        { outputs := p.collected (Settled.slots w.policy (w.settled token stopped p))
          failures := (w.settled token stopped p).filterMap (Settled.failure? w.policy)
          cancelled := false } := by
  have hran : (p.runFromIn w token (.start stopped) p.nodes).2 = false := by
    simpa [Plan.runSequentialIn] using h
  have hall : w.progress token stopped p p.size =
      (p.runFromIn w token (.start stopped) p.nodes).1 := by
    rw [progress, Plan.size, List.take_length]
  have hkeeps := keeps_progress hran (Nat.le_refl p.size)
  rw [hall, ← length_settled w token stopped p, List.take_length] at hkeeps
  refine ⟨hran, ?_⟩
  rw [← hkeeps.slots_eq, ← hkeeps.failures_eq, ← hran]
  rfl

/-- A run that heeds no token is not cancelled. -/
lemma not_cancelled : (p.runSequentialIn w none false).result.cancelled = false := by
  have key : ∀ (nodes : List PlannedNode) (s : Progress), s.stopped = false →
      (p.runFromIn w none s nodes).2 = false := by
    intro nodes
    induction nodes with
    | nil => intro s _; rfl
    | cons n nodes ih =>
      intro s hs
      rw [Plan.runFromIn, hs, if_neg (by simp)]
      refine ih _ ?_
      simp [Progress.after, hs, Event.stops_none]
  simpa [Plan.runSequentialIn] using key p.nodes (.start false) rfl

end World

end Dataflow
