import Dataflow.Proofs.Run.Settled
import Dataflow.Run.Sequential

/-!
# What a sequential run reports

A sequential run settles the nodes of its plan one after the other (`Progress.Follows`), up to
the node that finds the token cancelled.  A run that is not cancelled reports the outcomes of
all nodes (`Plan.runSequential_eq`), and it is not cancelled if no call cancels its token.  The
calls that a run makes, one after the other, are those of the settled nodes
(`Plan.sequentialCalls_eq`).
-/

namespace Dataflow

/-- The effect of a behavior that an event is. -/
def Event.effect? : Event → Option Effect
  | effect e => some e
  | _ => none

variable {env : Environment} {token : Option CancelToken} {stopped : Bool} {p : Plan}

/-- A run that has settled the nodes of `before`, and has done nothing else. -/
structure Progress.Follows (env : Environment) (token : Option CancelToken) (stopped : Bool)
    (before : List Settled) (s : Progress) : Prop where
  stored_eq : s.stored = before.map (Settled.outputs env.policy)
  failures_eq : s.failures = before.filterMap (Settled.failure? env.policy)
  cache_sound : s.cache.Sound env
  stopped_eq : s.stopped = (stopped || before.any (Settled.stops token))
  effects_eq : s.events.filterMap Event.effect? = before.flatMap Settled.effects

namespace Progress.Follows

variable {before : List Settled} {s : Progress}

lemma start (env : Environment) (token : Option CancelToken) (stopped : Bool) :
    (Progress.start stopped).Follows env token stopped [] where
  stored_eq := rfl
  failures_eq := rfl
  cache_sound := Cache.sound_nil
  stopped_eq := by simp [Progress.start]
  effects_eq := rfl

lemma slots_eq (h : s.Follows env token stopped before) :
    s.slots = Settled.slots env.policy before := by
  funext place
  rw [Progress.slots, h.stored_eq, List.getElem?_map, Settled.slots]

/-- A node that is skipped leaves everything as it is. -/
lemma skip (h : s.Follows env token stopped before) (id : String) :
    ({ s with events := s.events ++ [.skipped id] } : Progress).Follows env token stopped
      before where
  stored_eq := h.stored_eq
  failures_eq := h.failures_eq
  cache_sound := h.cache_sound
  stopped_eq := h.stopped_eq
  effects_eq := by
    rw [List.filterMap_append, h.effects_eq]
    simp [Event.effect?]

/-- A node that is realized is settled by the outputs stored before. -/
lemma after (h : s.Follows env token stopped before) (p : Plan) (n : PlannedNode) :
    (s.after token n (env.realize (p.storedValue s.slots) s.cache n)).Follows env token stopped
      (before ++ [n.settle env (p.storedValue (Settled.slots env.policy before))]) := by
  obtain ⟨hresult, hcache, ⟨names, hevents⟩, -⟩ :=
    Environment.realize_settle h.cache_sound (p.storedValue s.slots) n
  rw [h.slots_eq] at hresult hcache hevents ⊢
  generalize hr : env.realize (p.storedValue (Settled.slots env.policy before)) s.cache n = r
    at hresult hcache hevents ⊢
  generalize hd : n.settle env (p.storedValue (Settled.slots env.policy before)) = d
    at hresult hevents ⊢
  have hnode : d.node = n := by rw [← hd]; rfl
  have hstored : r.stored n = d.outputs env.policy := by
    rw [← hnode, Realized.stored_of_result hresult]
  have hfailure : (r.fault?.map n.fault).toList = (d.failure? env.policy).toList := by
    rw [← hnode, Realized.failure_of_result hresult]
  have hstops : r.events.any (Event.stops token) = d.stops token := by
    rw [hevents, List.any_append, List.any_map, List.any_map, Settled.stops]
    simp [Function.comp_def, Event.stops, Event.cancels?]
  have heffects : r.events.filterMap Event.effect? = d.effects := by
    rw [hevents, List.filterMap_append, List.filterMap_map, List.filterMap_map]
    simp [Function.comp_def, Event.effect?]
  refine ⟨?_, ?_, hcache, ?_, ?_⟩
  · simp only [Progress.after, h.stored_eq, hstored, List.map_append, List.map_cons, List.map_nil]
  · simp only [Progress.after, h.failures_eq, hfailure, List.filterMap_append]
    cases hd : d.failure? env.policy <;> simp [hd]
  · simp only [Progress.after, h.stopped_eq, hstops, List.any_append, List.any_cons, List.any_nil,
      Bool.or_false, Bool.or_assoc]
  · simp only [Progress.after, List.filterMap_append, List.filterMap_cons, h.effects_eq, heffects,
      List.flatMap_append, List.flatMap_singleton]
    have hnone :
        List.filterMap Event.effect? ((r.fault?.map n.fault).toList.map .failed) = [] := by
      cases r.fault? <;> rfl
    simp only [Event.effect?, hnone, List.append_nil]

/-- A run settles the nodes up to the one that finds the token cancelled, if there is one. -/
lemma runFrom (h : s.Follows env token stopped before) (p : Plan) (nodes : List PlannedNode) :
    ∃ k ≤ nodes.length,
      (p.runFrom env token s nodes).1.Follows env token stopped
        (p.settleFrom env before (nodes.take k)) ∧
      ((p.runFrom env token s nodes).2 = true ↔ k < nodes.length) ∧
      ((p.runFrom env token s nodes).2 = true →
        (p.runFrom env token s nodes).1.stopped = true) := by
  induction nodes generalizing s before with
  | nil => exact ⟨0, Nat.le_refl _, h, by simp [Plan.runFrom], by simp [Plan.runFrom]⟩
  | cons n nodes ih =>
    rw [Plan.runFrom]
    by_cases hstopped : s.stopped = true
    · -- this node and all behind it are left out
      rw [if_pos hstopped]
      exact ⟨0, Nat.zero_le _, h.skip n.id, by simp, fun _ => hstopped⟩
    · rw [if_neg hstopped]
      obtain ⟨k, hk, hfollows, hcancelled, hend⟩ := ih (h.after p n)
      refine ⟨k + 1, by simpa using hk, hfollows, ?_, hend⟩
      rw [hcancelled, List.length_cons]
      omega

end Progress.Follows

namespace Plan

/-- **A sequential run that is not cancelled settles all nodes**: its report has the outcomes
of all of them, and the effects on the way are those of their calls. -/
theorem runSequential_eq (h : (p.runSequential env token stopped).result.cancelled = false) :
    (p.runSequential env token stopped).result = p.settledReport env ∧
      (p.runSequential env token stopped).events.filterMap Event.effect? =
        (p.settled env).flatMap Settled.effects := by
  obtain ⟨k, hk, hfollows, hcancelled, -⟩ :=
    (Progress.Follows.start env token stopped).runFrom p p.nodes
  generalize hrun : p.runFrom env token (.start stopped) p.nodes = run at hfollows hcancelled
  obtain ⟨s, cancelled⟩ := run
  have hcancelled' : cancelled = false := by simpa [runSequential, hrun] using h
  have hall : p.nodes.take k = p.nodes := by
    refine List.take_of_length_le ?_
    rw [hcancelled'] at hcancelled
    by_contra hlt
    simpa using hcancelled.2 (by omega)
  rw [hall] at hfollows
  have hreport : (p.runSequential env token stopped).result =
      ⟨p.collected s.slots, s.failures, cancelled⟩ := by simp [runSequential, hrun]
  constructor
  · rw [hreport, hfollows.slots_eq, hfollows.failures_eq, hcancelled']
    rfl
  · simp only [runSequential, hrun, List.filterMap_append, hfollows.effects_eq]
    simp [Event.effect?, finished, settled]

/-- A run is cancelled only by a call that cancels its token. -/
lemma runSequential_not_cancelled (h : ∀ s ∈ p.settled env, s.stops token = false) :
    (p.runSequential env token false).result.cancelled = false := by
  obtain ⟨k, -, hfollows, -, hend⟩ :=
    (Progress.Follows.start env token false).runFrom p p.nodes
  -- the nodes that were settled are the first ones of all
  have hquiet : (p.settleFrom env [] (p.nodes.take k)).any (Settled.stops token) = false := by
    rw [List.any_eq_false]
    intro s hs
    have hbefore : p.settleFrom env [] (p.nodes.take k) <+: p.settled env := by
      conv_rhs => rw [settled, ← List.take_append_drop k p.nodes]
      rw [settleFrom_append]
      exact prefix_settleFrom _ _ _ _
    rw [h s (hbefore.subset hs)]
    simp
  have hstopped := hfollows.stopped_eq
  rw [hquiet, Bool.or_false] at hstopped
  have hnot := mt hend (by rw [hstopped]; simp)
  simpa [runSequential] using hnot

end Plan

/-! ## Calls -/

/-- The calls that a run makes for the given nodes, the last of the plan. -/
def Plan.callsFrom (env : Environment) (token : Option CancelToken) (p : Plan) (s : Progress) :
    List PlannedNode → List Invocation
  | [] => []
  | n :: rest =>
    if s.stopped then []
    else
      let realized := env.realize (p.storedValue s.slots) s.cache n
      (env.invocation? (p.storedValue s.slots) s.cache n).toList ++
        p.callsFrom env token (s.after token n realized) rest

/-- The calls that a sequential run makes, in their order. -/
def Plan.sequentialCalls (env : Environment) (token : Option CancelToken) (stopped : Bool)
    (p : Plan) : List Invocation := p.callsFrom env token (.start stopped) p.nodes

lemma Progress.Follows.callsFrom {before : List Settled} {s : Progress}
    (h : s.Follows env token stopped before) (p : Plan) (nodes : List PlannedNode)
    (hran : (p.runFrom env token s nodes).2 = false) :
    before.filterMap Settled.invocation? ++ p.callsFrom env token s nodes =
      (p.settleFrom env before nodes).filterMap Settled.invocation? := by
  induction nodes generalizing s before with
  | nil => simp [Plan.callsFrom, Plan.settleFrom]
  | cons n nodes ih =>
    rw [Plan.runFrom] at hran
    rw [Plan.callsFrom, Plan.settleFrom]
    by_cases hstopped : s.stopped = true
    · simp [hstopped] at hran
    · rw [if_neg hstopped] at hran ⊢
      rw [← ih (h.after p n) hran, (Environment.realize_settle h.cache_sound _ _).2.2.2, h.slots_eq,
        List.filterMap_append, List.append_assoc]
      generalize n.settle env (p.storedValue (Settled.slots env.policy before)) = d
      cases hcall : d.invocation? <;> simp [hcall]

/-- **The calls of a run that is not cancelled are those of the settled nodes**, in the order of
the plan. -/
theorem Plan.sequentialCalls_eq
    (h : (p.runSequential env token stopped).result.cancelled = false) :
    p.sequentialCalls env token stopped = (p.settled env).filterMap Settled.invocation? := by
  have hran : (p.runFrom env token (.start stopped) p.nodes).2 = false := by
    simpa [runSequential] using h
  have hcalls := (Progress.Follows.start env token stopped).callsFrom p p.nodes hran
  rwa [List.filterMap_nil, List.nil_append] at hcalls

/-- The effects of a run that is not cancelled are those of its calls. -/
lemma Plan.runSequential_effects
    (h : (p.runSequential env token stopped).result.cancelled = false) :
    (p.runSequential env token stopped).events.filterMap Event.effect? =
      (p.sequentialCalls env token stopped).flatMap Invocation.effects := by
  rw [(runSequential_eq h).2, sequentialCalls_eq h]
  induction p.settled env with
  | nil => rfl
  | cons d rest ih =>
    rw [List.flatMap_cons, ih, Settled.effects_eq]
    cases hcall : d.invocation? <;> simp [hcall]

end Dataflow
