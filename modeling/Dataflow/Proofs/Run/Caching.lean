import Dataflow.Proofs.Run.World

/-!
# The cache of compiled functions

A run keeps the functions that it compiles, and looks a name and a text up before it compiles
them.  In the world of `World.forgetful` nothing is kept, so that every text is compiled where a
node needs it.  The two runs go side by side (`Progress.Twin`): what they store, record and
cancel is the same, and their events are the same but for the compilations.  And a name and a text
that compile are in the cache once they have been needed, so that they are compiled once
(`Cache.Serves`).  Both are said of whole runs by `Plan.cache_transparent`.
-/

namespace Dataflow

/-- The world in which no function is kept in the cache. -/
def World.forgetful (env : Environment) : World :=
  { World.steady env with recalled := fun _ _ => [] }

/-- The events besides the compilations. -/
def withoutCompilations (events : List Event) : List Event :=
  events.filter fun e => e.compiles?.isNone

/-! ## Compilations -/

/-- The name and the text that are compiled for a node when it is realized, if it comes to
that. -/
def Environment.compilation? (env : Environment) (available : Available) (cache : Cache)
    (n : PlannedNode) : Option (String × String) :=
  match n.gathered available, n.behavior.resolve env.registry available with
  | .ok _, .ok (.text source) =>
    match cache.find? n.name source with
    | some _ => none
    | none => some (n.name, source)
  | _, _ => none

/-- The names and texts that a run compiles in a world for the given nodes, the last of the
plan. -/
def Plan.compilationsFromIn (w : World) (token : Option CancelToken) (p : Plan) (s : Progress) :
    List PlannedNode → List (String × String)
  | [] => []
  | n :: rest =>
    if s.stopped then []
    else
      ((w.env s.stored.length).compilation? (p.storedValue s.slots)
          (w.recalled s.stored.length s.cache) n).toList ++
        p.compilationsFromIn w token (s.after token n (w.realize p s n)) rest

/-- The names and texts that a run compiles in a world, in their order. -/
def Plan.compilationsIn (w : World) (token : Option CancelToken) (stopped : Bool) (p : Plan) :
    List (String × String) := p.compilationsFromIn w token (.start stopped) p.nodes

section Realize

variable {env : Environment} {cache : Cache}

/-- The function of a key can be compiled. -/
def Environment.Compiles (env : Environment) (key : String × String) : Prop :=
  (env.compiled key.1 key.2).isOk = true

instance (env : Environment) : DecidablePred env.Compiles := fun key =>
  inferInstanceAs (Decidable ((env.compiled key.1 key.2).isOk = true))

/-- The function of a key is in the cache. -/
def Cache.Holds (cache : Cache) (key : String × String) : Prop :=
  (cache.find? key.1 key.2).isSome = true

instance (cache : Cache) : DecidablePred cache.Holds := fun key =>
  inferInstanceAs (Decidable ((cache.find? key.1 key.2).isSome = true))

lemma Cache.not_holds_nil (key : String × String) : ¬ Cache.Holds [] key := by
  simp [Holds, find?]

lemma Cache.holds_cons (k : String × String) (b : Behavior) :
    Cache.Holds ((k, b) :: cache) key ↔ k = key ∨ cache.Holds key := by
  by_cases h : k = key
  · simp [Holds, find?, h]
  · rw [Holds, find?, List.find?_cons_of_neg (by simpa using h)]
    simp [h, Holds, find?]

/-- With a cache, a key is compiled that is compiled without one, unless the cache holds it. -/
lemma Environment.compilation?_eq_some_iff (env : Environment) (available : Available)
    (cache : Cache) (n : PlannedNode) (key : String × String) :
    env.compilation? available cache n = some key ↔
      env.compilation? available [] n = some key ∧ ¬ cache.Holds key := by
  unfold compilation?
  split
  · rename_i source hargs hsource
    have hnil : Cache.find? [] n.name source = none := rfl
    rw [hnil]
    cases hhit : cache.find? n.name source with
    | some b =>
      simp only [reduceCtorEq, Option.some.injEq, false_iff, not_and, not_not]
      rintro rfl
      simp [Cache.Holds, hhit]
    | none =>
      simp only [Option.some.injEq, iff_self_and]
      rintro rfl
      simp [Cache.Holds, hhit]
  · simp

/-- The ways in which a node is realized, each with what is compiled for it. -/
inductive Environment.Realizes (env : Environment) (cache : Cache) (n : PlannedNode) :
    Realized → Option (String × String) → Prop
  | refused (fault : NodeFault) : env.Realizes cache n ⟨.error fault, cache, []⟩ none
  | called (args : Arguments) (b : Behavior) :
    env.Realizes cache n (env.called n args b cache []) none
  | uncompiled (source : String) (fault : NodeFault) (h : ¬ env.Compiles (n.name, source)) :
    env.Realizes cache n ⟨.error fault, cache, [.compiled n.name]⟩ (some (n.name, source))
  | compiled (args : Arguments) (source : String) (b : Behavior)
    (h : env.Compiles (n.name, source)) :
    env.Realizes cache n
      (env.called n args b (((n.name, source), b) :: cache) [.compiled n.name])
      (some (n.name, source))

lemma Environment.realizes (env : Environment) (available : Available) (cache : Cache)
    (n : PlannedNode) :
    env.Realizes cache n (env.realize available cache n)
      (env.compilation? available cache n) := by
  unfold realize compilation?
  cases n.gathered available with
  | error fault => exact .refused fault
  | ok args =>
    cases n.behavior.resolve env.registry available with
    | error fault => exact .refused fault
    | ok f =>
      cases f with
      | ready b => exact .called args b
      | text source =>
        simp only [bind, Except.bind, pure, Except.pure]
        cases cache.find? n.name source with
        | some b => exact .called args b
        | none =>
          cases hcompiled : env.compiled n.name source with
          | error fault =>
            refine .uncompiled source fault ?_
            simp [Compiles, hcompiled, Except.isOk, Except.toBool]
          | ok b =>
            refine .compiled args source b ?_
            simp [Compiles, hcompiled, Except.isOk, Except.toBool]

/-- The compilations among the events of a node, and what is in the cache behind it. -/
lemma Environment.realize_compilation (env : Environment) (available : Available)
    (cache : Cache) (n : PlannedNode) :
    (env.realize available cache n).events.filterMap Event.compiles? =
        (env.compilation? available cache n).toList.map Prod.fst ∧
      ∀ key, (env.realize available cache n).cache.Holds key ↔
        cache.Holds key ∨ env.compilation? available cache n = some key ∧ env.Compiles key := by
  have hcalled (args : Arguments) (b : Behavior) (c : Cache) (events : List Event) :
      (env.called n args b c events).events.filterMap Event.compiles? =
        events.filterMap Event.compiles? := by
    simp [called, List.filterMap_append, List.filterMap_map, Function.comp_def, Event.compiles?]
  have hrealizes := env.realizes available cache n
  generalize env.realize available cache n = r at hrealizes ⊢
  generalize env.compilation? available cache n = key? at hrealizes ⊢
  cases hrealizes with
  | refused fault => simp
  | called args b => exact ⟨hcalled args b cache [], by simp [called]⟩
  | uncompiled source fault hno =>
    refine ⟨rfl, fun key => ⟨.inl, ?_⟩⟩
    rintro (hholds | ⟨hkey, hcompiles⟩)
    · exact hholds
    · exact absurd (Option.some.inj hkey ▸ hcompiles) hno
  | compiled args source b hyes =>
    refine ⟨hcalled args b _ _, fun key => ?_⟩
    change Cache.Holds (((n.name, source), b) :: cache) key ↔ _
    rw [Cache.holds_cons, or_comm]
    refine or_congr_right ⟨?_, fun h => Option.some.inj h.1⟩
    rintro rfl
    exact ⟨rfl, hyes⟩

end Realize

/-- The compilations of a run are those among its events. -/
lemma Plan.compiles?_runFromIn (w : World) (token : Option CancelToken) (p : Plan) (s : Progress)
    (nodes : List PlannedNode) :
    (p.runFromIn w token s nodes).1.events.filterMap Event.compiles? =
      s.events.filterMap Event.compiles? ++
        (p.compilationsFromIn w token s nodes).map Prod.fst := by
  induction nodes generalizing s with
  | nil => simp [runFromIn, compilationsFromIn]
  | cons n nodes ih =>
    rw [runFromIn, compilationsFromIn]
    by_cases hstopped : s.stopped = true
    · simp [hstopped, List.filterMap_append, Event.compiles?]
    · have hnode := ((w.env s.stored.length).realize_compilation (p.storedValue s.slots)
        (w.recalled s.stored.length s.cache) n).1
      have hfailed (failure : List NodeError) :
          (failure.map Event.failed).filterMap Event.compiles? = [] := by
        simp [List.filterMap_map, Function.comp_def, Event.compiles?]
      rw [if_neg hstopped, if_neg hstopped, ih, List.map_append, ← hnode, ← List.append_assoc]
      congr 1
      simp only [Progress.after, World.realize, List.filterMap_append, List.filterMap_cons,
        Event.compiles?, hfailed, List.append_nil]

/-- The compilations of a run, with its events. -/
lemma Plan.compiles?_runSequentialIn (w : World) (token : Option CancelToken) (stopped : Bool)
    (p : Plan) :
    (p.runSequentialIn w token stopped).events.filterMap Event.compiles? =
      (p.compilationsIn w token stopped).map Prod.fst := by
  rw [runSequentialIn, List.filterMap_append, compiles?_runFromIn]
  simp [Progress.start, compilationsIn, finished, Event.compiles?]

/-! ## The two runs -/

section Events

variable {token : Option CancelToken}

@[simp] lemma withoutCompilations_append (l r : List Event) :
    withoutCompilations (l ++ r) = withoutCompilations l ++ withoutCompilations r :=
  List.filter_append l r

@[simp] lemma withoutCompilations_compiled (names : List String) :
    withoutCompilations (names.map .compiled) = [] := by
  simp [withoutCompilations, Event.compiles?]

lemma withoutCompilations_cons_started (id name : String) (events : List Event) :
    withoutCompilations (.started id name :: events) =
      .started id name :: withoutCompilations events := rfl

/-- A compilation cancels nothing. -/
lemma any_stops_withoutCompilations (events : List Event) :
    (withoutCompilations events).any (Event.stops token) = events.any (Event.stops token) := by
  rw [withoutCompilations, List.any_filter]
  refine List.any_congr rfl fun e => ?_
  cases e <;> simp [Event.compiles?, Event.stops, Event.cancels?]

end Events

/-- What comes of a node does not depend on what is in the cache, if that is sound. -/
lemma Environment.realize_nil {env : Environment} {cache : Cache} (h : cache.Sound env)
    (available : Available) (n : PlannedNode) :
    (env.realize available cache n).result = (env.realize available [] n).result ∧
      withoutCompilations (env.realize available cache n).events =
        withoutCompilations (env.realize available [] n).events := by
  obtain ⟨hresult, -, ⟨names, hevents⟩, -⟩ := realize_settle h available n
  obtain ⟨hresult', -, ⟨names', hevents'⟩, -⟩ := realize_settle Cache.sound_nil available n
  exact ⟨hresult.trans hresult'.symm, by simp [hevents, hevents']⟩

/-- Two runs that have come to the same, the first with a cache that is sound. -/
structure Progress.Twin (env : Environment) (s t : Progress) : Prop where
  stored_eq : s.stored = t.stored
  failures_eq : s.failures = t.failures
  stopped_eq : s.stopped = t.stopped
  events_eq : withoutCompilations s.events = withoutCompilations t.events
  cache_sound : s.cache.Sound env

/-- What a cache holds once some names and texts were needed, and those of them that were
compiled for it: the ones that compile were compiled once, the others each time. -/
structure Cache.Serves (env : Environment) (cache : Cache)
    (made needed : List (String × String)) : Prop where
  holds_iff (key : String × String) : cache.Holds key ↔ key ∈ needed ∧ env.Compiles key
  count_eq (key : String × String) :
    made.count key = if env.Compiles key then min 1 (needed.count key) else needed.count key

section Runs

variable {env : Environment} {token : Option CancelToken} {p : Plan} {s t : Progress}
  {made needed : List (String × String)}

lemma Progress.Twin.slots_eq (h : s.Twin env t) : s.slots = t.slots := by
  funext place
  rw [slots, slots, h.stored_eq]

/-- The two runs come to the same behind a node too. -/
lemma Progress.Twin.after (h : s.Twin env t) (p : Plan) (token : Option CancelToken)
    (n : PlannedNode) :
    (s.after token n ((World.steady env).realize p s n)).Twin env
      (t.after token n ((World.forgetful env).realize p t n)) := by
  have hsteady : (World.steady env).realize p s n =
      env.realize (p.storedValue s.slots) s.cache n := rfl
  have hforgetful : (World.forgetful env).realize p t n =
      env.realize (p.storedValue s.slots) [] n := by rw [h.slots_eq]; rfl
  have hsound := (Environment.realize_settle h.cache_sound (p.storedValue s.slots) n).2.1
  obtain ⟨hresult, hevents⟩ := Environment.realize_nil h.cache_sound (p.storedValue s.slots) n
  rw [hsteady, hforgetful]
  generalize env.realize (p.storedValue s.slots) s.cache n = r at hresult hevents hsound ⊢
  generalize env.realize (p.storedValue s.slots) [] n = r' at hresult hevents ⊢
  have hstored : r.stored n = r'.stored n := by rw [Realized.stored, hresult]; rfl
  have hfault : r.fault? = r'.fault? := by rw [Realized.fault?, hresult]; rfl
  refine ⟨?_, ?_, ?_, ?_, hsound⟩
  · simp only [Progress.after, h.stored_eq, hstored]
  · simp only [Progress.after, h.failures_eq, hfault]
  · simp only [Progress.after, h.stopped_eq, ← any_stops_withoutCompilations r.events,
      ← any_stops_withoutCompilations r'.events, hevents]
  · simp only [Progress.after, withoutCompilations_append, withoutCompilations_cons_started,
      h.events_eq, hevents, hfault]

/-- A node that needs a function has it compiled if the cache does not hold it. -/
lemma Cache.Serves.after {cache : Cache} (h : cache.Serves env made needed)
    (available : Available) (n : PlannedNode) :
    (env.realize available cache n).cache.Serves env
      (made ++ (env.compilation? available cache n).toList)
      (needed ++ (env.compilation? available [] n).toList) := by
  have hholds := (env.realize_compilation available cache n).2
  have hmade := env.compilation?_eq_some_iff available cache n
  constructor
  · intro key
    rw [hholds, h.holds_iff, hmade, h.holds_iff, List.mem_append, Option.mem_toList]
    tauto
  · intro key
    have hone (o : Option (String × String)) :
        o.toList.count key = if o = some key then 1 else 0 := by
      cases o <;> simp [List.count_singleton, beq_iff_eq]
    rw [List.count_append, List.count_append, hone, hone, h.count_eq]
    have hneeded : key ∈ needed ↔ 0 < needed.count key := List.count_pos_iff.symm
    simp only [hmade, h.holds_iff, hneeded]
    split_ifs <;> grind

/-- The runs with and without a cache, side by side. -/
lemma Progress.Twin.runFromIn (h : s.Twin env t) (hserves : s.cache.Serves env made needed)
    (p : Plan) (token : Option CancelToken) (nodes : List PlannedNode) :
    (p.runFromIn (.steady env) token s nodes).1.Twin env
        (p.runFromIn (.forgetful env) token t nodes).1 ∧
      (p.runFromIn (.steady env) token s nodes).2 =
        (p.runFromIn (.forgetful env) token t nodes).2 ∧
      (p.runFromIn (.steady env) token s nodes).1.cache.Serves env
        (made ++ p.compilationsFromIn (.steady env) token s nodes)
        (needed ++ p.compilationsFromIn (.forgetful env) token t nodes) := by
  induction nodes generalizing s t made needed with
  | nil => exact ⟨h, rfl, by simpa [Plan.runFromIn, Plan.compilationsFromIn] using hserves⟩
  | cons n nodes ih =>
    rw [Plan.runFromIn, Plan.runFromIn, Plan.compilationsFromIn, Plan.compilationsFromIn,
      ← h.stopped_eq]
    by_cases hstopped : s.stopped = true
    · simp only [if_pos hstopped, List.append_nil]
      exact ⟨⟨h.stored_eq, h.failures_eq, rfl, by simp [h.events_eq], h.cache_sound⟩,
        trivial, hserves⟩
    · simp only [if_neg hstopped, ← List.append_assoc]
      refine ih (h.after p token n) ?_
      rw [← h.slots_eq]
      exact hserves.after (p.storedValue s.slots) n

end Runs

/-- **The cache of a run is transparent, and it serves.**  A run reports, and does besides
compiling, what the run does that compiles every text where a node needs it.  A name and a text
that compile are compiled once if a node needs them, whether the text is its own or comes from
another node; those that do not compile are tried each time. -/
theorem Plan.cache_transparent (env : Environment) (token : Option CancelToken) (stopped : Bool)
    (p : Plan) :
    (p.runSequential env token stopped).result =
        (p.runSequentialIn (.forgetful env) token stopped).result ∧
      withoutCompilations (p.runSequential env token stopped).events =
        withoutCompilations (p.runSequentialIn (.forgetful env) token stopped).events ∧
      (∀ w : World, (p.runSequentialIn w token stopped).events.filterMap Event.compiles? =
        (p.compilationsIn w token stopped).map Prod.fst) ∧
      ∀ key, (p.compilationsIn (.steady env) token stopped).count key =
        if env.Compiles key
        then min 1 ((p.compilationsIn (.forgetful env) token stopped).count key)
        else (p.compilationsIn (.forgetful env) token stopped).count key := by
  have hstart : (Progress.start stopped).Twin env (.start stopped) :=
    ⟨rfl, rfl, rfl, rfl, Cache.sound_nil⟩
  have hempty : Cache.Serves env [] [] [] :=
    ⟨fun key => by simp [Cache.not_holds_nil], fun key => by simp⟩
  obtain ⟨htwin, hcancelled, hserves⟩ := hstart.runFromIn hempty p token p.nodes
  rw [← runSequentialIn_steady]
  have hresult : (p.runSequentialIn (.steady env) token stopped).result =
      (p.runSequentialIn (.forgetful env) token stopped).result := by
    simp only [runSequentialIn, htwin.slots_eq, htwin.failures_eq, hcancelled]
  refine ⟨hresult, ?_, fun w => compiles?_runSequentialIn w token stopped p, hserves.count_eq⟩
  change withoutCompilations (_ ++ [p.finished (p.runSequentialIn _ token stopped).result]) =
    withoutCompilations (_ ++ [p.finished (p.runSequentialIn _ token stopped).result])
  rw [hresult, withoutCompilations_append, withoutCompilations_append, htwin.events_eq]

/-- One text reaches two nodes with the same name, once as the node's own and once from the node
before: it is compiled once. -/
example :
    let p : Plan := ⟨[
      ⟨"source", 0, "source", ["text"], [], .static "source", [2], 0⟩,
      ⟨"own", 1, "f", ["r"], [], .inline "body", [], 0⟩,
      ⟨"handed", 2, "f", ["r"], [], .upstream "source" "text", [], 1⟩]⟩
    let env : Environment := {
      registry := Dict.empty.insert "source" (.const (.text "body"))
      compiler := fun _ _ => .value (.const (.int 1))
      policy := .strict }
    p.compilationsIn (.steady env) none false = [("f", "body")] ∧
      p.compilationsIn (.forgetful env) none false = [("f", "body"), ("f", "body")] := by
  decide

end Dataflow
