import Dataflow.Proofs.Run.Control
import Dataflow.Proofs.Run.Settled

/-!
# What the tasks of a parallel run compute

Every task is on its way to what its node comes to with the final outputs of a sequential run:
the outputs that it reads are final when it reads them, since the nodes that they belong to
have stored them (`Control.stored`).  This is the invariant `Agreement`, with the clauses for
the phases of a task in `Phase.Agrees`.
-/

namespace Dataflow

/-! ## One task -/

/-- A call that cancels the token leaves it cancelled. -/
def Settled.Heeded (token : Option CancelToken) (s : Shared) (d : Settled) : Prop :=
  s.stopped = false → d.stops token = false

/-- The failure of a node, if it fails, is recorded for its place. -/
def Settled.Recorded (policy : OutputPolicy) (s : Shared) (place : ℕ) (d : Settled) : Prop :=
  ∀ e, d.failure? policy = some e → (place, e) ∈ s.failures

/-- What a task has found out agrees with what its node comes to. -/
def Phase.Agrees (env : Environment) (token : Option CancelToken) (available : Available)
    (s : Shared) (place : ℕ) (n : PlannedNode) : Phase → Prop
  | waiting => True
  | reading args rest =>
    rest <:+ n.arguments ∧ n.gathered available = gather available args rest
  | resolving args => n.gathered available = .ok args
  | seeking args source | compiling args source =>
    n.gathered available = .ok args ∧ n.function env available = env.compiled n.name source
  | keeping args source b =>
    n.gathered available = .ok args ∧ env.compiled n.name source = .ok b ∧
      n.function env available = .ok b
  | calling args b => n.gathered available = .ok args ∧ n.function env available = .ok b
  | failing fault =>
    (n.settle env available).outcome env.policy = .error fault ∧
      (n.settle env available).Heeded token s
  | storing outputs =>
    (n.settle env available).outputs env.policy = outputs ∧
      (n.settle env available).Heeded token s ∧
      (n.settle env available).Recorded env.policy s place
  | releasing _ => True

section Task

variable {env : Environment} {token : Option CancelToken} {p : Plan} {available : Available}
  {s s' : Shared} {place : ℕ} {n : PlannedNode} {phase : Phase} {d : Settled}

lemma Settled.Heeded.mono (h : d.Heeded token s)
    (hstopped : s.stopped = true → s'.stopped = true) : d.Heeded token s' := by
  intro hfalse
  refine h ?_
  rw [← Bool.not_eq_true] at hfalse ⊢
  exact mt hstopped hfalse

lemma Settled.Recorded.mono {policy : OutputPolicy} (h : d.Recorded policy s place)
    (hfailures : s.failures ⊆ s'.failures) : d.Recorded policy s' place :=
  fun e he => hfailures (h e he)

lemma Phase.Agrees.mono (h : phase.Agrees env token available s place n)
    (hstopped : s.stopped = true → s'.stopped = true) (hfailures : s.failures ⊆ s'.failures) :
    phase.Agrees env token available s' place n := by
  cases phase with
  | failing fault => exact ⟨h.1, h.2.mono hstopped⟩
  | storing outputs => exact ⟨h.1, h.2.1.mono hstopped, h.2.2.mono hfailures⟩
  | _ => exact h

/-! ### Calls that do not come about -/

lemma agrees_failing {fault : NodeFault} (h : n.settle env available = ⟨n, .error fault⟩) :
    (Phase.failing fault).Agrees env token available s place n := by
  rw [Phase.Agrees, h]
  exact ⟨rfl, fun _ => rfl⟩

lemma agrees_of_gathered_error {fault : NodeFault} (h : n.gathered available = .error fault) :
    (Phase.failing fault).Agrees env token available s place n :=
  agrees_failing (PlannedNode.settle_of_gathered_error h)

lemma agrees_of_function_error {args : Arguments} {fault : NodeFault}
    (h : n.gathered available = .ok args) (hf : n.function env available = .error fault) :
    (Phase.failing fault).Agrees env token available s place n :=
  agrees_failing (PlannedNode.settle_of_function_error h hf)

lemma agrees_firstPhase : n.firstPhase.Agrees env token available s place n := by
  rw [PlannedNode.firstPhase]
  cases hmissing : n.missingInput? with
  | some input => exact agrees_of_gathered_error (by rw [PlannedNode.gathered, hmissing])
  | none => exact ⟨List.suffix_rfl, by rw [PlannedNode.gathered, hmissing]⟩

/-! ### Steps -/

/-- A step that agrees: the cache stays sound, and the task goes on in agreement. -/
def Advance.Agrees (env : Environment) (token : Option CancelToken) (available : Available)
    (place : ℕ) (n : PlannedNode) (a : Advance) : Prop :=
  a.shared.cache.Sound env ∧
    ∀ phase, a.next = some phase → phase.Agrees env token available a.shared place n

lemma Advance.Agrees.on (hcache : s.cache.Sound env)
    (h : phase.Agrees env token available s place n) :
    (Advance.on s phase).Agrees env token available place n := by
  refine ⟨hcache, ?_⟩
  rintro phase ⟨⟩
  exact h

lemma Advance.Agrees.check {α : Type} {next : α → Phase} {r : Except NodeFault α}
    (hcache : s.cache.Sound env)
    (hok : ∀ a, r = .ok a → (next a).Agrees env token available s place n)
    (herror : ∀ fault, r = .error fault →
      (Phase.failing fault).Agrees env token available s place n) :
    (Advance.check s next r).Agrees env token available place n := by
  cases r with
  | ok a => exact .on hcache (hok a rfl)
  | error fault => exact .on hcache (herror fault rfl)

/-- If the next argument is read from final outputs, it is the one that the node comes to. -/
lemma Phase.Agrees.advance_reading {args : Arguments} {rest : List (String × Binding)}
    (h : (Phase.reading args rest).Agrees env token available s place n)
    (hcache : s.cache.Sound env)
    (hread : ∀ r ∈ n.references, p.storedValue s.view r.1 r.2 = available r.1 r.2) :
    (p.advance env token s place n (.reading args rest)).Agrees env token available place n := by
  obtain ⟨hsuffix, hgathered⟩ := h
  cases rest with
  | nil => exact .on hcache hgathered
  | cons b rest =>
    obtain ⟨input, binding⟩ := b
    have hvalue : binding.value (p.storedValue s.view) input = binding.value available input :=
      Binding.value_congr input fun r hr =>
        hread r (PlannedNode.argument_mem_references (hsuffix.subset List.mem_cons_self) hr)
    rw [gather] at hgathered
    -- what is left to gather starts with this binding
    refine .check hcache (fun v hv => ?_) (fun fault hfault => ?_)
    · rw [hvalue] at hv
      rw [hv] at hgathered
      exact ⟨(List.suffix_cons _ _).trans hsuffix, hgathered⟩
    · rw [hvalue] at hfault
      rw [hfault] at hgathered
      exact agrees_of_gathered_error hgathered

/-- If the text of the function is read from final outputs, the function is the one that the node
comes to. -/
lemma Phase.Agrees.advance_resolving {args : Arguments}
    (h : (Phase.resolving args).Agrees env token available s place n)
    (hcache : s.cache.Sound env)
    (hread : ∀ r ∈ n.references, p.storedValue s.view r.1 r.2 = available r.1 r.2) :
    (p.advance env token s place n (.resolving args)).Agrees env token available place n := by
  have hresolve : n.behavior.resolve env.registry (p.storedValue s.view) =
      n.behavior.resolve env.registry available :=
    BehaviorSource.resolve_congr env.registry fun r hr =>
      hread r (PlannedNode.behavior_mem_references hr)
  refine .check hcache (fun f hf => ?_) (fun fault hfault => ?_)
  · rw [hresolve] at hf
    cases f with
    | ready b => exact ⟨h, PlannedNode.function_of_ready hf⟩
    | text source => exact ⟨h, PlannedNode.function_of_text hf⟩
  · rw [hresolve] at hfault
    exact agrees_of_function_error h (PlannedNode.function_of_error hfault)

/-- The call is that of the settled node: so are its result and its effects. -/
lemma Phase.Agrees.advance_calling {args : Arguments} {b : Behavior}
    (h : (Phase.calling args b).Agrees env token available s place n)
    (hcache : s.cache.Sound env) :
    (p.advance env token s place n (.calling args b)).Agrees env token available place n := by
  obtain ⟨hgathered, hfunction⟩ := h
  have hsettle := PlannedNode.settle_of_ok hgathered hfunction
  let called := env.called n args b s.cache []
  have hheeded : (n.settle env available).Heeded token { s.note called.events with
      stopped := s.stopped || called.events.any (Event.stops token) } := by
    intro hfalse
    have hevents := (Bool.or_eq_false_iff.1 hfalse).2
    rw [hsettle, Settled.stops, Settled.effects]
    simpa [called, Environment.called, List.any_map, Function.comp_def] using hevents
  have hresult : (n.settle env available).outcome env.policy =
      called.result := by rw [hsettle, called_result]
  refine .check hcache (fun outputs hok => ⟨?_, hheeded, ?_⟩) (fun fault hfault => ⟨?_, hheeded⟩)
  · rw [Settled.outputs, hresult, hok]
  · intro e he
    rw [Settled.failure?, hresult, hok] at he
    simp at he
  · rw [hresult, hfault]

/-- If a task agrees, and the outputs that it may read are the final ones, it still agrees after
a step. -/
lemma Phase.Agrees.advance (h : phase.Agrees env token available s place n)
    (hcache : s.cache.Sound env)
    (hread : ∀ r ∈ n.references, p.storedValue s.view r.1 r.2 = available r.1 r.2) :
    (p.advance env token s place n phase).Agrees env token available place n := by
  cases phase with
  | waiting =>
    rw [Plan.advance]
    split
    · exact ⟨hcache, by simp [Advance.done]⟩
    · exact .on hcache agrees_firstPhase
  | reading args rest => exact h.advance_reading hcache hread
  | resolving args => exact h.advance_resolving hcache hread
  | seeking args source =>
    obtain ⟨hgathered, hfunction⟩ := h
    rw [Plan.advance]
    cases hhit : s.cache.find? n.name source with
    | some b => exact .on hcache ⟨hgathered, hfunction.trans (hcache _ _ _ hhit)⟩
    | none => exact .on hcache ⟨hgathered, hfunction⟩
  | compiling args source =>
    obtain ⟨hgathered, hfunction⟩ := h
    refine .check hcache (fun b hb => ?_) (fun fault hfault => ?_)
    · exact ⟨hgathered, hb, hfunction.trans hb⟩
    · exact agrees_of_function_error hgathered (hfunction.trans hfault)
  | keeping args source b =>
    obtain ⟨hgathered, hcompiled, hfunction⟩ := h
    exact .on (hcache.cons hcompiled) ⟨hgathered, hfunction⟩
  | calling args b => exact h.advance_calling hcache
  | failing fault =>
    obtain ⟨houtcome, hheeded⟩ := h
    refine .on hcache ⟨?_, hheeded, ?_⟩
    · rw [Settled.outputs, houtcome]
      rfl
    · intro e he
      rw [Settled.failure?, houtcome] at he
      obtain rfl : n.fault fault = e := Option.some.inj he
      simp
  | storing outputs => exact .on hcache trivial
  | releasing rest =>
    cases rest with
    | nil => exact ⟨hcache, by simp [Plan.advance, Advance.done]⟩
    | cons next rest =>
      refine ⟨hcache, ?_⟩
      rintro phase ⟨⟩
      trivial

end Task

/-! ## All tasks -/

/-- What the tasks of a run have found out, stored and recorded agrees with what the nodes come
to with the final outputs of the plan. -/
structure Agreement (env : Environment) (token : Option CancelToken) (p : Plan) (m : Machine) :
    Prop where
  cache_sound : m.shared.cache.Sound env
  agrees : ∀ q n phase, p.nodes[q]? = some n → m.phase? q = some phase →
    phase.Agrees env token (p.finalValues env) m.shared q n
  stored : ∀ q n outputs, p.nodes[q]? = some n → m.shared.view q = some outputs →
    (n.settle env (p.finalValues env)).outputs env.policy = outputs ∧
      (n.settle env (p.finalValues env)).Heeded token m.shared ∧
      (n.settle env (p.finalValues env)).Recorded env.policy m.shared q
  failures_sound : ∀ q e, (q, e) ∈ m.shared.failures → ∃ n, p.nodes[q]? = some n ∧
    (n.settle env (p.finalValues env)).failure? env.policy = some e
  failures_late : ∀ q e, (q, e) ∈ m.shared.failures →
    (∃ outputs, m.phase? q = some (.storing outputs)) ∨ ∃ outputs, m.shared.view q = some outputs
  failures_nodup : m.shared.failures.Nodup

namespace Agreement

open Machine

variable {env : Environment} {token : Option CancelToken} {p : Plan} {owed : ℕ → List ℕ}
  {m m' : Machine} {place : ℕ} {n : PlannedNode} {phase : Phase} {a : Advance}

lemma start (env : Environment) (token : Option CancelToken) (p : Plan) (stopped : Bool) :
    Agreement env token p (.start p stopped) where
  cache_sound := Cache.sound_nil
  agrees q n phase hn hphase := by
    rw [Control.phase?_start stopped hn] at hphase
    split at hphase
    · obtain rfl : Phase.waiting = phase := Option.some.inj hphase
      trivial
    · simp at hphase
  stored q n outputs _ hview := by
    rw [Control.view_start] at hview
    simp at hview
  failures_sound q e he := by simp [Machine.start] at he
  failures_late q e he := by simp [Machine.start] at he
  failures_nodup := List.nodup_nil

/-- A task that is not done reads final outputs. -/
lemma storedValue_eq (h : Agreement env token p m) (hcontrol : Control p owed m)
    (hp : p.Linked) (hb : p.Backed) (hn : p.nodes[place]? = some n)
    (hphase : m.phase? place = some phase) {r : String × String} (hr : r ∈ n.references) :
    p.storedValue m.shared.view r.1 r.2 = p.finalValues env r.1 r.2 := by
  obtain ⟨j, nj, hj, hnj, hs⟩ := hb place n hn r hr
  obtain ⟨outputs, hview⟩ := hcontrol.stored hphase hnj hs (Plan.lt_size_of_getElem? hn)
  have hfinal : p.finalSlots env j = some outputs := by
    rw [Plan.finalSlots_eq env hp hb hnj, (h.stored j nj outputs hnj hview).1]
  simp [Plan.finalValues, Plan.storedValue, hj, hview, hfinal]

/-! ### Steps -/

section Step

variable (h : Agreement env token p m) (hadv : Advances env token p m m' place n phase a)

include h hadv

/-- A step of a task is one that agrees, since the outputs that it reads are final. -/
lemma agrees_step (hcontrol : Control p owed m) (hp : p.Linked) (hb : p.Backed) :
    a.Agrees env token (p.finalValues env) place n := by
  rw [← hadv.advance_eq]
  refine (h.agrees place n phase hadv.node hadv.task).advance h.cache_sound fun r hr => ?_
  exact h.storedValue_eq hcontrol hp hb hadv.node hadv.task hr

lemma agrees_after (hagrees : a.Agrees env token (p.finalValues env) place n) {q : ℕ}
    {nq : PlannedNode} {phase' : Phase} (hq : p.nodes[q]? = some nq)
    (hphase : m'.phase? q = some phase') :
    phase'.Agrees env token (p.finalValues env) a.shared q nq := by
  by_cases heq : q = place
  · subst heq
    obtain rfl : nq = n := Option.some.inj (hq.symm.trans hadv.node)
    rw [hadv.phase?_self] at hphase
    exact hagrees.2 phase' hphase
  · rcases hadv.phase?_of_ne heq with hsame | ⟨-, hwaiting⟩
    · rw [hsame] at hphase
      exact (h.agrees q nq phase' hq hphase).mono hadv.move.stopped_mono hadv.move.failures_subset
    · obtain rfl : Phase.waiting = phase' := Option.some.inj (hwaiting.symm.trans hphase)
      trivial

lemma stored_after (hlt : place < m.shared.slots.length) {q : ℕ} {nq : PlannedNode}
    {outputs : Outputs} (hq : p.nodes[q]? = some nq) (hview : a.shared.view q = some outputs) :
    (nq.settle env (p.finalValues env)).outputs env.policy = outputs ∧
      (nq.settle env (p.finalValues env)).Heeded token a.shared ∧
      (nq.settle env (p.finalValues env)).Recorded env.policy a.shared q := by
  -- the outputs were there before, or the task has just stored them
  have hbefore : (nq.settle env (p.finalValues env)).outputs env.policy = outputs ∧
      (nq.settle env (p.finalValues env)).Heeded token m.shared ∧
      (nq.settle env (p.finalValues env)).Recorded env.policy m.shared q := by
    rcases hadv.move.view_eq hlt q with hsame | ⟨rfl, outputs', rfl, hstored⟩
    · exact h.stored q nq outputs hq (hsame.symm.trans hview)
    · obtain rfl : outputs' = outputs := Option.some.inj (hstored.symm.trans hview)
      exact h.agrees q nq _ hq hadv.task
  obtain ⟨houtputs, hheeded, hrecorded⟩ := hbefore
  exact ⟨houtputs, hheeded.mono hadv.move.stopped_mono, hrecorded.mono hadv.move.failures_subset⟩

lemma failures_sound_after {q : ℕ} {e : NodeError} (he : (q, e) ∈ a.shared.failures) :
    ∃ nq, p.nodes[q]? = some nq ∧
      (nq.settle env (p.finalValues env)).failure? env.policy = some e := by
  rcases hadv.move.failures_eq with hsame | ⟨fault, rfl, hadded, -⟩
  · rw [hsame] at he
    exact h.failures_sound q e he
  · rw [hadded, List.mem_append, List.mem_singleton] at he
    rcases he with hold | hnew
    · exact h.failures_sound q e hold
    · obtain ⟨rfl, rfl⟩ := Prod.mk.inj hnew
      refine ⟨n, hadv.node, ?_⟩
      rw [Settled.failure?, (h.agrees q n _ hadv.node hadv.task).1]
      rfl

lemma failures_late_after (hlt : place < m.shared.slots.length) {q : ℕ} {e : NodeError}
    (he : (q, e) ∈ a.shared.failures) :
    (∃ outputs, m'.phase? q = some (.storing outputs)) ∨
      ∃ outputs, a.shared.view q = some outputs := by
  have hold (hmem : (q, e) ∈ m.shared.failures) :
      (∃ outputs, m'.phase? q = some (.storing outputs)) ∨
        ∃ outputs, a.shared.view q = some outputs := by
    rcases h.failures_late q e hmem with ⟨outputs, hstoring⟩ | ⟨outputs, hview⟩
    · by_cases heq : q = place
      · -- the task stores its outputs in this step
        subst heq
        obtain rfl : phase = .storing outputs := Option.some.inj (hadv.task.symm.trans hstoring)
        exact .inr ⟨outputs, hadv.move.view_of_storing hlt⟩
      · rcases hadv.phase?_of_ne heq with hsame | ⟨hnone, -⟩
        · exact .inl ⟨outputs, hsame.trans hstoring⟩
        · rw [hnone] at hstoring
          simp at hstoring
    · rcases hadv.move.view_eq hlt q with hsame | ⟨-, outputs', -, hstored⟩
      · exact .inr ⟨outputs, hsame.trans hview⟩
      · exact .inr ⟨outputs', hstored⟩
  rcases hadv.move.failures_eq with hsame | ⟨fault, -, hadded, hnext⟩
  · exact hold (hsame ▸ he)
  · rw [hadded, List.mem_append, List.mem_singleton] at he
    rcases he with he | he
    · exact hold he
    · obtain ⟨rfl, -⟩ := Prod.mk.inj he
      exact .inl ⟨_, hadv.phase?_self.trans hnext⟩

/-- A failure is recorded once: a task that records one has neither outputs to store nor any
stored. -/
lemma failures_nodup_after (hcontrol : Control p owed m) : a.shared.failures.Nodup := by
  rcases hadv.move.failures_eq with hsame | ⟨fault, rfl, hadded, -⟩
  · rw [hsame]
    exact h.failures_nodup
  · rw [hadded, List.nodup_append]
    refine ⟨h.failures_nodup, List.nodup_singleton _, ?_⟩
    rintro ⟨q, e⟩ hmem x hx rfl
    obtain ⟨rfl, -⟩ := Prod.mk.inj (List.mem_singleton.1 hx)
    have hstanding := hcontrol.standing q n hadv.node
    rw [hadv.task] at hstanding
    rcases h.failures_late q e hmem with ⟨outputs, hstoring⟩ | ⟨outputs, hview⟩
    · rw [hadv.task] at hstoring
      simp at hstoring
    · have hnone := (hstanding.of_working rfl).1
      simp [hview] at hnone

/-- Every step keeps the agreement. -/
lemma advance (hcontrol : Control p owed m) (hp : p.Linked) (hb : p.Backed) :
    Agreement env token p m' := by
  have hagrees := h.agrees_step hadv hcontrol hp hb
  have hlt : place < m.shared.slots.length := by
    rw [hcontrol.length_slots]
    exact Plan.lt_size_of_getElem? hadv.node
  refine ⟨?_, ?_, ?_, ?_, ?_, ?_⟩ <;> rw [hadv.shared_eq]
  · exact hagrees.1
  · exact fun q nq phase' hq hphase => h.agrees_after hadv hagrees hq hphase
  · exact fun q nq outputs hq hview => h.stored_after hadv hlt hq hview
  · exact fun q e he => h.failures_sound_after hadv he
  · exact fun q e he => h.failures_late_after hadv hlt he
  · exact h.failures_nodup_after hadv hcontrol

end Step

end Agreement

end Dataflow
