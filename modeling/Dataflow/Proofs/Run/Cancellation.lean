import Dataflow.Proofs.Run.Interrupted

/-!
# Cancelled runs

The token of a parallel run may be cancelled by the call of a node, or from outside between any
two steps of the tasks (`Machine.OpenStep`).  A cancellation only sets a mark, so that the
invariants of an uncancelled run hold all the same; it is noticed by the tasks that start after
it, and each of them ends without having done anything (`Machine.Untouched.advance`).  Such a
task leaves a place behind at which nothing will happen any more (`Machine.Skipped.advance`).
When no task is left, the report is the part of the whole report that belongs to the places with
outputs (`Machine.report_eq_partial`).
-/

namespace Dataflow

namespace Machine

/-- The run with its token cancelled from outside. -/
def cancel (m : Machine) : Machine := { m with shared := { m.shared with stopped := true } }

/-- A step of a run whose token may be cancelled from outside at any moment. -/
inductive OpenStep (env : Environment) (token : Option CancelToken) (p : Plan) :
    Machine → Machine → Prop where
  | task {m m' : Machine} (h : Step env token p m m') : OpenStep env token p m m'
  | cancel {m : Machine} (h : m.shared.stopped = false) : OpenStep env token p m m.cancel

/-- Nothing has happened at a place but that its task, if it has one, waits for its turn. -/
structure Untouched (m : Machine) (q : ℕ) : Prop where
  view : m.shared.view q = none
  task : ∀ phase, m.phase? q = some phase → phase = .waiting

/-- The task for a place has found the token cancelled. -/
structure Skipped (m : Machine) (q : ℕ) : Prop where
  counter : m.shared.counters[q]? = some 0
  task : m.phase? q = none
  view : m.shared.view q = none

variable {env : Environment} {token : Option CancelToken} {p : Plan} {m m' : Machine}
  {owed : ℕ → List ℕ} {stopped : Bool} {place q : ℕ} {n : PlannedNode} {phase : Phase}
  {a : Advance}

/-- A cancellation from outside does not keep a run from its end. -/
lemma wellFounded_openStep : WellFounded fun m' m => OpenStep env token p m m' := by
  let left : Machine → ℕ := fun m => 2 * m.work p + if m.shared.stopped then 0 else 1
  have hlt : ∀ {m m'}, OpenStep env token p m m' → left m' < left m := by
    intro m m' h
    simp only [left]
    cases h with
    | task hstep =>
      have hwork := work_step_lt hstep
      split <;> split <;> omega
    | cancel hstopped =>
      have hwork : m.cancel.work p = m.work p := rfl
      have hset : m.cancel.shared.stopped = true := rfl
      simp [hwork, hset, hstopped]
  exact Subrelation.wf (fun h => hlt h) (measure left).wf

/-! ## After a cancellation -/

/-- Once the token is cancelled, nothing happens where nothing has happened. -/
lemma Untouched.advance (h : m.Untouched q) (hadv : Advances env token p m m' place n phase a)
    (hlt : place < m.shared.slots.length) (hstopped : m.shared.stopped = true) :
    m'.Untouched q := by
  by_cases hq : q = place
  · -- the task finds the token cancelled
    subst hq
    obtain rfl := h.task phase hadv.task
    have ha := hadv.advance_eq
    rw [Plan.advance, if_pos hstopped] at ha
    subst ha
    refine ⟨?_, ?_⟩
    · rw [hadv.shared_eq]
      exact h.view
    · intro phase hphase
      rw [hadv.phase?_self] at hphase
      simp [Advance.done] at hphase
  · refine ⟨?_, ?_⟩
    · rw [hadv.shared_eq]
      rcases hadv.move.view_eq hlt q with hsame | ⟨heq, -⟩
      · rw [hsame, h.view]
      · exact absurd heq hq
    · intro phase' hphase
      rcases hadv.phase?_of_ne hq with hsame | ⟨-, hwaiting⟩
      · exact h.task phase' (hsame.symm.trans hphase)
      · rw [hwaiting] at hphase
        exact (Option.some.inj hphase).symm

lemma Skipped.advance (h : m.Skipped q) (hadv : Advances env token p m m' place n phase a)
    (hlt : place < m.shared.slots.length) : m'.Skipped q := by
  have hne : q ≠ place := by
    rintro rfl
    have htask := hadv.task
    rw [h.task] at htask
    simp at htask
  have hmove := hadv.move
  refine ⟨?_, ?_, ?_⟩
  · rw [hadv.shared_eq]
    cases hmove with
    | work _ _ _ hcounters => exact hcounters ▸ h.counter
    | release next rest =>
      -- a counter that is zero stays zero
      by_cases hnext : next = q <;> simp [h.counter, hnext]
    | _ => exact h.counter
  · -- a task is spawned only for a place with counter one
    refine (hadv.phase?_other q hne fun hspawned => ?_).trans h.task
    have hone := hmove.counter_of_spawned hspawned
    rw [h.counter] at hone
    simp at hone
  · rw [hadv.shared_eq]
    rcases hmove.view_eq hlt q with hsame | ⟨heq, -⟩
    · rw [hsame, h.view]
    · exact absurd heq hne

/-- A run that says that it was cancelled has left a place behind. -/
def Leaves (p : Plan) (m : Machine) : Prop :=
  m.shared.cancelled = true → ∃ q < p.size, m.Skipped q

lemma Leaves.advance (h : m.Leaves p) (hcontrol : Control p owed m)
    (hadv : Advances env token p m m' place n phase a) : m'.Leaves p := by
  have hplace := Plan.lt_size_of_getElem? hadv.node
  intro hcancelled
  by_cases hbefore : m.shared.cancelled = true
  · obtain ⟨q, hq, hskipped⟩ := h hbefore
    exact ⟨q, hq, hskipped.advance hadv (by rwa [hcontrol.length_slots])⟩
  · -- the task of this step has found the token cancelled
    have hmove := hadv.move
    have hstanding := hcontrol.standing place n hadv.node
    rw [hadv.task] at hstanding
    have hcounter := hcontrol.counter_eq place hplace
    have hself := hadv.phase?_self
    rw [hadv.shared_eq] at hcancelled
    cases hmove with
    | skip hstopped =>
      obtain ⟨hstored, hzero, -⟩ := hstanding.of_working rfl
      refine ⟨place, hplace, ?_, hself, ?_⟩
      · rw [hadv.shared_eq, ← hzero]
        exact hcounter
      · rw [hadv.shared_eq]
        change m.shared.view place = none
        simpa using hstored
    | work _ _ _ _ _ hsame => exact absurd (hsame.symm.trans hcancelled) hbefore
    | _ => exact absurd hcancelled hbefore

end Machine

/-! ## Invariants -/

section Cancel

variable {env : Environment} {token : Option CancelToken} {p : Plan} {m m' : Machine}
  {owed : ℕ → List ℕ} {stopped : Bool}

lemma Control.cancel (h : Control p owed m) : Control p owed m.cancel :=
  ⟨h.places_nodup, h.outside, h.length_slots, h.counter_eq, h.standing, fun _ => rfl⟩

lemma Agreement.cancel (h : Agreement env token p m) : Agreement env token p m.cancel where
  cache_sound := h.cache_sound
  agrees q n phase hn hphase :=
    (h.agrees q n phase hn hphase).mono (fun _ => rfl) (List.Subset.refl _)
  stored q n outputs hn hview := by
    obtain ⟨houtputs, hheeded, hrecorded⟩ := h.stored q n outputs hn hview
    exact ⟨houtputs, hheeded.mono fun _ => rfl, hrecorded⟩
  failures_sound := h.failures_sound
  failures_late := h.failures_late
  failures_nodup := h.failures_nodup

/-- A node with outputs has only nodes with outputs before it. -/
lemma Control.stored_of_stored (h : Control p owed m) {i j : ℕ} (hlink : (i, j) ∈ p.links)
    (hj : j < p.size) (hstored : (m.shared.view j).isSome = true) :
    (m.shared.view i).isSome = true := by
  obtain ⟨n, hn, hmem⟩ := Plan.mem_links.1 hlink
  obtain ⟨nj, hnj⟩ := Plan.exists_node hj
  -- otherwise the first one owes all its edges, and the counter of the second is not zero
  by_contra hnone
  have hi := h.standing i n hn
  have hstanding := h.standing j nj hnj
  rw [Bool.not_eq_true] at hnone
  rw [hnone] at hi
  rw [hstored] at hstanding
  have hpos : 0 < p.waits owed j :=
    Plan.waits_pos (Plan.lt_size_of_getElem? hn) (by rw [hi.owed_eq]; exact hmem)
  have hzero := hstanding.counter_of_stored
  omega

namespace Machine

/-- What holds in every state of a run whose token may be cancelled at any moment. -/
structure Sound (env : Environment) (token : Option CancelToken) (p : Plan) (m : Machine) :
    Prop where
  control : ∃ owed, Control p owed m
  agreement : Agreement env token p m
  leaves : m.Leaves p

namespace Sound

lemma start (hp : p.Linked) : Sound env token p (.start p stopped) where
  control := ⟨_, Control.start hp stopped⟩
  agreement := Agreement.start env token p stopped
  leaves := by
    intro hcancelled
    simp [Machine.start] at hcancelled

lemma openStep (h : Sound env token p m) (hp : p.Linked) (hb : p.Backed)
    (hstep : OpenStep env token p m m') : Sound env token p m' := by
  obtain ⟨owed, hcontrol⟩ := h.control
  cases hstep with
  | task hstep =>
    obtain ⟨place, n, phase, a, hadv⟩ := hcontrol.exists_advances hstep
    exact ⟨hcontrol.advance hp hadv, h.agreement.advance hadv hcontrol hp hb,
      h.leaves.advance hcontrol hadv⟩
  | cancel hstopped =>
    refine ⟨⟨owed, hcontrol.cancel⟩, h.agreement.cancel, fun hcancelled => ?_⟩
    obtain ⟨q, hq, hskipped⟩ := h.leaves hcancelled
    exact ⟨q, hq, hskipped.counter, hskipped.task, hskipped.view⟩

lemma steps (h : Sound env token p m) (hp : p.Linked) (hb : p.Backed)
    (hsteps : Relation.ReflTransGen (OpenStep env token p) m m') : Sound env token p m' := by
  induction hsteps with
  | refl => exact h
  | tail _ hstep ih => exact ih.openStep hp hb hstep

/-- Once the token is cancelled, nothing will ever happen where nothing has happened. -/
lemma untouched_steps (h : Sound env token p m) (hp : p.Linked) (hb : p.Backed)
    (hstopped : m.shared.stopped = true) {q : ℕ} (hq : m.Untouched q)
    (hsteps : Relation.ReflTransGen (OpenStep env token p) m m') : m'.Untouched q := by
  have hboth : m'.shared.stopped = true ∧ m'.Untouched q := by
    induction hsteps with
    | refl => exact ⟨hstopped, hq⟩
    | tail hsteps hstep ih =>
      obtain ⟨owed, hcontrol⟩ := (h.steps hp hb hsteps).control
      cases hstep with
      | task hstep =>
        obtain ⟨place, n, phase, a, hadv⟩ := hcontrol.exists_advances hstep
        refine ⟨?_, ih.2.advance hadv ?_ ih.1⟩
        · rw [hadv.shared_eq]
          exact hadv.move.stopped_mono ih.1
        · rw [hcontrol.length_slots]
          exact Plan.lt_size_of_getElem? hadv.node
      | cancel hnot => simp [ih.1] at hnot
  exact hboth.2

/-! ## The end of a run -/

section Done

variable (h : Sound env token p m) (hp : p.Linked) (hb : p.Backed) (htasks : m.tasks = [])

include h htasks

/-- The failures at the end are those of the places with outputs. -/
lemma failures_perm :
    m.shared.failures.Perm
      ((p.placedFailures env).filter fun f => (m.shared.view f.1).isSome) := by
  have hnodup : (p.placedFailures env).Nodup :=
    (Plan.placedFailures_pairwise env p).imp fun hab heq => by simp [heq] at hab
  rw [List.perm_ext_iff_of_nodup h.agreement.failures_nodup (hnodup.filter _)]
  rintro ⟨q, e⟩
  rw [List.mem_filter, Plan.mem_placedFailures]
  constructor
  · intro hmem
    refine ⟨h.agreement.failures_sound q e hmem, ?_⟩
    rcases h.agreement.failures_late q e hmem with ⟨outputs, hphase⟩ | ⟨outputs, hview⟩
    · have hnone : m.phase? q = none := phase?_eq_none_iff.2 (by simp [htasks])
      simp [hnone] at hphase
    · simp [hview]
  · rintro ⟨⟨n, hn, he⟩, hview⟩
    obtain ⟨outputs, hview⟩ := Option.isSome_iff_exists.1 hview
    exact (h.agreement.stored q n outputs hn hview).2.2 e he

include hp

lemma cancelled_iff : m.shared.cancelled = true ↔ ∃ q < p.size, m.shared.view q = none := by
  constructor
  · intro hcancelled
    obtain ⟨q, hq, hskipped⟩ := h.leaves hcancelled
    exact ⟨q, hq, hskipped.view⟩
  · rintro ⟨q, hq, hview⟩
    obtain ⟨owed, hcontrol⟩ := h.control
    by_contra hnot
    rw [Bool.not_eq_true] at hnot
    obtain ⟨outputs, houtputs⟩ := hcontrol.all_stored hp htasks hnot hq
    simp [hview] at houtputs

include hb

/-- **The report of a run is the part of the whole report that belongs to the places with
outputs.** -/
theorem report_eq_partial :
    m.report p = p.partialReport env fun q => (m.shared.view q).isSome := by
  obtain ⟨owed, hcontrol⟩ := h.control
  have hslots : m.shared.view = p.ranSlots env fun q => (m.shared.view q).isSome := by
    funext q
    rw [Plan.ranSlots]
    cases hview : m.shared.view q with
    | none => rfl
    | some outputs =>
      have hq : q < p.size := by
        rw [← hcontrol.length_slots]
        by_contra hge
        simp [Shared.view, List.getElem?_eq_none (Nat.not_lt.1 hge)] at hview
      obtain ⟨n, hn⟩ := Plan.exists_node hq
      have houtputs := (h.agreement.stored q n outputs hn hview).1
      simp [Plan.finalSlots_eq env hp hb hn, houtputs]
  have hfailures := mergeSort_eq_of_perm (h.failures_perm htasks)
    ((Plan.placedFailures_pairwise env p).filter _)
  have hcancelled : m.shared.cancelled =
      !(List.range p.size).all fun q => (m.shared.view q).isSome := by
    rw [Bool.eq_iff_iff, h.cancelled_iff hp htasks]
    simp
  rw [report, Plan.partialReport, hfailures, ← hslots, hcancelled]

end Done

end Sound

end Machine

end Cancel

/-! ## Cancelled runs -/

/-- **A cancelled run reports a part of the whole run.**  Whenever the token is cancelled, by the
calls of the nodes or from outside, before a sequential run or between any two steps of the tasks
of a parallel one, no node is realized that looks at the token after that, the nodes that were
realized come to what they come to in a whole run, and the report says whether there are
others. -/
theorem Graph.cancellation (g : Graph) (p : Plan) (h : g.plan = .ok p) (env : Environment)
    (token : Option CancelToken) (stopped : Bool) :
    (∀ place, ∃ k ≤ place,
      p.RanFirst env token stopped k (p.runInterrupted env token stopped place) ∧
        (p.runInterrupted env token stopped place).result.outputs.keys.Perm (p.order.take k) ∧
        (p.runInterrupted env token stopped place).result.PartOf
          (p.runSequential env none false).result g p) ∧
      (WellFounded fun m' m => Machine.OpenStep env token p m m') ∧
      ∀ m, Relation.ReflTransGen (Machine.OpenStep env token p) (.start p stopped) m →
        (m.shared.stopped = true → ∀ q n, p.nodes[q]? = some n → m.Untouched q →
          ∀ m', Relation.ReflTransGen (Machine.OpenStep env token p) m m' →
            m'.Untouched q ∧ n.id ∉ (m'.report p).outputs.keys) ∧
        ((∀ m', ¬ Machine.Step env token p m m') →
          m.tasks = [] ∧ (m.report p).PartOf (p.runSequential env none false).result g p) := by
  obtain ⟨order, hby⟩ := exists_plannedBy h
  have hp := hby.linked
  have hb := hby.backed
  have hwhole : (p.runSequential env none false).result = p.settledReport env :=
    (Plan.runSequential_eq (Plan.runSequential_not_cancelled fun d _ => d.stops_none)).1
  refine ⟨fun place => ?_, Machine.wellFounded_openStep, fun m hm => ?_⟩
  · obtain ⟨k, hk, hran⟩ := Plan.exists_ranFirst env token stopped p place
    refine ⟨k, hk, hran, hran.keys_perm hby.ids_nodup hp hb, ?_⟩
    rw [hran.result_eq_partial hp hb, hwhole]
    refine hby.partOf fun i s hlink hs => ?_
    obtain ⟨n, hn, hmem⟩ := Plan.mem_links.1 hlink
    have hlt := (hp.forward hn s hmem).1
    simp only [decide_eq_true_eq] at hs ⊢
    omega
  · have hsound := (Machine.Sound.start hp).steps hp hb hm
    refine ⟨fun hstopped q n hn hq m' hm' => ?_, fun hmax => ?_⟩
    · have huntouched := hsound.untouched_steps hp hb hstopped hq hm'
      refine ⟨huntouched, fun hmem => ?_⟩
      obtain ⟨outputs, houtputs⟩ := Entries.mem_keys_iff.1 hmem
      change (p.collected m'.shared.view).find? n.id = some outputs at houtputs
      rw [Plan.find?_collected_eq hby.ids_nodup hn, huntouched.view] at houtputs
      simp at houtputs
    · have htasks := Machine.tasks_eq_nil hmax
      refine ⟨htasks, ?_⟩
      rw [hsound.report_eq_partial hp hb htasks, hwhole]
      refine hby.partOf fun i s hlink hs => ?_
      obtain ⟨owed, hcontrol⟩ := hsound.control
      obtain ⟨n, hn, hmem⟩ := Plan.mem_links.1 hlink
      exact hcontrol.stored_of_stored hlink (hp.forward hn s hmem).2 hs

/-- An environment for `joining`, in which the first node cancels the token 0. -/
def Graph.hastyEnvironment : Environment :=
  { joiningEnvironment with
    registry := joiningEnvironment.registry.insert "one" (.after (.cancel 0) (.const (.int 1))) }

theorem Graph.cancellation_joining :
    joining.plan = .ok joiningPlan ∧
      (∃ k ≤ 1, joiningPlan.RanFirst hastyEnvironment (some 0) false k
        (joiningPlan.runInterrupted hastyEnvironment (some 0) false 1)) ∧
      ∃ m, Relation.ReflTransGen (Machine.OpenStep hastyEnvironment (some 0) joiningPlan)
          (.start joiningPlan false) m ∧
        m.tasks = [] ∧ (m.report joiningPlan).outputs.keys = ["code", "one"] ∧
        (m.report joiningPlan).cancelled = true ∧
        (m.report joiningPlan).PartOf
          (joiningPlan.runSequential hastyEnvironment none false).result joining joiningPlan := by
  have hplan : joining.plan = .ok joiningPlan := rfl
  let m := (Machine.start joiningPlan false).drain hastyEnvironment (some 0) joiningPlan 100
  have hm := Machine.drain_steps hastyEnvironment (some 0) joiningPlan 100
    (.start joiningPlan false)
  have hopen : Relation.ReflTransGen (Machine.OpenStep hastyEnvironment (some 0) joiningPlan)
      (.start joiningPlan false) m :=
    Relation.ReflTransGen.mono (fun _ _ hstep => .task hstep) _ _ hm
  have hdone : m.tasks = [] := Machine.drain_done (by rw [Machine.work_start]; decide)
  have hmax : ∀ m', ¬ Machine.Step hastyEnvironment (some 0) joiningPlan m m' := by
    rintro m' ⟨i, hi, -⟩
    simp [hdone] at hi
  obtain ⟨hsequential, -, hparallel⟩ :=
    cancellation joining joiningPlan hplan hastyEnvironment (some 0) false
  obtain ⟨k, hk, hran, -⟩ := hsequential 1
  exact ⟨hplan, ⟨k, hk, hran⟩, m, hopen, hdone, by decide, by decide,
    ((hparallel m hopen).2 hmax).2⟩

end Dataflow
