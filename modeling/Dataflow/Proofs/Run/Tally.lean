import Mathlib.Data.List.Count
import Dataflow.Proofs.Plan.Saving
import Dataflow.Proofs.Run.AnyOutcome

/-!
# What a parallel run does to the places of a plan

A run leaves a history of deeds: tasks that it spawned, outputs that it stored, counters that it
counted down.  The history and the state that is reached add up (`Tally`): each counter is what
the deeds have left of it, and a node has a task or stored outputs as often as the history says.
All that this needs of a plan are sound links, and so it holds of every plan that was loaded
(`Plan.runs_of_load`).
-/

namespace Dataflow

/-! ## Deeds -/

/-- What a step does to a place of the plan. -/
inductive Deed where
  /-- Spawns the task of the node. -/
  | spawn (place : ℕ)
  /-- Stores the outputs of the node. -/
  | store (place : ℕ)
  /-- Counts down the counter of the node. -/
  | countDown (place : ℕ)
deriving DecidableEq

namespace Deed

/-- The place to which something is done. -/
def place : Deed → ℕ
  | spawn place | store place | countDown place => place

/-- What a task does before it turns to the next phase. -/
def ofPhase (place : ℕ) : Phase → List Deed
  | .storing _ => [store place]
  | .releasing (next :: _) => [countDown next]
  | _ => []

lemma ofPhase_of_not_isSettled {place : ℕ} {phase : Phase} (h : phase.isSettled = false) :
    ofPhase place phase = [] := by
  cases phase with
  | storing _ => simp [Phase.isSettled] at h
  | releasing _ => simp [Phase.isSettled] at h
  | _ => rfl

/-- What a step of a task does. -/
def ofAdvance (place : ℕ) (phase : Phase) (a : Advance) : List Deed :=
  ofPhase place phase ++ a.spawned.toList.map spawn

/-! ### Counting down an edge -/

/-- Counts down the counter of a node, and spawns its task if that was the last edge. -/
def ofRelease (next c : ℕ) : List Deed :=
  countDown next :: (if c = 1 then some next else none).toList.map spawn

variable {next c v : ℕ} {d : Deed} {before history : List Deed}

lemma place_of_mem_ofRelease (h : d ∈ ofRelease next c) : d.place = next := by
  rcases List.mem_cons.1 h with rfl | h
  · rfl
  · split at h
    · rw [List.mem_singleton.1 h]
      rfl
    · simp at h

lemma count_countDown_ofRelease (next c v : ℕ) :
    (ofRelease next c).count (.countDown v) = if next = v then 1 else 0 := by
  rw [ofRelease]
  split <;> simp [List.count_cons]

lemma count_spawn_ofRelease (next c v : ℕ) :
    (ofRelease next c).count (.spawn v) = if next = v ∧ c = 1 then 1 else 0 := by
  rw [ofRelease]
  split
  · rename_i hc
    simp [List.count_cons, hc]
  · rename_i hc
    simp [hc]

lemma count_store_ofRelease (next c v : ℕ) : (ofRelease next c).count (.store v) = 0 := by
  rw [ofRelease]
  split <;> simp

/-- A task is spawned before, or as the last deed. -/
lemma of_prefix_ofRelease (h : before ++ [.spawn v] <+: history ++ ofRelease next c) :
    before ++ [.spawn v] <+: history ∨
      before = history ++ [.countDown next] ∧ v = next ∧ c = 1 := by
  have hcount : before ++ [.spawn v] <+: history ++ [.countDown next] →
      before ++ [.spawn v] <+: history := by
    intro hprefix
    rcases List.prefix_concat_iff.1 hprefix with heq | hprefix
    · simp at heq
    · exact hprefix
  by_cases hc : c = 1
  · rw [ofRelease, if_pos hc, List.append_cons history] at h
    rcases List.prefix_concat_iff.1 h with heq | hprefix
    · obtain ⟨rfl, hv⟩ := List.append_inj' heq rfl
      exact .inr ⟨rfl, Deed.spawn.inj (List.cons.inj hv).1, hc⟩
    · exact .inl (hcount hprefix)
  · rw [ofRelease, if_neg hc] at h
    exact .inl (hcount h)

end Deed

namespace Machine

/-- What the step of the task at an index does. -/
def deeds (env : Environment) (token : Option CancelToken) (p : Plan) (m : Machine)
    (index : ℕ) : List Deed :=
  match m.tasks[index]? with
  | none => []
  | some t =>
    match p.nodes[t.place]? with
    | none => []
    | some n => Deed.ofAdvance t.place t.phase (p.advance env token m.shared t.place n t.phase)

/-- The runs of a plan: what was done on the way, and the state that is reached. -/
inductive Reaches (token : Option CancelToken) (p : Plan) (stopped : Bool) :
    List Deed → Machine → Prop where
  | start : Reaches token p stopped ((start p stopped).tasks.map fun t => .spawn t.place)
      (start p stopped)
  | step {history : List Deed} {m : Machine} (h : Reaches token p stopped history m)
    (env : Environment) (b : Behavior) {i : ℕ} (hi : i < m.tasks.length) :
    Reaches token p stopped (history ++ (m.answering i b).deeds env token p i)
      ((m.answering i b).step env token p i)

end Machine

/-! ## The tally -/

/-- What was done to the places agrees with the state that is reached. -/
structure Tally (p : Plan) (history : List Deed) (s : Shared) : Prop where
  place_lt : ∀ d ∈ history, d.place < p.size
  counted : ∀ v < p.size, ∃ c, s.counters[v]? = some c ∧
    c + history.count (.countDown v) = p.edgesInto v ∧
      history.count (.spawn v) = if c = 0 then 1 else 0
  stored : ∀ v < p.size, history.count (.store v) = if (s.view v).isSome then 1 else 0
  ordered : ∀ (before : List Deed) (v : ℕ), before ++ [.spawn v] <+: history →
    ∀ (j : ℕ) (n : PlannedNode), p.nodes[j]? = some n → v ∈ n.successors → .store j ∈ before

namespace Tally

open Machine

variable {env : Environment} {token : Option CancelToken} {p : Plan} {owed owed' : ℕ → List ℕ}
  {m m' : Machine} {place : ℕ} {n : PlannedNode} {phase : Phase} {a : Advance}
  {history : List Deed} {s s' : Shared}

lemma of_eq (h : Tally p history s) {deeds : List Deed} (hdeeds : deeds = [])
    (hslots : s'.slots = s.slots) (hcounters : s'.counters = s.counters) :
    Tally p (history ++ deeds) s' := by
  have hview : s'.view = s.view := by unfold Shared.view; rw [hslots]
  rw [hdeeds, List.append_nil]
  exact ⟨h.place_lt, by rw [hcounters]; exact h.counted, by rw [hview]; exact h.stored, h.ordered⟩

lemma store (h : Tally p history m.shared) (hcontrol : Control p owed m) {outputs : Outputs}
    (hn : p.nodes[place]? = some n) (htask : m.phase? place = some (.storing outputs)) :
    Tally p (history ++ [.store place])
      { m.shared with slots := m.shared.slots.set place (some outputs) } := by
  have hplace := Plan.lt_size_of_getElem? hn
  have hstanding := hcontrol.standing place n hn
  rw [htask] at hstanding
  obtain ⟨hempty, -, -⟩ := hstanding.of_working rfl
  refine ⟨?_, ?_, ?_, ?_⟩
  · intro d hd
    rcases List.mem_append.1 hd with hd | hd
    · exact h.place_lt d hd
    · rw [List.mem_singleton.1 hd]
      exact hplace
  · intro v hv
    obtain ⟨c, hc, hedges, hspawned⟩ := h.counted v hv
    exact ⟨c, hc, by simpa [List.count_append] using hedges,
      by simpa [List.count_append] using hspawned⟩
  · intro v hv
    have hlt : place < m.shared.slots.length := by rwa [hcontrol.length_slots]
    rw [List.count_append, h.stored v hv]
    by_cases heq : v = place
    · subst heq
      have hview : ({ m.shared with slots := m.shared.slots.set v (some outputs) } :
          Shared).view v = some outputs := by
        simp [Shared.view, hlt]
      rw [hempty, hview]
      simp
    · have hview : ({ m.shared with slots := m.shared.slots.set place (some outputs) } :
          Shared).view v = m.shared.view v := by
        simp [Shared.view, List.getElem?_set_ne (Ne.symm heq)]
      have hne : Deed.store place ≠ .store v := fun hd => heq (Deed.store.inj hd).symm
      rw [hview]
      simp [hne]
  · intro before v hprefix
    rcases List.prefix_concat_iff.1 hprefix with heq | hprefix
    · simp at heq
    · exact h.ordered before v hprefix

/-- Counting down an edge spawns the task of its target if the edge was the last one; then all
nodes that lead there have stored their outputs. -/
lemma release (h : Tally p history m.shared) (hcontrol : Control p owed m)
    (hcontrol' : Control p owed' m') (hp : p.Linked) {next : ℕ} {rest : List ℕ}
    (hadv : Advances env token p m m' place n (.releasing (next :: rest))
      { shared := { m.shared with counters := m.shared.counters.modify next (· - 1) }
        next := some (.releasing rest)
        spawned := if m.shared.counters[next]? = some 1 then some next else none }) :
    Tally p (history ++ Deed.countDown next ::
      (if m.shared.counters[next]? = some 1 then some next else none).toList.map .spawn)
      m'.shared := by
  have hstanding := hcontrol.standing place n hadv.node
  rw [hadv.task] at hstanding
  obtain ⟨-, -, howed⟩ := hstanding.of_releasing
  have hsuffix : next :: rest <:+ n.successors := howed ▸ hstanding.owed_suffix
  have hnext := hp.forward hadv.node next (hsuffix.subset List.mem_cons_self)
  have hpos : 0 < p.waits owed next :=
    Plan.waits_pos (Plan.lt_size_of_getElem? hadv.node) (by simp [howed])
  have hcounter := hcontrol.counter_eq next hnext.2
  have hdeeds : Deed.countDown next ::
      (if m.shared.counters[next]? = some 1 then some next else none).toList.map .spawn =
        Deed.ofRelease next (p.waits owed next) := by
    simp only [hcounter, Option.some.injEq, Deed.ofRelease]
  have hview : m'.shared.view = m.shared.view := by
    rw [hadv.shared_eq]
    rfl
  rw [hdeeds]
  refine ⟨?_, ?_, ?_, ?_⟩
  · intro d hd
    rcases List.mem_append.1 hd with hd | hd
    · exact h.place_lt d hd
    · rw [Deed.place_of_mem_ofRelease hd]
      exact hnext.2
  · intro v hv
    obtain ⟨c, hc, hedges, hspawn⟩ := h.counted v hv
    rw [hadv.shared_eq, List.count_append, List.count_append, Deed.count_countDown_ofRelease,
      Deed.count_spawn_ofRelease, hspawn]
    by_cases heq : next = v
    · subst heq
      obtain rfl : c = p.waits owed next := Option.some.inj (hc.symm.trans hcounter)
      refine ⟨p.waits owed next - 1, by simp [hc], ?_, ?_⟩
      · rw [if_pos rfl]
        omega
      · rw [if_neg (by omega)]
        simp only [true_and, Nat.zero_add]
        exact if_congr (by omega) rfl rfl
    · exact ⟨c, by simp [heq, hc], by simpa [heq] using hedges, by simp [heq]⟩
  · intro v hv
    rw [hview, ← h.stored v hv, List.count_append, Deed.count_store_ofRelease, Nat.add_zero]
  · intro before v hprefix
    rcases Deed.of_prefix_ofRelease hprefix with hbefore | ⟨rfl, rfl, hone⟩
    · exact h.ordered before v hbefore
    · -- the new task is at work, and so it finds all that it waited for
      intro j nj hj hmem
      have hphase : m'.phase? v = some .waiting :=
        hadv.phase?_spawned v (by rw [hcounter, hone, if_pos rfl])
      obtain ⟨outputs, houtputs⟩ := hcontrol'.stored hphase hj hmem hnext.2
      have hstored := h.stored j (Plan.lt_size_of_getElem? hj)
      rw [← hview, houtputs] at hstored
      exact List.mem_append_left _ (List.count_pos_iff.1 (by simp [hstored]))

/-- A step keeps the tally. -/
lemma advance (h : Tally p history m.shared) (hcontrol : Control p owed m) (hp : p.Linked)
    (hadv : Advances env token p m m' place n phase a) :
    Tally p (history ++ Deed.ofAdvance place phase a) m'.shared := by
  obtain ⟨owed', hcontrol'⟩ := hcontrol.advance hp hadv
  have hmove := hadv.move
  cases hmove with
  | skip _ =>
    rw [hadv.shared_eq]
    exact h.of_eq rfl rfl rfl
  | work hphase _ hslots hcounters =>
    rw [hadv.shared_eq]
    refine h.of_eq ?_ hslots hcounters
    rw [Deed.ofAdvance, Deed.ofPhase_of_not_isSettled hphase]
    rfl
  | record fault =>
    rw [hadv.shared_eq]
    exact h.of_eq rfl rfl rfl
  | store outputs =>
    rw [hadv.shared_eq]
    exact h.store hcontrol hadv.node hadv.task
  | finish =>
    rw [hadv.shared_eq]
    exact h.of_eq rfl rfl rfl
  | release next rest => exact h.release hcontrol hcontrol' hp hadv

/-! ### What it says about a history -/

lemma count_spawn_le (h : Tally p history s) (v : ℕ) : history.count (.spawn v) ≤ 1 := by
  by_cases hv : v < p.size
  · obtain ⟨c, -, -, hspawn⟩ := h.counted v hv
    rw [hspawn]
    split <;> omega
  · rw [List.count_eq_zero.2 fun hmem => hv (h.place_lt (.spawn v) hmem)]
    omega

lemma count_store_le (h : Tally p history s) (v : ℕ) : history.count (.store v) ≤ 1 := by
  by_cases hv : v < p.size
  · rw [h.stored v hv]
    split <;> omega
  · rw [List.count_eq_zero.2 fun hmem => hv (h.place_lt (.store v) hmem)]
    omega

/-! ### The start -/

lemma start (hp : p.Linked) (stopped : Bool) :
    Tally p ((Machine.start p stopped).tasks.map fun t => .spawn t.place)
      (Machine.start p stopped).shared := by
  have hcontrol := Control.start hp stopped
  have hmem : ∀ {v nv}, p.nodes[v]? = some nv →
      (v ∈ (Machine.start p stopped).tasks.map Task.place ↔ nv.dependencyCount = 0) := by
    intro v nv hv
    have hphase := Control.phase?_start stopped hv
    rw [← not_iff_not]
    constructor
    · intro hno hzero
      rw [if_pos hzero] at hphase
      exact hno (List.mem_map_of_mem (mem_tasks_of_phase? hphase))
    · intro hzero hyes
      obtain ⟨t, ht, rfl⟩ := List.mem_map.1 hyes
      rw [if_neg hzero] at hphase
      exact phase?_eq_none_iff.1 hphase t ht rfl
  refine ⟨?_, ?_, ?_, ?_⟩
  · intro d hd
    obtain ⟨t, ht, rfl⟩ := List.mem_map.1 hd
    exact hcontrol.place_lt t ht
  · intro v hv
    obtain ⟨nv, hnv⟩ := Plan.exists_node hv
    refine ⟨nv.dependencyCount, ?_, ?_, ?_⟩
    · simp [Machine.start, hnv]
    · rw [List.count_eq_zero.2 (by simp), Nat.add_zero, hp.counted hnv]
    · have hspawn : Function.Injective Deed.spawn := fun _ _ heq => Deed.spawn.inj heq
      have hmap : ((Machine.start p stopped).tasks.map fun t => Deed.spawn t.place) =
          ((Machine.start p stopped).tasks.map Task.place).map .spawn := by simp
      rw [hmap, List.count_map_of_injective _ _ hspawn,
        (Control.places_start_nodup p stopped).count]
      simp only [hmem hnv]
  · intro v hv
    rw [Control.view_start, List.count_eq_zero.2 (by simp)]
    rfl
  · intro before v hprefix j nj hj hv
    -- a task of the start waits for nothing, so that no node leads to it
    exfalso
    have hspawn : Deed.spawn v ∈ (Machine.start p stopped).tasks.map fun t => .spawn t.place :=
      hprefix.subset (by simp)
    obtain ⟨t, ht, heq⟩ := List.mem_map.1 hspawn
    obtain rfl := Deed.spawn.inj heq
    obtain ⟨nv, hnv⟩ := Plan.exists_node (hcontrol.place_lt t ht)
    have hzero := (hmem hnv).1 (List.mem_map_of_mem ht)
    rw [hp.counted hnv, Plan.edgesInto, List.count_eq_zero] at hzero
    exact hzero (List.mem_flatMap.2 ⟨nj, List.mem_of_getElem? hj, hv⟩)

end Tally

/-! ## Runs -/

namespace Machine

variable {env : Environment} {token : Option CancelToken} {p : Plan} {m m' : Machine}
  {history : List Deed} {stopped : Bool}

/-- In every state that a run reaches, the invariant holds, and the tally agrees with it. -/
lemma Reaches.tally (hp : p.Linked) (h : Reaches token p stopped history m) :
    (∃ owed, Control p owed m) ∧ Tally p history m.shared := by
  induction h with
  | start => exact ⟨⟨_, Control.start hp stopped⟩, Tally.start hp stopped⟩
  | @step history m _ env b i hi ih =>
    obtain ⟨⟨owed, hcontrol⟩, htally⟩ := ih
    have hcontrol' := hcontrol.answering i b
    obtain ⟨⟨place, phase⟩, ht⟩ : ∃ t, (m.answering i b).tasks[i]? = some t :=
      ⟨_, List.getElem?_eq_getElem (by simpa [answering] using hi)⟩
    obtain ⟨n, hadv⟩ : ∃ n, Advances env token p (m.answering i b)
        ((m.answering i b).step env token p i) place n phase
        (p.advance env token (m.answering i b).shared place n phase) :=
      hcontrol'.advances_step ht
    have htally' : Tally p history (m.answering i b).shared := htally
    have hdeeds : (m.answering i b).deeds env token p i = Deed.ofAdvance place phase
        (p.advance env token (m.answering i b).shared place n phase) := by
      simp only [deeds, ht, hadv.node]
    rw [hdeeds]
    exact ⟨hcontrol'.advance hp hadv, htally'.advance hcontrol' hp hadv⟩

lemma Reaches.stopped_eq (h : Reaches none p stopped history m) : m.shared.stopped = stopped := by
  induction h with
  | start => rfl
  | @step history m _ env b i hi ih =>
    rw [stopped_step ⟨i, by simpa [answering] using hi, rfl⟩]
    exact ih

/-- Every interleaving is one of the runs. -/
lemma exists_reaches (h : Relation.ReflTransGen (Step env token p) (start p stopped) m) :
    ∃ history, Reaches token p stopped history m := by
  induction h with
  | refl => exact ⟨_, .start⟩
  | @tail m m' _ hstep ih =>
    obtain ⟨history, hreaches⟩ := ih
    obtain ⟨i, hi, rfl⟩ := hstep
    obtain ⟨b, hb⟩ := exists_answering_eq m i
    have hstep := hreaches.step env b hi
    rw [hb] at hstep
    exact ⟨_, hstep⟩

end Machine

/-- **The check of a loaded plan is all that a parallel run needs**: whatever its calls come to,
every run ends; no step leaves the plan or counts a counter down that is zero; no task is
spawned twice, and none before all nodes that lead to its node have stored their outputs; no
outputs are stored twice; and a run that ends uncancelled has done both for every node. -/
theorem Plan.runs_of_load (bytes : List UInt8) (p : Plan) (h : load bytes = .ok p)
    (token : Option CancelToken) (stopped : Bool) :
    (WellFounded fun m' m => Machine.FreeStep token p m m') ∧
      ∀ (history : List Deed) (m : Machine), Machine.Reaches token p stopped history m →
        (∀ d ∈ history, d.place < p.size) ∧
          (∀ v < p.size, ∃ c, m.shared.counters[v]? = some c ∧
            c + history.count (.countDown v) = p.edgesInto v) ∧
          (∀ v, history.count (.spawn v) ≤ 1 ∧ history.count (.store v) ≤ 1) ∧
          (∀ (before : List Deed) (v : ℕ), before ++ [.spawn v] <+: history →
            ∀ (j : ℕ) (n : PlannedNode), p.nodes[j]? = some n → v ∈ n.successors →
              .store j ∈ before) ∧
          (token = none → stopped = false → m.shared.cancelled = false) ∧
          ((∀ m', ¬ Machine.FreeStep token p m m') → m.shared.cancelled = false →
            m.tasks = [] ∧ ∀ v < p.size, history.count (.spawn v) = 1 ∧
              history.count (.store v) = 1 ∧ (m.shared.view v).isSome = true) := by
  have hp : p.Linked := linked_of_load h
  refine ⟨Machine.wellFounded_freeStep, fun history m hm => ?_⟩
  obtain ⟨⟨owed, hcontrol⟩, htally⟩ := hm.tally hp
  refine ⟨htally.place_lt, ?_, ?_, htally.ordered, ?_, ?_⟩
  · intro v hv
    obtain ⟨c, hc, hedges, -⟩ := htally.counted v hv
    exact ⟨c, hc, hedges⟩
  · exact fun v => ⟨htally.count_spawn_le v, htally.count_store_le v⟩
  · rintro rfl rfl
    rw [← Bool.not_eq_true]
    intro hcancelled
    have hstopped := hcontrol.stopped_of_cancelled hcancelled
    rw [hm.stopped_eq] at hstopped
    simp at hstopped
  · intro hmax hcancelled
    have htasks : m.tasks = [] := Machine.tasks_eq_nil_of_free hmax
    refine ⟨htasks, fun v hv => ?_⟩
    obtain ⟨n, hn⟩ := exists_node hv
    obtain ⟨outputs, hview⟩ := hcontrol.all_stored hp htasks hcancelled hv
    have hstanding := hcontrol.standing v n hn
    rw [hview] at hstanding
    obtain ⟨c, hc, -, hspawn⟩ := htally.counted v hv
    obtain rfl : c = p.waits owed v := Option.some.inj (hc.symm.trans (hcontrol.counter_eq v hv))
    rw [hspawn, htally.stored v hv, hview, hstanding.counter_of_stored]
    exact ⟨rfl, rfl, rfl⟩

theorem Plan.runs_of_load_varied :
    ∃ bytes, load bytes = .ok varied ∧
      ∃ (history : List Deed) (m : Machine), Machine.Reaches none varied false history m ∧
        m.tasks = [] ∧
          ∀ v < varied.size, history.count (.spawn v) = 1 ∧ history.count (.store v) = 1 := by
  obtain ⟨bytes, hbytes⟩ := exists_load_varied
  -- no function is registered, and every compilation panics
  let env : Environment := ⟨.empty, fun _ _ => .panic none, .strict⟩
  let m := (Machine.start varied false).drain env none varied 100
  have hm := Machine.drain_steps env none varied 100 (.start varied false)
  have hdone : m.tasks = [] := Machine.drain_done (by rw [Machine.work_start]; decide)
  obtain ⟨history, hreaches⟩ := Machine.exists_reaches hm
  have hmax : ∀ m', ¬ Machine.FreeStep none varied m m' := by
    rintro m' ⟨env, b, i, hi, -⟩
    simp [hdone] at hi
  obtain ⟨-, hruns⟩ := runs_of_load bytes varied hbytes none false
  obtain ⟨-, -, -, -, hquiet, hall⟩ := hruns history m hreaches
  obtain ⟨-, hcounts⟩ := hall hmax (hquiet rfl rfl)
  exact ⟨bytes, hbytes, history, m, hreaches, hdone,
    fun v hv => ⟨(hcounts v hv).1, (hcounts v hv).2.1⟩⟩

end Dataflow
