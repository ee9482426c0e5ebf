import Dataflow.Proofs.Run.Partial

/-!
# Sequential runs that are interrupted

The token that a run heeds may be cancelled by a node, or from outside while some node is at
work.  Either way a sequential run is the run of the first nodes of its plan, up to the one that
finds the token cancelled, and nothing is done after that (`Plan.exists_ranFirst`).  Its report
is the part of the whole report that belongs to these nodes (`Plan.RanFirst.result_eq_partial`).
-/

namespace Dataflow

/-- Of entries that carry their places, those in front of a place. -/
lemma filter_zipIdx_lt {α β : Type} (f : α → Option β) (l : List α) (start k : ℕ) :
    (((l.zipIdx start).filterMap fun a => (f a.1).map fun b => (a.2, b)).filter
      fun b => decide (b.1 < start + k)).map Prod.snd = (l.take k).filterMap f := by
  induction l generalizing start k with
  | nil => simp
  | cons a l ih =>
    cases k with
    | zero =>
      rw [List.take_zero, List.filterMap_nil, List.map_eq_nil_iff, List.filter_eq_nil_iff]
      rintro ⟨i, b⟩ hmem
      obtain ⟨⟨c, j⟩, hj, heq⟩ := List.mem_filterMap.1 hmem
      obtain ⟨b', -, hb'⟩ := Option.map_eq_some_iff.1 heq
      obtain rfl : j = i := (Prod.mk.inj hb').1
      have hle := (List.mem_zipIdx hj).1
      simpa using hle
    | succ k =>
      have hrest := ih (start + 1) k
      rw [show start + 1 + k = start + (k + 1) by omega] at hrest
      rw [List.zipIdx_cons, List.take_succ_cons]
      cases ha : f a with
      | none =>
        rw [List.filterMap_cons_none (by simp [ha]), List.filterMap_cons_none ha]
        exact hrest
      | some b =>
        rw [List.filterMap_cons_some (b := (start, b)) (by simp [ha]),
          List.filterMap_cons_some ha, List.filter_cons_of_pos (by simp), List.map_cons, hrest]

/-! ## Interruptions -/

/-- A run whose token is cancelled from outside. -/
def Progress.cancel (s : Progress) : Progress := { s with stopped := true }

/-- A run that ends at the given node, which finds the token cancelled, or behind the last. -/
def Progress.endAt (s : Progress) : Option PlannedNode → Progress × Bool
  | none => (s, false)
  | some n => ({ s with events := s.events ++ [.skipped n.id] }, true)

namespace Plan

/-- How far a run has come before the node at a place. -/
def progress (env : Environment) (token : Option CancelToken) (stopped : Bool) (p : Plan)
    (place : ℕ) : Progress :=
  (p.runFrom env token (.start stopped) (p.nodes.take place)).1

/-- Runs the nodes of a plan while the token is cancelled from outside before the node at a
place looks at it. -/
def interrupted (env : Environment) (token : Option CancelToken) (stopped : Bool) (p : Plan)
    (place : ℕ) : Progress × Bool :=
  let first := p.runFrom env token (.start stopped) (p.nodes.take place)
  if first.2 then first else p.runFrom env token first.1.cancel (p.nodes.drop place)

/-- The report of a run that is interrupted before the node at a place looks at the token.  Behind
the last node it is too late for that. -/
def runInterrupted (env : Environment) (token : Option CancelToken) (stopped : Bool) (p : Plan)
    (place : ℕ) : Traced Report :=
  let (s, cancelled) := p.interrupted env token stopped place
  let report : Report := ⟨p.collected s.slots, s.failures, cancelled⟩
  ⟨report, s.events ++ [p.finished report]⟩

variable {env : Environment} {token : Option CancelToken} {stopped : Bool} {p : Plan}
  {place k : ℕ}

/-- An interruption that comes too late is none. -/
lemma runInterrupted_of_size_le (h : p.size ≤ place) :
    p.runInterrupted env token stopped place = p.runSequential env token stopped := by
  have htake : p.nodes.take place = p.nodes := List.take_of_length_le h
  have hdrop : p.nodes.drop place = [] := List.drop_eq_nil_of_le h
  rw [runInterrupted, interrupted, runSequential, htake, hdrop]
  generalize p.runFrom env token (.start stopped) p.nodes = run
  obtain ⟨s, cancelled⟩ := run
  cases cancelled <;> rfl

/-! ## First nodes -/

/-- A run is that of the first nodes, up to one that finds the token cancelled. -/
lemma exists_runFrom_eq (env : Environment) (token : Option CancelToken) (p : Plan) (s : Progress)
    (nodes : List PlannedNode) :
    ∃ k ≤ nodes.length, (p.runFrom env token s (nodes.take k)).2 = false ∧
      (∀ j < k, (p.runFrom env token s (nodes.take j)).1.stopped = false) ∧
      p.runFrom env token s nodes = (p.runFrom env token s (nodes.take k)).1.endAt nodes[k]? := by
  induction nodes generalizing s with
  | nil => exact ⟨0, Nat.le_refl 0, rfl, by simp, rfl⟩
  | cons n nodes ih =>
    by_cases hstopped : s.stopped = true
    · refine ⟨0, Nat.zero_le _, rfl, by simp, ?_⟩
      rw [runFrom, if_pos hstopped]
      rfl
    · -- the first node runs, and the others are those of a run that starts behind it
      have hfirst : ∀ rest, p.runFrom env token s (n :: rest) = p.runFrom env token
          (s.after token n (env.realize (p.storedValue s.slots) s.cache n)) rest := by
        intro rest
        rw [runFrom, if_neg hstopped]
      obtain ⟨k, hk, hran, hunset, heq⟩ :=
        ih (s.after token n (env.realize (p.storedValue s.slots) s.cache n))
      refine ⟨k + 1, by simpa using hk, ?_, ?_, ?_⟩
      · rw [List.take_succ_cons, hfirst]
        exact hran
      · intro j hj
        cases j with
        | zero => simpa [runFrom] using hstopped
        | succ j =>
          rw [List.take_succ_cons, hfirst]
          exact hunset j (by omega)
      · rw [hfirst, List.take_succ_cons, hfirst, List.getElem?_cons_succ]
        exact heq

/-- An interrupted run is that of the first nodes of the plan, none of which came to look at the
token after the interruption. -/
lemma exists_interrupted_eq (env : Environment) (token : Option CancelToken) (stopped : Bool)
    (p : Plan) (place : ℕ) :
    ∃ k ≤ p.size, k ≤ place ∧ (p.runFrom env token (.start stopped) (p.nodes.take k)).2 = false ∧
      (∀ j < k, (p.progress env token stopped j).stopped = false) ∧
      ∃ s, (s = p.progress env token stopped k ∨ s = (p.progress env token stopped k).cancel) ∧
        p.interrupted env token stopped place = s.endAt p.nodes[k]? := by
  obtain ⟨k, hk, hran, hunset, heq⟩ :=
    exists_runFrom_eq env token p (.start stopped) (p.nodes.take place)
  rw [List.length_take, Nat.le_min] at hk
  obtain ⟨hplace, hsize⟩ := hk
  have htake : ∀ j ≤ k, (p.nodes.take place).take j = p.nodes.take j := by
    intro j hj
    rw [List.take_take, Nat.min_eq_left (by omega)]
  rw [htake k (Nat.le_refl k)] at hran heq
  refine ⟨k, hsize, hplace, hran, fun j hj => ?_, ?_⟩
  · rw [progress, ← htake j (Nat.le_of_lt hj)]
    exact hunset j hj
  · change p.runFrom env token (.start stopped) (p.nodes.take place) =
      (p.progress env token stopped k).endAt (p.nodes.take place)[k]? at heq
    rw [interrupted, heq]
    rcases Nat.lt_or_eq_of_le hplace with hlt | rfl
    · -- the run has come to its end before, by itself or at the last node of the plan
      rw [List.getElem?_take_of_lt hlt]
      cases hn : p.nodes[k]? with
      | some n => exact ⟨_, .inl rfl, by simp [Progress.endAt]⟩
      | none =>
        have hdrop : p.nodes.drop place = [] := by
          rw [List.getElem?_eq_none_iff] at hn
          exact List.drop_eq_nil_of_le (by omega)
        exact ⟨_, .inr rfl, by simp [Progress.endAt, hdrop, runFrom]⟩
    · rw [List.getElem?_take_eq_none (Nat.le_refl k)]
      refine ⟨_, .inr rfl, ?_⟩
      cases hn : p.nodes[k]? with
      | none =>
        have hdrop : p.nodes.drop k = [] :=
          List.drop_eq_nil_of_le (List.getElem?_eq_none_iff.1 hn)
        simp [Progress.endAt, hdrop, runFrom]
      | some n =>
        have hdrop : p.nodes.drop k = n :: p.nodes.drop (k + 1) := by
          obtain ⟨hk, rfl⟩ := List.getElem?_eq_some_iff.1 hn
          exact (List.getElem_cons_drop hk).symm
        simp [Progress.endAt, hdrop, runFrom, Progress.cancel]

/-! ## Reports -/

/-- A run that realized the first `k` nodes of its plan, each of which found the token as yet
unset, and did nothing besides. -/
structure RanFirst (env : Environment) (token : Option CancelToken) (stopped : Bool) (p : Plan)
    (k : ℕ) (run : Traced Report) : Prop where
  le_size : k ≤ p.size
  ran : (p.runFrom env token (.start stopped) (p.nodes.take k)).2 = false
  unset : ∀ j < k, (p.progress env token stopped j).stopped = false
  result_eq : run.result = ⟨p.collected (p.progress env token stopped k).slots,
    (p.progress env token stopped k).failures, decide (k < p.size)⟩
  events_eq : run.events = (p.progress env token stopped k).events ++
    (p.nodes[k]?.map fun n => Event.skipped n.id).toList ++ [p.finished run.result]

/-- What a run has stored and recorded when the first nodes ran. -/
lemma follows_progress (hran : (p.runFrom env token (.start stopped) (p.nodes.take k)).2 = false) :
    (p.progress env token stopped k).Follows env token stopped ((p.settled env).take k) := by
  obtain ⟨j, hj, hfollows, hcancelled, -⟩ :=
    (Progress.Follows.start env token stopped).runFrom p (p.nodes.take k)
  have hall : (p.nodes.take k).take j = p.nodes.take k := by
    refine List.take_of_length_le ?_
    by_contra hlt
    rw [hran] at hcancelled
    simpa using hcancelled.2 (by omega)
  have hsettled : p.settleFrom env [] (p.nodes.take k) = (p.settled env).take k := by
    have hprefix : p.settleFrom env [] (p.nodes.take k) <+: p.settled env := by
      conv_rhs => rw [settled, ← List.take_append_drop k p.nodes]
      rw [settleFrom_append]
      exact prefix_settleFrom _ _ _ _
    rw [List.prefix_iff_eq_take.1 hprefix, length_settleFrom, List.length_take, List.length_nil,
      Nat.zero_add, List.take_eq_take_iff, length_settled, size]
    omega
  rwa [hall, hsettled] at hfollows

/-- **An interrupted run realizes the first nodes of its plan and ends there.** -/
theorem exists_ranFirst (env : Environment) (token : Option CancelToken) (stopped : Bool)
    (p : Plan) (place : ℕ) :
    ∃ k ≤ place, p.RanFirst env token stopped k (p.runInterrupted env token stopped place) := by
  obtain ⟨k, hsize, hplace, hran, hunset, s, hs, heq⟩ :=
    exists_interrupted_eq env token stopped p place
  have hsame : s.slots = (p.progress env token stopped k).slots ∧
      s.failures = (p.progress env token stopped k).failures ∧
      s.events = (p.progress env token stopped k).events := by
    rcases hs with rfl | rfl <;> exact ⟨rfl, rfl, rfl⟩
  obtain ⟨hslots, hfailures, hevents⟩ := hsame
  refine ⟨k, hplace, hsize, hran, hunset, ?_, ?_⟩
  · rw [runInterrupted, heq]
    cases hn : p.nodes[k]? with
    | none =>
      have hge : p.size ≤ k := List.getElem?_eq_none_iff.1 hn
      simp [Progress.endAt, hslots, hfailures, hge]
    | some n =>
      have hlt : k < p.size := lt_size_of_getElem? hn
      simp only [Progress.endAt, hfailures, hlt, decide_true, ← hslots]
      rfl
  · rw [runInterrupted, heq]
    cases hn : p.nodes[k]? with
    | none => simp [Progress.endAt, hevents]
    | some n => simp [Progress.endAt, hevents]

/-- The failures of the first nodes. -/
lemma filter_placedFailures_lt (hp : p.Linked) (hb : p.Backed) (k : ℕ) :
    ((p.placedFailures env).filter fun f => decide (f.1 < k)).map Prod.snd =
      ((p.settled env).take k).filterMap (Settled.failure? env.policy) := by
  have hfilter := filter_zipIdx_lt
    (fun n => (n.settle env (p.finalValues env)).failure? env.policy) p.nodes 0 k
  rw [Nat.zero_add] at hfilter
  rw [placedFailures, hfilter, settled_eq hp hb, ← List.map_take, List.filterMap_map]
  rfl

namespace RanFirst

variable {run : Traced Report}

/-- The report of a run of the first nodes is the part of the whole report that belongs to
them. -/
lemma result_eq_partial (h : p.RanFirst env token stopped k run) (hp : p.Linked)
    (hb : p.Backed) : run.result = p.partialReport env fun q => decide (q < k) := by
  have hfollows := follows_progress h.ran
  have hslots : (p.progress env token stopped k).slots =
      p.ranSlots env fun q => decide (q < k) := by
    funext q
    rw [hfollows.slots_eq, Settled.slots, List.getElem?_take, ranSlots, finalSlots, Settled.slots]
    by_cases hq : q < k <;> simp [hq]
  have hcancelled : decide (k < p.size) = !(List.range p.size).all fun q => decide (q < k) := by
    rw [Bool.eq_iff_iff]
    simp only [decide_eq_true_eq, Bool.not_eq_true', List.all_eq_false, List.mem_range]
    constructor
    · intro hlt
      exact ⟨k, hlt, by simp⟩
    · rintro ⟨q, hq, hk⟩
      simp only [Nat.not_lt] at hk
      omega
  rw [h.result_eq, partialReport, hslots, hfollows.failures_eq, hcancelled,
    filter_placedFailures_lt hp hb]

/-- It has outputs for the first nodes. -/
lemma keys_perm (h : p.RanFirst env token stopped k run) (hids : p.order.Nodup) (hp : p.Linked)
    (hb : p.Backed) : run.result.outputs.keys.Perm (p.order.take k) := by
  have hfirst : (p.order.take k).Nodup := hids.sublist (List.take_sublist k _)
  rw [h.result_eq_partial hp hb]
  refine (List.perm_ext_iff_of_nodup (Entries.keys_nodup _) hfirst).2 fun id => ?_
  change id ∈ (p.partialReport env fun q => decide (q < k)).outputs.keys ↔ _
  rw [order, ← List.map_take, List.mem_map]
  constructor
  · intro hid
    obtain ⟨i, n, hn, rfl⟩ := exists_place (keys_collected_subset p _ hid)
    rw [mem_keys_partialReport hids hp hb hn, decide_eq_true_eq] at hid
    refine ⟨n, List.mem_of_getElem? (i := i) ?_, rfl⟩
    rw [List.getElem?_take_of_lt hid, hn]
  · rintro ⟨n, hmem, rfl⟩
    obtain ⟨i, hi⟩ := List.mem_iff_getElem?.1 hmem
    rw [List.getElem?_take, Option.ite_none_right_eq_some] at hi
    rw [mem_keys_partialReport hids hp hb hi.2, decide_eq_true_eq]
    exact hi.1

end RanFirst

end Plan

end Dataflow
