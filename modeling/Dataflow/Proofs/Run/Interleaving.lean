import Dataflow.Proofs.Plan.Planning
import Dataflow.Proofs.Run.Agreement
import Dataflow.Proofs.Run.Sequential
import Dataflow.Proofs.Run.Termination

/-!
# All interleavings report the same

In every state that an interleaving of the tasks can reach, the two invariants `Control` and
`Agreement` hold (`Machine.reachable`).  When no task is left, and the token is not cancelled,
they leave a single report: every node has stored what it comes to, and the failures, which were
recorded in any order, are sorted by the places of their nodes (`Machine.report_eq`).  This is
the report of the sequential run.
-/

namespace Dataflow

/-! ## Reports -/

/-- The failures of the nodes of a plan, with their places. -/
def Plan.placedFailures (env : Environment) (p : Plan) : List (ℕ × NodeError) :=
  p.nodes.zipIdx.filterMap fun n =>
    ((n.1.settle env (p.finalValues env)).failure? env.policy).map fun e => (n.2, e)

namespace Plan

variable {env : Environment} {p : Plan}

lemma mem_placedFailures {q : ℕ} {e : NodeError} :
    (q, e) ∈ p.placedFailures env ↔ ∃ n, p.nodes[q]? = some n ∧
      (n.settle env (p.finalValues env)).failure? env.policy = some e := by
  rw [placedFailures, List.mem_filterMap]
  constructor
  · rintro ⟨⟨n, i⟩, hmem, hmap⟩
    obtain ⟨e', he', heq⟩ := Option.map_eq_some_iff.1 hmap
    obtain ⟨rfl, rfl⟩ := Prod.mk.inj heq
    exact ⟨n, List.mk_mem_zipIdx_iff_getElem?.1 hmem, he'⟩
  · rintro ⟨n, hn, he⟩
    exact ⟨(n, q), List.mk_mem_zipIdx_iff_getElem?.2 hn, by rw [he]; rfl⟩

lemma placedFailures_pairwise (env : Environment) (p : Plan) :
    (p.placedFailures env).Pairwise fun a b => a.1 < b.1 := by
  have hplaces : p.nodes.zipIdx.Pairwise fun a b => a.2 < b.2 := by
    have hrange : (p.nodes.zipIdx.map Prod.snd).Pairwise (· < ·) := by
      rw [List.zipIdx_map_snd]
      exact List.pairwise_lt_range' 1
    exact List.pairwise_map.1 hrange
  refine List.pairwise_filterMap.2 (hplaces.imp fun {a b} hab x hx y hy => ?_)
  obtain ⟨e, -, rfl⟩ := Option.map_eq_some_iff.1 hx
  obtain ⟨e', -, rfl⟩ := Option.map_eq_some_iff.1 hy
  exact hab

lemma map_snd_placedFailures (hp : p.Linked) (hb : p.Backed) :
    (p.placedFailures env).map Prod.snd =
      (p.settled env).filterMap (Settled.failure? env.policy) := by
  rw [settled_eq hp hb, placedFailures, List.map_filterMap, List.filterMap_map]
  conv_rhs => rw [← List.zipIdx_map_fst 0 p.nodes, List.filterMap_map]
  refine List.filterMap_congr fun n _ => ?_
  simp [Function.comp_def]

end Plan

namespace Machine

variable {env : Environment} {token : Option CancelToken} {p : Plan} {m m' : Machine}
  {owed : ℕ → List ℕ} {stopped : Bool}

/-- The invariants hold in every state that a run can reach. -/
lemma reachable (hp : p.Linked) (hb : p.Backed)
    (h : Relation.ReflTransGen (Step env token p) (start p stopped) m) :
    ∃ owed, Control p owed m ∧ Agreement env token p m := by
  induction h with
  | refl => exact ⟨_, Control.start hp stopped, Agreement.start env token p stopped⟩
  | tail _ hstep ih =>
    obtain ⟨owed, hcontrol, hagreement⟩ := ih
    obtain ⟨place, n, phase, a, hadv⟩ := hcontrol.exists_advances hstep
    obtain ⟨owed', hcontrol'⟩ := hcontrol.advance hp hadv
    exact ⟨owed', hcontrol', hagreement.advance hadv hcontrol hp hb⟩

lemma tasks_eq_nil (h : ∀ m', ¬ Step env token p m m') : m.tasks = [] := by
  by_contra hne
  exact h _ ⟨0, List.length_pos_of_ne_nil hne, rfl⟩

section Done

variable (hp : p.Linked) (hb : p.Backed) (hcontrol : Control p owed m)
  (hagreement : Agreement env token p m) (htasks : m.tasks = [])
  (hstopped : m.shared.stopped = false)

include hp hcontrol htasks hstopped

lemma exists_view {q : ℕ} (hq : q < p.size) : ∃ outputs, m.shared.view q = some outputs := by
  refine hcontrol.all_stored hp htasks ?_ hq
  rw [← Bool.not_eq_true]
  intro hcancelled
  simp [hcontrol.stopped_of_cancelled hcancelled] at hstopped

include hagreement

/-- All failures are recorded. -/
lemma failures_perm : m.shared.failures.Perm (p.placedFailures env) := by
  have hnodup : (p.placedFailures env).Nodup :=
    (Plan.placedFailures_pairwise env p).imp fun hab heq => by simp [heq] at hab
  rw [List.perm_ext_iff_of_nodup hagreement.failures_nodup hnodup]
  rintro ⟨q, e⟩
  rw [Plan.mem_placedFailures]
  constructor
  · intro hmem
    exact hagreement.failures_sound q e hmem
  · -- a node that has stored its outputs has recorded its failure
    rintro ⟨n, hn, he⟩
    obtain ⟨outputs, hview⟩ :=
      exists_view hp hcontrol htasks hstopped (Plan.lt_size_of_getElem? hn)
    exact (hagreement.stored q n outputs hn hview).2.2 e he

include hb

/-- All that is stored is final. -/
lemma view_eq_finalSlots : m.shared.view = p.finalSlots env := by
  funext q
  by_cases hq : q < p.size
  · obtain ⟨n, hn⟩ := Plan.exists_node hq
    obtain ⟨outputs, hview⟩ := exists_view hp hcontrol htasks hstopped hq
    rw [hview, Plan.finalSlots_eq env hp hb hn, (hagreement.stored q n outputs hn hview).1]
  · have hslots : m.shared.slots[q]? = none := by
      rw [List.getElem?_eq_none_iff, hcontrol.length_slots]
      omega
    have hsettled : (p.settled env)[q]? = none := by
      rw [List.getElem?_eq_none_iff, Plan.length_settled]
      omega
    simp [Shared.view, Plan.finalSlots, Settled.slots, hslots, hsettled]

/-- The report of a run that came to its end uncancelled. -/
lemma report_eq : m.report p = p.settledReport env := by
  have hcancelled : m.shared.cancelled = false := by
    rw [← Bool.not_eq_true]
    intro hcancelled
    simp [hcontrol.stopped_of_cancelled hcancelled] at hstopped
  have hfailures := mergeSort_eq_of_perm
    (failures_perm hp hcontrol hagreement htasks hstopped) (Plan.placedFailures_pairwise env p)
  rw [report, Plan.settledReport, hcancelled, hfailures, Plan.map_snd_placedFailures hp hb,
    view_eq_finalSlots hp hb hcontrol hagreement htasks hstopped]

/-- No node has cancelled the token. -/
lemma settled_not_stops : ∀ d ∈ p.settled env, d.stops token = false := by
  intro d hd
  rw [Plan.settled_eq hp hb] at hd
  obtain ⟨n, hn, rfl⟩ := List.mem_map.1 hd
  obtain ⟨q, hq⟩ := List.mem_iff_getElem?.1 hn
  obtain ⟨outputs, hview⟩ :=
    exists_view hp hcontrol htasks hstopped (Plan.lt_size_of_getElem? hq)
  exact (hagreement.stored q n outputs hq hview).2.1 hstopped

/-- The sequential run gives the same report. -/
lemma report_eq_runSequential : m.report p = (p.runSequential env token false).result := by
  have hquiet := settled_not_stops hp hb hcontrol hagreement htasks hstopped
  rw [report_eq hp hb hcontrol hagreement htasks hstopped]
  exact (Plan.runSequential_eq (Plan.runSequential_not_cancelled hquiet)).1.symm

end Done

/-! ## Tokens -/

/-- A step of a run that heeds no token does not cancel it. -/
lemma stopped_advance (env : Environment) (p : Plan) (s : Shared) (place : ℕ) (n : PlannedNode)
    (phase : Phase) : (p.advance env none s place n phase).shared.stopped = s.stopped := by
  cases phase with
  | waiting =>
    rw [Plan.advance]
    split <;> rfl
  | reading args rest =>
    cases rest with
    | nil => rfl
    | cons b rest => rw [Plan.advance, Advance.check_shared]
  | resolving args => rw [Plan.advance, Advance.check_shared]
  | seeking args source =>
    rw [Plan.advance]
    split <;> rfl
  | compiling args source =>
    rw [Plan.advance, Advance.check_shared]
    rfl
  | keeping args source b => rfl
  | calling args b =>
    rw [Plan.advance, Advance.check_shared]
    simp [Event.stops_none]
  | failing fault => rfl
  | storing outputs => rfl
  | releasing rest => cases rest <;> rfl

lemma stopped_step (h : Step env none p m m') : m'.shared.stopped = m.shared.stopped := by
  obtain ⟨i, -, rfl⟩ := h
  rw [step]
  split
  · rfl
  · split
    · rfl
    · exact stopped_advance ..

/-- A run that heeds no token is never cancelled. -/
lemma not_stopped (h : Relation.ReflTransGen (Step env none p) (start p false) m) :
    m.shared.stopped = false := by
  induction h with
  | refl => rfl
  | tail _ hstep ih => rw [stopped_step hstep, ih]

end Machine

/-! ## The report of every interleaving -/

/-- A single worker that heeds no token reports what the sequential run reports. -/
theorem Plan.runParallel_eq {env : Environment} {p : Plan} (hp : p.Linked) (hb : p.Backed) :
    (p.runParallel env none false).result = (p.runSequential env none false).result := by
  have hm := Machine.drain_steps env none p
    ((p.nodes.map PlannedNode.steps).foldl (· + ·) 0) (.start p false)
  obtain ⟨owed, hcontrol, hagreement⟩ := Machine.reachable hp hb hm
  exact Machine.report_eq_runSequential hp hb hcontrol hagreement
    (Machine.drain_done (Machine.work_start p false).le) (Machine.not_stopped hm)

/-- **Every interleaving comes to an end with the report of the sequential run**, if the token
is not cancelled on the way, and it is not cancelled if none is heeded. -/
theorem Graph.interleaving_report (g : Graph) (p : Plan) (h : g.plan = .ok p) (env : Environment)
    (token : Option CancelToken) :
    (WellFounded fun m' m => Machine.Step env token p m m') ∧
      ∀ m, Relation.ReflTransGen (Machine.Step env token p) (.start p false) m →
        (token = none → m.shared.stopped = false) ∧
          ((∀ m', ¬ Machine.Step env token p m m') → m.shared.stopped = false →
            m.tasks = [] ∧ m.report p = (p.runSequential env token false).result ∧
              (m.report p).cancelled = false) := by
  obtain ⟨order, hby⟩ := exists_plannedBy h
  refine ⟨Machine.wellFounded_step, fun m hm => ⟨?_, fun hmax hstopped => ?_⟩⟩
  · rintro rfl
    exact Machine.not_stopped hm
  · have htasks := Machine.tasks_eq_nil hmax
    obtain ⟨owed, hcontrol, hagreement⟩ := Machine.reachable hby.linked hby.backed hm
    refine ⟨htasks, ?_, ?_⟩
    · exact Machine.report_eq_runSequential hby.linked hby.backed hcontrol hagreement htasks
        hstopped
    · rw [Machine.report_eq hby.linked hby.backed hcontrol hagreement htasks hstopped]
      rfl

/-- An environment for `joining`, in which the last node fails. -/
def Graph.joiningEnvironment : Environment where
  registry := Dict.ofList [("code", .const (.text "names")), ("log", .fail (.custom "full")),
    ("one", .const (.int 1))]
  compiler := fun _ _ => .value .names
  policy := .strict

theorem Graph.interleaving_report_joining :
    joining.plan = .ok joiningPlan ∧
      ∃ m, Relation.ReflTransGen (Machine.Step joiningEnvironment none joiningPlan)
          (.start joiningPlan false) m ∧
        m.tasks = [] ∧
        (m.report joiningPlan).failures = [⟨"log", "log", .failed (.custom "full")⟩] := by
  have hplan : joining.plan = .ok joiningPlan := rfl
  let m := (Machine.start joiningPlan false).drain joiningEnvironment none joiningPlan 100
  have hm := Machine.drain_steps joiningEnvironment none joiningPlan 100 (.start joiningPlan false)
  have hdone : m.tasks = [] := Machine.drain_done (by rw [Machine.work_start]; decide)
  have hmax : ∀ m', ¬ Machine.Step joiningEnvironment none joiningPlan m m' := by
    rintro m' ⟨i, hi, -⟩
    simp [hdone] at hi
  obtain ⟨-, hreports⟩ := interleaving_report joining joiningPlan hplan joiningEnvironment none
  obtain ⟨hquiet, hreport⟩ := hreports m hm
  obtain ⟨-, heq, -⟩ := hreport hmax (hquiet rfl)
  refine ⟨hplan, m, hm, hdone, ?_⟩
  rw [heq]
  rfl

end Dataflow
