import Dataflow.Proofs.Plan.Saving
import Dataflow.Proofs.Run.Interleaving

/-!
# Reports of plans that were loaded

The check of a loaded plan is about its links alone.  If its references are backed by the links,
all interleavings report what the sequential run reports (`Plan.report_of_load`).  The check lets
other plans pass, in which a node reads the outputs of an earlier one that it does not wait for;
there a parallel run may come too early (`Plan.load_hasty`).
-/

namespace Dataflow.Plan

/-- **Every interleaving of a loaded plan reports what the sequential run reports**, if each
reference goes to a node that has the referring node among its successors, and the token is not
cancelled on the way. -/
theorem report_of_load (bytes : List UInt8) (p : Plan) (h : load bytes = .ok p) (hb : p.Backed)
    (env : Environment) (token : Option CancelToken) :
    (WellFounded fun m' m => Machine.Step env token p m m') ∧
      ∀ m, Relation.ReflTransGen (Machine.Step env token p) (.start p false) m →
        (token = none → m.shared.stopped = false) ∧
          ((∀ m', ¬ Machine.Step env token p m m') → m.shared.stopped = false →
            m.tasks = [] ∧ m.report p = (p.runSequential env token false).result ∧
              (m.report p).cancelled = false) := by
  have hp := linked_of_load h
  refine ⟨Machine.wellFounded_step, fun m hm => ⟨?_, fun hmax hstopped => ?_⟩⟩
  · rintro rfl
    exact Machine.not_stopped hm
  · have htasks := Machine.tasks_eq_nil hmax
    obtain ⟨owed, hcontrol, hagreement⟩ := Machine.reachable hp hb hm
    refine ⟨htasks, ?_, ?_⟩
    · exact Machine.report_eq_runSequential hp hb hcontrol hagreement htasks hstopped
    · rw [Machine.report_eq hp hb hcontrol hagreement htasks hstopped]
      rfl

lemma varied_backed : varied.Backed := by
  intro i n hn r hr
  have hrefs : ∀ k : Fin varied.size, ∀ r ∈ (varied.nodes.get k).references,
      ∃ j : Fin varied.size, varied.lastPosition? r.1 = some j.val ∧
        k.val ∈ (varied.nodes.get j).successors := by decide
  obtain ⟨hi, rfl⟩ := List.getElem?_eq_some_iff.1 hn
  obtain ⟨j, hlast, hmem⟩ := hrefs ⟨i, hi⟩ r hr
  exact ⟨j, _, hlast, List.getElem?_eq_getElem j.isLt, hmem⟩

theorem report_of_load_varied :
    ∃ bytes, load bytes = .ok varied ∧
      ∃ m, Relation.ReflTransGen (Machine.Step Graph.joiningEnvironment none varied)
          (.start varied false) m ∧
        m.tasks = [] ∧
          m.report varied = (varied.runSequential Graph.joiningEnvironment none false).result := by
  obtain ⟨bytes, hbytes⟩ := exists_load_varied
  let m := (Machine.start varied false).drain Graph.joiningEnvironment none varied 100
  have hm := Machine.drain_steps Graph.joiningEnvironment none varied 100 (.start varied false)
  have hdone : m.tasks = [] := Machine.drain_done (by rw [Machine.work_start]; decide)
  have hmax : ∀ m', ¬ Machine.Step Graph.joiningEnvironment none varied m m' := by
    rintro m' ⟨i, hi, -⟩
    simp [hdone] at hi
  obtain ⟨-, hreports⟩ := report_of_load bytes varied hbytes varied_backed
    Graph.joiningEnvironment none
  obtain ⟨hquiet, hreport⟩ := hreports m hm
  obtain ⟨-, heq, -⟩ := hreport hmax (hquiet rfl)
  exact ⟨bytes, hbytes, m, hm, hdone, heq⟩

/-- A plan whose last node reads an output of the second one, without waiting for it. -/
def hasty : Plan where
  nodes := [
    ⟨"r", 0, "r", ["x"], [], .static "r", [1], 0⟩,
    ⟨"a", 1, "a", ["x"], [], .static "a", [], 1⟩,
    ⟨"b", 2, "b", ["y"], [("v", .connected "a" "x")], .static "b", [], 0⟩]

/-- The bytes of `hasty`. -/
def hastyBytes : List UInt8 := [
  3, 1, 114, 0, 1, 114, 1, 1, 120, 0, 0, 1, 114, 1, 1, 0, 1, 97, 1, 1, 97, 1, 1, 120, 0, 0, 1, 97,
  0, 1, 1, 98, 2, 1, 98, 1, 1, 121, 1, 1, 118, 0, 1, 97, 1, 120, 0, 1, 98, 0, 0]

/-- The functions of `hasty`. -/
def hastyEnvironment : Environment where
  registry := Dict.ofList [("r", .const (.int 0)), ("a", .const (.int 5)), ("b", .collect)]
  compiler := fun _ _ => .panic none
  policy := .strict

/-- The last node of `hasty` fails when it is taken first, and not in the sequential run. -/
theorem load_hasty :
    load hastyBytes = .ok hasty ∧
      ∃ m, Relation.ReflTransGen (Machine.Step hastyEnvironment none hasty) (.start hasty false) m ∧
        m.tasks = [] ∧ m.shared.stopped = false ∧
          (m.report hasty).failures = [⟨"b", "b", .missingInput "v"⟩] ∧
            (hasty.runSequential hastyEnvironment none false).result.failures = [] := by
  have hload : load hastyBytes = .ok hasty := by
    obtain ⟨bytes, hsave, hload⟩ := exists_save (p := hasty) (by decide +kernel) (by decide)
    have hbytes : hasty.save = .ok hastyBytes := by decide +kernel
    obtain rfl : hastyBytes = bytes := Except.ok.inj (hbytes.symm.trans hsave)
    have hsound : hasty.linkFault? = none := by decide
    rw [← List.append_nil hastyBytes, hload, hsound]
  let m := (Machine.start hasty false).drain hastyEnvironment none hasty 100
  have hm := Machine.drain_steps hastyEnvironment none hasty 100 (.start hasty false)
  have hdone : m.tasks = [] := Machine.drain_done (by rw [Machine.work_start]; decide)
  have hfailures : m.shared.failures = [(2, ⟨"b", "b", .missingInput "v"⟩)] := by decide +kernel
  refine ⟨hload, m, hm, hdone, Machine.not_stopped hm, ?_, rfl⟩
  rw [Machine.report, hfailures, List.mergeSort_singleton]
  rfl

end Dataflow.Plan
