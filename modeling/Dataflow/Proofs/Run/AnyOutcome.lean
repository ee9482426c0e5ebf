import Dataflow.Proofs.Run.Interleaving

/-!
# Parallel runs whose calls come to anything

A behavior or a compiler may keep a state of its own, so that it answers differently each time
it is called.  `Machine.FreeStep` allows for that: in each step the environment may be another
one, and the function that a task calls may be any.  The tasks and the counters do not depend on
it (`Control.answering`), nor does the work that is left (`Machine.work_freeStep_lt`).
-/

namespace Dataflow

/-- The phase with another function in the call that comes next. -/
def Phase.answering (b : Behavior) : Phase → Phase
  | calling args _ => calling args b
  | phase => phase

lemma Phase.answering_cases (b : Behavior) (phase : Phase) :
    phase.answering b = phase ∨
      ∃ args b', phase = .calling args b' ∧ phase.answering b = .calling args b := by
  cases phase with
  | calling args b' => exact .inr ⟨args, b', rfl, rfl⟩
  | _ => exact .inl rfl

namespace Machine

/-- The run in which the task at an index, if it makes its call next, calls another function. -/
def answering (m : Machine) (index : ℕ) (b : Behavior) : Machine :=
  { m with tasks := m.tasks.modify index fun t => { t with phase := t.phase.answering b } }

lemma map_modify_of_eq {α β : Type} {f : α → α} {g : α → β} (h : ∀ a, g (f a) = g a) (l : List α)
    (i : ℕ) : (l.modify i f).map g = l.map g := by
  refine List.ext_getElem? fun j => ?_
  rw [List.getElem?_map, List.getElem?_modify, List.getElem?_map]
  split
  · cases l[j]? <;> simp [h]
  · simp

lemma places_answering (m : Machine) (i : ℕ) (b : Behavior) :
    (m.answering i b).tasks.map Task.place = m.tasks.map Task.place := by
  have hplace : ∀ t : Task, Task.place { t with phase := t.phase.answering b } = t.place :=
    fun _ => rfl
  exact map_modify_of_eq hplace _ _

lemma work_answering (p : Plan) (m : Machine) (i : ℕ) (b : Behavior) :
    (m.answering i b).work p = m.work p := by
  have hcost : ∀ t : Task, Task.cost p { t with phase := t.phase.answering b } = t.cost p := by
    rintro ⟨place, phase⟩
    rcases phase.answering_cases b with heq | ⟨args, b', rfl, heq⟩
    · rw [heq]
    · rw [heq]
      rfl
  rw [work, work, answering, map_modify_of_eq hcost]

/-- The function that is called next does not matter for the tasks that there are. -/
lemma phase?_answering (m : Machine) (i : ℕ) (b : Behavior) (q : ℕ) :
    (m.answering i b).phase? q = m.phase? q ∨ ∃ args b', m.phase? q = some (.calling args b') ∧
      (m.answering i b).phase? q = some (.calling args b) := by
  have key : ∀ (tasks : List Task) (i : ℕ),
      findPhase (tasks.modify i fun t => { t with phase := t.phase.answering b }) q =
          findPhase tasks q ∨
        ∃ args b', findPhase tasks q = some (.calling args b') ∧
          findPhase (tasks.modify i fun t => { t with phase := t.phase.answering b }) q =
            some (.calling args b) := by
    intro tasks
    induction tasks with
    | nil =>
      intro i
      simp
    | cons t tasks ih =>
      intro i
      cases i with
      | zero =>
        rw [List.modify_zero_cons, findPhase_cons, findPhase_cons]
        by_cases hq : t.place = q
        · rw [if_pos hq, if_pos hq]
          rcases t.phase.answering_cases b with heq | ⟨args, b', hphase, heq⟩
          · exact .inl (congrArg some heq)
          · exact .inr ⟨args, b', congrArg some hphase, congrArg some heq⟩
        · rw [if_neg hq, if_neg hq]
          exact .inl rfl
      | succ i =>
        rw [List.modify_succ_cons, findPhase_cons, findPhase_cons]
        by_cases hq : t.place = q
        · rw [if_pos hq, if_pos hq]
          exact .inl rfl
        · rw [if_neg hq, if_neg hq]
          exact ih i
  exact key m.tasks i

/-- A step of one of the tasks, whatever a compilation or a call comes to in it. -/
def FreeStep (token : Option CancelToken) (p : Plan) (m m' : Machine) : Prop :=
  ∃ (env : Environment) (b : Behavior) (i : ℕ),
    i < m.tasks.length ∧ m' = (m.answering i b).step env token p i

variable {token : Option CancelToken} {p : Plan} {m m' : Machine}

/-- The function that a task has found is one that it may call. -/
lemma exists_answering_eq (m : Machine) (i : ℕ) : ∃ b, m.answering i b = m := by
  obtain ⟨b, hb⟩ : ∃ b, ∀ t, m.tasks[i]? = some t → t.phase.answering b = t.phase := by
    cases ht : m.tasks[i]? with
    | none => exact ⟨.names, by simp⟩
    | some t =>
      obtain ⟨b, hb⟩ : ∃ b, t.phase.answering b = t.phase := by
        cases t.phase with
        | calling args b => exact ⟨b, rfl⟩
        | _ => exact ⟨.names, rfl⟩
      exact ⟨b, by simpa using hb⟩
  have htasks : (m.tasks.modify i fun t => { t with phase := t.phase.answering b }) = m.tasks := by
    refine List.ext_getElem? fun j => ?_
    rw [List.getElem?_modify]
    split
    · rename_i hij
      subst hij
      cases ht : m.tasks[i]? with
      | none => rfl
      | some t => simp [hb t ht]
    · simp
  refine ⟨b, ?_⟩
  rw [answering, htasks]

lemma work_freeStep_lt (h : FreeStep token p m m') : m'.work p < m.work p := by
  obtain ⟨env, b, i, hi, rfl⟩ := h
  rw [← work_answering p m i b]
  exact work_step_lt ⟨i, by simpa [answering] using hi, rfl⟩

lemma wellFounded_freeStep : WellFounded fun m' m => FreeStep token p m m' :=
  Subrelation.wf (fun h => work_freeStep_lt h) (measure (work p)).wf

lemma tasks_eq_nil_of_free (h : ∀ m', ¬ FreeStep token p m m') : m.tasks = [] := by
  by_contra hne
  exact h _ ⟨⟨.empty, fun _ _ => .panic none, .strict⟩, .names, 0,
    List.length_pos_of_ne_nil hne, rfl⟩

end Machine

/-- The call that comes next may be of another function. -/
lemma Control.answering {p : Plan} {owed : ℕ → List ℕ} {m : Machine} (h : Control p owed m)
    (i : ℕ) (b : Behavior) : Control p owed (m.answering i b) := by
  refine ⟨?_, ?_, h.length_slots, h.counter_eq, ?_, h.stopped_of_cancelled⟩
  · rw [Machine.places_answering]
    exact h.places_nodup
  · intro q hq
    rcases m.phase?_answering i b q with heq | ⟨args, b', hcalling, -⟩
    · rw [heq]
      exact h.outside q hq
    · rw [h.outside q hq] at hcalling
      simp at hcalling
  · intro q n hn
    have hstanding := h.standing q n hn
    show Standing m.shared.cancelled n.successors _ (m.shared.view q).isSome _ _
    rcases m.phase?_answering i b q with heq | ⟨args, b', hcalling, heq⟩
    · rw [heq]
      exact hstanding
    · rw [hcalling] at hstanding
      obtain ⟨hstored, hcount, howed⟩ := hstanding.of_working rfl
      rw [heq, hstored, hcount, howed]
      exact .working rfl

end Dataflow
