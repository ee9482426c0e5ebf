import Dataflow.Proofs.Plan.Saving

/-!
# The literals of a saved plan

A plan that is saved and loaded is the same plan, or cannot be saved or loaded, as long as every
double in its literals is read back from its own text (`Graph.saved_literals`).  The others
change without an error: infinity and what is no number become null, and a finite double becomes
the double that its digits come out as when the reader scales them (`Graph.changed_literals`).
Nothing else about a plan changes.
-/

namespace Dataflow.Graph

/-- **What a plan is loaded as after it was saved.**  It is saved unless some number or length
takes more than a word.  Its bytes are loaded as the plan in which each double of a literal is
replaced by what its own text is read as, and are rejected if a literal is nested too deep or a
double comes out too large; this is the same plan exactly if no literal is nested too deep and
all doubles come back.  A finite double is never read as anything but a double, and any other is
read as null. -/
theorem saved_literals {g : Graph} {p : Plan} (h : g.plan = .ok p) :
    (¬ p.FitsWords → p.save = .error .encode) ∧
      (p.FitsWords → ∃ bytes, p.save = .ok bytes ∧ ∀ rest,
        (Plan.load (bytes ++ rest) =
          match p.reread? with
          | some q => .ok q
          | none => .error .decode) ∧
        (Plan.load (bytes ++ rest) = .ok p ↔ ∀ v ∈ p.literals, v.depth ≤ Json.maxDepth ∧
          ∀ x ∈ v.doubles, Value.reread? (.float x) = some (.float x))) ∧
      ∀ x : Float, match Decimal.view x with
        | .finite _ =>
          Value.reread? (.float x) = none ∨ ∃ y, Value.reread? (.float x) = some (.float y)
        | _ => Value.reread? (.float x) = some .null := by
  obtain ⟨order, hby⟩ := exists_plannedBy h
  have hsound : p.linkFault? = none := Plan.linkFault?_eq_none_iff.2 hby.linked
  refine ⟨fun hwords => ?_, fun hwords => ?_, fun x => ?_⟩
  · have hnone : ¬ p.toBytes?.isSome := fun hsome => hwords (Plan.isSome_toBytes?.1 hsome)
    rw [Plan.save, Option.not_isSome_iff_eq_none.1 hnone]
  · obtain ⟨bytes, hsave⟩ := Plan.exists_save_iff.2 hwords
    have hload : ∀ rest, Plan.load (bytes ++ rest) =
        match p.reread? with
        | some q => .ok q
        | none => .error .decode := by
      intro rest
      rw [Plan.load_append hsave, hsound]
      cases p.reread? <;> rfl
    refine ⟨bytes, hsave, fun rest => ⟨hload rest, ?_⟩⟩
    rw [hload, ← Plan.reread?_eq_some_self_iff]
    cases p.reread? <;> simp
  · cases hview : Decimal.view x with
    | finite b => exact Value.reread?_of_finite hview
    | nan => exact Value.reread?_of_not_finite (by simp [hview])
    | infinite negative => exact Value.reread?_of_not_finite (by simp [hview])

/-- A node whose only input has the given default. -/
def defaulted (v : Value) : Graph where
  nodes := [⟨"n", "f", [⟨"x", some v, none⟩], [⟨"y", none⟩], none, none, none⟩]
  connections := []
  valid := valid_of_fault?_eq_none rfl

/-- The plan of `defaulted`. -/
def defaultedPlan (v : Value) : Plan :=
  ⟨[⟨"n", 0, "f", ["y"], [("x", .literal v)], .static "n", [], 0⟩]⟩

/-- A double with one digit behind the point. -/
lemma reread?_short : Value.reread? (.float (-1.5)) = some (.float (-1.5)) :=
  Value.reread?_eq_scaled (y := 1.5) ['1', '.', '5'] ⟨true, ['1'], ['5'], none⟩
    (by decide +kernel) rfl (by decide) (by decide +kernel)

theorem saved_literals_short :
    (defaulted (.list [.float (-1.5), .text "t"])).plan =
        .ok (defaultedPlan (.list [.float (-1.5), .text "t"])) ∧
      ∃ bytes, (defaultedPlan (.list [.float (-1.5), .text "t"])).save = .ok bytes ∧
        ∀ rest, Plan.load (bytes ++ rest) =
          .ok (defaultedPlan (.list [.float (-1.5), .text "t"])) := by
  have hplan : (defaulted (.list [.float (-1.5), .text "t"])).plan =
      .ok (defaultedPlan (.list [.float (-1.5), .text "t"])) := rfl
  obtain ⟨-, hsaved, -⟩ := saved_literals hplan
  obtain ⟨bytes, hsave, hload⟩ := hsaved (by decide +kernel)
  refine ⟨hplan, bytes, hsave, fun rest => (hload rest).2.2 fun v hv => ?_⟩
  obtain rfl := List.mem_singleton.1 hv
  refine ⟨by decide, fun x hx => ?_⟩
  obtain rfl := List.mem_singleton.1 hx
  exact reread?_short

lemma exists_load_defaulted {v w : Value} (hwords : (defaultedPlan v).FitsWords)
    (hdepth : v.depth ≤ Json.maxDepth) (hv : v.reread? = some w) :
    ∃ bytes, (defaultedPlan v).save = .ok bytes ∧ Plan.load bytes = .ok (defaultedPlan w) := by
  obtain ⟨bytes, hsave⟩ := Plan.exists_save_iff.2 hwords
  have hload := Plan.load_append hsave []
  have hreread : (defaultedPlan v).reread? = some (defaultedPlan w) := by
    simp [Plan.reread?, PlannedNode.reread?, rereadArgument?, Binding.reread?, defaultedPlan, hdepth,
      hv]
  rw [List.append_nil, hreread] at hload
  exact ⟨bytes, hsave, hload⟩

/-- An infinite default is loaded as null, and a finite one as its neighbour. -/
theorem changed_literals :
    (defaulted (.float (1.0 / 0.0))).plan = .ok (defaultedPlan (.float (1.0 / 0.0))) ∧
      (∃ bytes, (defaultedPlan (.float (1.0 / 0.0))).save = .ok bytes ∧
        Plan.load bytes = .ok (defaultedPlan .null)) ∧
      (defaulted (.float (Float.ofBits 0x4164d8399f767c45))).plan =
        .ok (defaultedPlan (.float (Float.ofBits 0x4164d8399f767c45))) ∧
      (∃ bytes, (defaultedPlan (.float (Float.ofBits 0x4164d8399f767c45))).save = .ok bytes ∧
        Plan.load bytes = .ok (defaultedPlan (.float (Float.ofBits 0x4164d8399f767c44)))) ∧
      Float.ofBits 0x4164d8399f767c45 ≠ Float.ofBits 0x4164d8399f767c44 := by
  have hinfinite : Value.reread? (.float (1.0 / 0.0)) = some .null := by
    have hview : Decimal.view (1.0 / 0.0) = .infinite false := by decide +kernel
    exact Value.reread?_of_not_finite (by simp [hview])
  have hfinite : Value.reread? (.float (Float.ofBits 0x4164d8399f767c45)) =
      some (.float (Float.ofBits 0x4164d8399f767c44)) :=
    Value.reread?_eq_scaled "10928588.983213553".toList
      ⟨false, "10928588".toList, "983213553".toList, none⟩
      (by decide +kernel) rfl (by decide) (by decide +kernel)
  exact ⟨rfl, exists_load_defaulted (by decide +kernel) (Nat.zero_le _) hinfinite, rfl,
    exists_load_defaulted (by decide +kernel) (Nat.zero_le _) hfinite, by decide +kernel⟩

end Dataflow.Graph
