import Mathlib.Data.List.Perm.Basic
import Dataflow.Proofs.Graph.Ids

/-!
# Nested and flat connections

A connection has four parts, each of which may be missing, and it has them in nested form or in
flat form, among members with other names and in any order.  What is read of it is told by its parts
alone (`Ends.ofJson?_spelled`): in flat form they are read one after the other, and in nested form
as well, but there a part that cannot be read makes all of them go missing, since what is no nested
connection is a flat one of which no part is there.
-/

namespace Dataflow

/-- The spellings of a part of a connection in flat form. -/
def Endpoint.spellings : Endpoint → List String
  | fromNode => ["from_node", "fromNode"]
  | fromOutput => ["from_output", "fromOutput"]
  | toNode => ["to_node", "toNode"]
  | toInput => ["to_input", "toInput"]

/-- The spelling of a part in camel case. -/
def Endpoint.camelCase : Endpoint → String
  | fromNode => "fromNode"
  | fromOutput => "fromOutput"
  | toNode => "toNode"
  | toInput => "toInput"

lemma Endpoint.camelCase_mem_spellings (part : Endpoint) : part.camelCase ∈ part.spellings := by
  cases part <;> simp [camelCase, spellings]

/-- The values that a part of a connection can have, where nothing stands for a missing part. -/
def Endpoint.Admits (part : Endpoint) : Option Json → Prop
  | none | some .null | some (.text _) => True
  | some (.int n) => part ∈ [fromNode, toNode] ∧ Value.fitsInt n = true
  | _ => False

/-- An entry without any part. -/
def ConnectionEntry.blank : ConnectionEntry := ⟨none, none, none, none⟩

/-- The parts of a connection as they are written. -/
abbrev Ends : Type := Endpoint → Option Json

namespace Ends

/-- The parts one by one. -/
def ofParts (fromNode fromOutput toNode toInput : Option Json) : Ends
  | .fromNode => fromNode
  | .fromOutput => fromOutput
  | .toNode => toNode
  | .toInput => toInput

/-- Each part is missing, or has a value that it can have. -/
def WellTyped (e : Ends) : Prop := ∀ part : Endpoint, part.Admits (e part)

/-- The members of the parts that are there. -/
def present (e : Ends) (names : List (Endpoint × String)) : List (String × Json) :=
  names.filterMap fun x => (e x.1).map (x.2, ·)

/-- The names that mean something in a connection. -/
def reserved : List String :=
  ["from", "to", "from_node", "fromNode", "from_output", "fromOutput", "to_node", "toNode",
    "to_input", "toInput"]

/-- The forms of a connection. -/
inductive Form where
  | nested
  | flat
deriving DecidableEq

/-- A tree is a connection in a form, with the given parts among other members. -/
inductive Spelled (e : Ends) (extra : List (String × Json)) : Form → Json → Prop where
  | nested {source target ms : List (String × Json)}
      (hsource : source.Perm (present e [(.fromNode, "node"), (.fromOutput, "output")]))
      (htarget : target.Perm (present e [(.toNode, "node"), (.toInput, "input")]))
      (h : ms.Perm (("from", .object source) :: ("to", .object target) :: extra)) :
      Spelled e extra .nested (.object ms)
  | flat {name : Endpoint → String} {ms : List (String × Json)}
      (hname : ∀ part, name part ∈ part.spellings)
      (h : ms.Perm (present e [(.fromNode, name .fromNode), (.fromOutput, name .fromOutput),
        (.toNode, name .toNode), (.toInput, name .toInput)] ++ extra)) :
      Spelled e extra .flat (.object ms)

/-- What is read of the parts. -/
def entry? (e : Ends) : Option ConnectionEntry :=
  (Json.optional? idOf? (e .fromNode)).bind fun fromNode =>
    (Json.optional? Json.text? (e .fromOutput)).bind fun fromOutput =>
      (Json.optional? idOf? (e .toNode)).bind fun toNode =>
        (Json.optional? Json.text? (e .toInput)).map fun toInput =>
          ⟨fromNode, fromOutput, toNode, toInput⟩

/-- Whether the parts can be read with the given number of levels left. -/
def isReadable (levels : ℕ) (e : Ends) : Bool :=
  [Endpoint.fromNode, .fromOutput, .toNode, .toInput].all fun part =>
    (e part).all (Json.isReadable levels)

variable {e : Ends} {extra ms : List (String × Json)} {form : Form}

/-! ### Looking the parts up -/

lemma member?_perm {ms' : List (String × Json)} (h : ms.Perm ms') (field : Json.Field) :
    Json.member? ms field = Json.member? ms' field := by
  have hfilter := h.filter fun m => field.names.contains m.1
  rw [Json.member?, Json.member?]
  generalize (ms.filter fun m => field.names.contains m.1) = l at hfilter
  generalize (ms'.filter fun m => field.names.contains m.1) = l' at hfilter
  have hlength := hfilter.length_eq
  obtain _ | ⟨m, _ | ⟨_, l⟩⟩ := l <;> obtain _ | ⟨m', _ | ⟨_, l'⟩⟩ := l' <;> try cases hlength
  case nil.nil => rfl
  case cons.nil.cons.nil => rw [List.singleton_perm_singleton.1 hfilter]
  case cons.cons.cons.cons => rfl

lemma present_cons (x : Endpoint × String) (names : List (Endpoint × String)) :
    present e (x :: names) = ((e x.1).map (x.2, ·)).toList ++ present e names := by
  rw [present, List.filterMap_cons]
  cases e x.1 <;> rfl

lemma filter_present_eq_nil {names : List (Endpoint × String)} {field : Json.Field}
    (h : ∀ x ∈ names, x.2 ∉ field.names) :
    (present e names).filter (fun m => field.names.contains m.1) = [] := by
  simp only [List.filter_eq_nil_iff, present, List.mem_filterMap, Option.map_eq_some_iff]
  rintro _ ⟨x, hx, j, -, rfl⟩
  simpa using h x hx

/-- A part that is written under one name among other members. -/
lemma member?_present (names names' : List (Endpoint × String)) {part : Endpoint} {name : String}
    {field : Json.Field} (hname : name ∈ field.names) (hnames : ∀ x ∈ names, x.2 ∉ field.names)
    (hnames' : ∀ x ∈ names', x.2 ∉ field.names) (hextra : ∀ m ∈ extra, m.1 ∉ field.names)
    (h : ms.Perm (present e (names ++ (part, name) :: names') ++ extra)) :
    Json.member? ms field = some (e part) := by
  have hsplit : present e (names ++ (part, name) :: names') =
      present e names ++ (((e part).map (name, ·)).toList ++ present e names') := by
    rw [← present_cons (part, name)]
    exact List.filterMap_append
  have hextra' : extra.filter (fun m => field.names.contains m.1) = [] := by
    simpa [List.filter_eq_nil_iff] using fun a b => hextra (a, b)
  rw [member?_perm h, Json.member?, hsplit, List.filter_append, List.filter_append,
    List.filter_append, filter_present_eq_nil hnames, filter_present_eq_nil hnames', hextra']
  cases e part with
  | none => rfl
  | some j => simp [hname]

/-- No part has a name that is not written. -/
lemma member?_absent {names : List (Endpoint × String)} {field : Json.Field}
    (hnames : ∀ x ∈ names, x.2 ∉ field.names) (hextra : ∀ m ∈ extra, m.1 ∉ field.names)
    (h : ms.Perm (present e names ++ extra)) : Json.member? ms field = some none := by
  have hextra' : extra.filter (fun m => field.names.contains m.1) = [] := by
    simpa [List.filter_eq_nil_iff] using fun a b => hextra (a, b)
  rw [member?_perm h, Json.member?, List.filter_append, filter_present_eq_nil hnames, hextra']
  rfl

lemma not_mem_spellings {part part' : Endpoint} {name : String} (hname : name ∈ part.spellings)
    (hne : part ≠ part') : name ∉ part'.spellings := by
  cases part <;> cases part' <;> first | exact absurd rfl hne | skip
  all_goals
    simp only [Endpoint.spellings, List.mem_cons, List.not_mem_nil, or_false] at hname ⊢
    rcases hname with rfl | rfl <;> simp

lemma ne_from {part : Endpoint} {name : String} (hname : name ∈ part.spellings) :
    name ≠ "from" := by
  rintro rfl
  cases part <;> simp [Endpoint.spellings] at hname

lemma spellings_subset (part : Endpoint) : part.spellings ⊆ reserved := by
  cases part <;> simp [Endpoint.spellings, reserved]

lemma member?_flat {name : Endpoint → String} (hname : ∀ part, name part ∈ part.spellings)
    (hextra : ∀ m ∈ extra, m.1 ∉ reserved)
    (h : ms.Perm (present e [(.fromNode, name .fromNode), (.fromOutput, name .fromOutput),
      (.toNode, name .toNode), (.toInput, name .toInput)] ++ extra)) (part : Endpoint) :
    Json.member? ms ⟨part.spellings, false⟩ = some (e part) := by
  have hother : ∀ part', part' ≠ part → name part' ∉ part.spellings :=
    fun part' => not_mem_spellings (hname part')
  have hextra' : ∀ m ∈ extra, m.1 ∉ part.spellings :=
    fun m hm hmem => hextra m hm (spellings_subset part hmem)
  cases part with
  | fromNode =>
    exact member?_present [] _ (hname _) (by simp) (by simp [hother]) hextra' h
  | fromOutput =>
    exact member?_present [(.fromNode, name .fromNode)] _ (hname _) (by simp [hother])
      (by simp [hother]) hextra' h
  | toNode =>
    exact member?_present [(.fromNode, name .fromNode), (.fromOutput, name .fromOutput)] _ (hname _)
      (by simp [hother]) (by simp [hother]) hextra' h
  | toInput =>
    exact member?_present [(.fromNode, name .fromNode), (.fromOutput, name .fromOutput),
      (.toNode, name .toNode)] [] (hname _) (by simp [hother]) (by simp) hextra' h

/-! ### Reading them -/

lemma flat?_flat
    (hmember : ∀ part, Json.member? ms ⟨Endpoint.spellings part, false⟩ = some (e part)) :
    ConnectionEntry.flat? ms = e.entry? := by
  have hfromNode : Json.member? ms ⟨["from_node", "fromNode"], false⟩ = some (e .fromNode) :=
    hmember .fromNode
  have hfromOutput : Json.member? ms ⟨["from_output", "fromOutput"], false⟩ =
      some (e .fromOutput) := hmember .fromOutput
  have htoNode : Json.member? ms ⟨["to_node", "toNode"], false⟩ = some (e .toNode) :=
    hmember .toNode
  have htoInput : Json.member? ms ⟨["to_input", "toInput"], false⟩ = some (e .toInput) :=
    hmember .toInput
  rw [ConnectionEntry.flat?_eq, hfromNode, hfromOutput, htoNode, htoInput]
  rfl

lemma nested?_of_absent (h : Json.member? ms (field "from") = some none) :
    ConnectionEntry.nested? ms = none := by
  rw [ConnectionEntry.nested?_eq, h]
  rcases Json.member? ms (field "to") with _ | _ | target <;> rfl

lemma ofJson?_end {node output input : Option Json}
    (hnode : Json.member? ms (field "node") = some node)
    (houtput : Json.member? ms (field "output") = some output)
    (hinput : Json.member? ms (field "input") = some input) :
    EndEntry.ofJson? (.object ms) =
      (Json.optional? idOf? node).bind fun node =>
        (Json.optional? Json.text? output).bind fun output =>
          (Json.optional? Json.text? input).map fun input => ⟨node, output, input⟩ := by
  simp only [EndEntry.ofJson?, Json.fields?, List.mapM_cons, List.mapM_nil, hnode, houtput, hinput,
    Option.bind_eq_bind, Option.bind_some, Option.pure_def, Option.map_eq_bind]
  rfl

lemma ofJson?_source (h : ms.Perm (present e [(.fromNode, "node"), (.fromOutput, "output")])) :
    EndEntry.ofJson? (.object ms) =
      (Json.optional? idOf? (e .fromNode)).bind fun node =>
        (Json.optional? Json.text? (e .fromOutput)).map fun output => ⟨node, output, none⟩ := by
  rw [← List.append_nil (present _ _)] at h
  have hnode : Json.member? ms (field "node") = some (e .fromNode) :=
    member?_present [] _ (by simp [field]) (by simp) (by simp [field]) (by simp) h
  have houtput : Json.member? ms (field "output") = some (e .fromOutput) :=
    member?_present [(.fromNode, "node")] [] (by simp [field]) (by simp [field]) (by simp)
      (by simp) h
  have hinput : Json.member? ms (field "input") = some none :=
    member?_absent (by simp [field]) (by simp) h
  rw [ofJson?_end hnode houtput hinput]
  cases Json.optional? idOf? (e .fromNode) with
  | none => rfl
  | some node => cases Json.optional? Json.text? (e .fromOutput) <;> rfl

lemma ofJson?_target (h : ms.Perm (present e [(.toNode, "node"), (.toInput, "input")])) :
    EndEntry.ofJson? (.object ms) =
      (Json.optional? idOf? (e .toNode)).bind fun node =>
        (Json.optional? Json.text? (e .toInput)).map fun input => ⟨node, none, input⟩ := by
  rw [← List.append_nil (present _ _)] at h
  have hnode : Json.member? ms (field "node") = some (e .toNode) :=
    member?_present [] _ (by simp [field]) (by simp) (by simp [field]) (by simp) h
  have houtput : Json.member? ms (field "output") = some none :=
    member?_absent (by simp [field]) (by simp) h
  have hinput : Json.member? ms (field "input") = some (e .toInput) :=
    member?_present [(.toNode, "node")] [] (by simp [field]) (by simp [field]) (by simp)
      (by simp) h
  rw [ofJson?_end hnode houtput hinput]
  cases Json.optional? idOf? (e .toNode) with
  | none => rfl
  | some node => cases Json.optional? Json.text? (e .toInput) <;> rfl

/-- An end of a nested connection among other members. -/
lemma member?_nested {source target : Json} (hextra : ∀ m ∈ extra, m.1 ∉ reserved)
    (h : ms.Perm (("from", source) :: ("to", target) :: extra)) :
    Json.member? ms (field "from") = some (some source) ∧
      Json.member? ms (field "to") = some (some target) ∧
      ∀ part, Json.member? ms ⟨Endpoint.spellings part, false⟩ = some none := by
  have hfilter : ∀ names ⊆ reserved, extra.filter (fun m => names.contains m.1) = [] := by
    intro names hnames
    simp only [List.filter_eq_nil_iff]
    exact fun m hm hmem => hextra m hm (hnames (by simpa using hmem))
  refine ⟨?_, ?_, fun part => ?_⟩
  · rw [member?_perm h, Json.member?, List.filter_cons_of_pos (by simp [field]),
      List.filter_cons_of_neg (by simp [field]), hfilter _ (by simp [field, reserved])]
  · rw [member?_perm h, Json.member?, List.filter_cons_of_neg (by simp [field]),
      List.filter_cons_of_pos (by simp [field]), hfilter _ (by simp [field, reserved])]
  · rw [member?_perm h, Json.member?,
      List.filter_cons_of_neg (by cases part <;> simp [Endpoint.spellings]),
      List.filter_cons_of_neg (by cases part <;> simp [Endpoint.spellings]),
      hfilter _ (spellings_subset part)]

/-- What is read of the parts in a form.  Nested ends that cannot be read are taken for a flat
connection without any part. -/
def formEntry? (e : Ends) : Form → Option ConnectionEntry
  | .nested => e.entry? <|> some .blank
  | .flat => e.entry?

/-- The levels that are left for the parts. -/
def levels : Form → ℕ
  | .nested => ConnectionEntry.depth - 2
  | .flat => ConnectionEntry.depth - 1

lemma membersReadable_eq (levels : ℕ) (ms : List (String × Json)) :
    Json.membersReadable levels ms = ms.all fun m => m.2.isReadable levels := by
  induction ms with
  | nil => rfl
  | cons m ms ih => rw [Json.membersReadable, List.all_cons, ih]

lemma membersReadable_perm {ms' : List (String × Json)} (h : ms.Perm ms') (levels : ℕ) :
    Json.membersReadable levels ms = Json.membersReadable levels ms' := by
  rw [membersReadable_eq, membersReadable_eq]
  exact h.all_eq

lemma membersReadable_present (levels : ℕ) (names : List (Endpoint × String)) :
    Json.membersReadable levels (present e names) =
      names.all fun x => (e x.1).all (Json.isReadable levels) := by
  rw [membersReadable_eq]
  induction names with
  | nil => rfl
  | cons x names ih =>
    rw [present_cons, List.all_append, ih, List.all_cons]
    cases e x.1 <;> simp

lemma isReadable_spelled {j : Json} (h : Spelled e extra form j) :
    j.isReadable ConnectionEntry.depth =
      (e.isReadable (levels form) && Json.membersReadable (ConnectionEntry.depth - 1) extra) := by
  have hdepth : ConnectionEntry.depth = 123 + 1 + 1 := rfl
  cases h with
  | nested hsource htarget h =>
    simp only [hdepth, levels, isReadable, Json.isReadable, membersReadable_perm h,
      Json.membersReadable, membersReadable_perm hsource, membersReadable_perm htarget,
      membersReadable_present]
    simp [Bool.and_assoc]
  | flat hname h =>
    simp only [hdepth, levels, isReadable, Json.isReadable, membersReadable_perm h]
    rw [membersReadable_eq, List.all_append, ← membersReadable_eq, ← membersReadable_eq,
      membersReadable_present]
    simp

/-- **What is read of a connection in either form.** -/
lemma ofJson?_spelled {j : Json} (hextra : ∀ m ∈ extra, m.1 ∉ reserved)
    (h : Spelled e extra form j) :
    ConnectionEntry.ofJson? j =
      if (e.isReadable (levels form) &&
        Json.membersReadable (ConnectionEntry.depth - 1) extra) = true then formEntry? e form
      else none := by
  rw [← isReadable_spelled h]
  cases h with
  | @nested source target ms hsource htarget h =>
    obtain ⟨hfrom, hto, hflat⟩ := member?_nested hextra h
    have hnone := flat?_flat (e := fun _ => none) hflat
    have hnested : ConnectionEntry.nested? ms = e.entry? := by
      rw [ConnectionEntry.nested?_eq, hfrom, hto]
      simp only [Option.map_some, Option.bind_some, ofJson?_source hsource, ofJson?_target htarget,
        entry?]
      rcases Json.optional? idOf? (e .fromNode) with _ | fromNode
      · rfl
      rcases Json.optional? Json.text? (e .fromOutput) with _ | fromOutput
      · rfl
      rcases Json.optional? idOf? (e .toNode) with _ | toNode
      · rfl
      rcases Json.optional? Json.text? (e .toInput) with _ | toInput <;> rfl
    rw [ConnectionEntry.ofJson?, hnested, hnone]
    rfl
  | flat hname h =>
    have hfree : ∀ m ∈ extra, m.1 ∉ (field "from").names := by
      intro m hm hmem
      exact hextra m hm (by simp [List.mem_singleton.1 hmem, reserved])
    have hfrom := nested?_of_absent (member?_absent (by simp [field, ne_from (hname _)]) hfree h)
    rw [ConnectionEntry.ofJson?, hfrom, flat?_flat (member?_flat hname hextra h)]
    rfl

/-! ### Parts that are well typed -/

lemma isSome_optional?_idOf? {part : Endpoint} (hpart : part ∈ [Endpoint.fromNode, .toNode])
    (j? : Option Json) : (Json.optional? idOf? j?).isSome ↔ part.Admits j? := by
  rcases j? with _ | (_ | _ | n | _ | _ | _ | _ | _) <;>
    simp_all [Json.optional?, idOf?, Endpoint.Admits]

lemma isSome_optional?_text? {part : Endpoint} (hpart : part ∉ [Endpoint.fromNode, .toNode])
    (j? : Option Json) : (Json.optional? Json.text? j?).isSome ↔ part.Admits j? := by
  rcases j? with _ | (_ | _ | n | _ | _ | _ | _ | _) <;>
    simp_all [Json.optional?, Json.text?, Endpoint.Admits]

/-- The parts of a connection can be read just if they are well typed. -/
lemma isSome_entry? (e : Ends) : e.entry?.isSome ↔ e.WellTyped := by
  have hparts : e.WellTyped ↔ Endpoint.fromNode.Admits (e .fromNode) ∧
      Endpoint.fromOutput.Admits (e .fromOutput) ∧ Endpoint.toNode.Admits (e .toNode) ∧
        Endpoint.toInput.Admits (e .toInput) := by
    refine ⟨fun h => ⟨h _, h _, h _, h _⟩, fun h part => ?_⟩
    cases part <;> simp [h]
  rw [hparts, ← isSome_optional?_idOf? (by simp), ← isSome_optional?_text? (by simp),
    ← isSome_optional?_idOf? (by simp), ← isSome_optional?_text? (by simp), entry?]
  cases Json.optional? idOf? (e .fromNode) <;> cases Json.optional? Json.text? (e .fromOutput) <;>
    cases Json.optional? idOf? (e .toNode) <;> cases Json.optional? Json.text? (e .toInput) <;> simp

lemma WellTyped.isReadable (h : e.WellTyped) (levels : ℕ) : e.isReadable levels = true := by
  have hpart : ∀ part, (e part).all (Json.isReadable levels) = true := by
    intro part
    have hadmits := h part
    generalize e part = j? at hadmits
    rcases j? with _ | (_ | _ | n | _ | _ | _ | _ | _) <;>
      simp_all [Endpoint.Admits, Json.isReadable]
  simp [Ends.isReadable, hpart]

end Ends

end Dataflow
