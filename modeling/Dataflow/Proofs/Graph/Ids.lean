import Dataflow.Proofs.Graph.Description

/-!
# Ids as integers and as texts

An id in a description is an integer or its decimal text.  Trees in which ids are written in the
other way somewhere are related member by member, and what is read of a node, of an end and of a
connection is the same for both (`NodeEntry.ofJson?_respelled`, `EndEntry.ofJson?_respelled`,
`ConnectionEntry.ofJson?_idsRespelled`).  A member counts only under its key, and the keys of ids
are the keys of nothing else, so that the other members can be left as they are.
-/

namespace Dataflow

lemma mapM_eq_of_forall₂ {α β γ : Type} {f : α → Option γ} {g : β → Option γ} {l : List α}
    {l' : List β} (h : List.Forall₂ (fun a b => f a = g b) l l') : l.mapM f = l'.mapM g := by
  induction h with
  | nil => rfl
  | cons hab _ ih => rw [List.mapM_cons, List.mapM_cons, hab, ih]

namespace Json

/-- An id, and the same as an integer or as its decimal text. -/
inductive SameId : Json → Json → Prop where
  | refl (j : Json) : SameId j j
  | text {n : ℤ} (h : Value.fitsInt n = true) :
      SameId (.int n) (.text (String.ofList (Decimal.intChars n)))
  | int {n : ℤ} (h : Value.fitsInt n = true) :
      SameId (.text (String.ofList (Decimal.intChars n))) (.int n)

/-- Members with the same keys, where the values under some keys are written in another way. -/
def MembersRespelled (R : String → Json → Json → Prop) (members members' : List (String × Json)) :
    Prop :=
  List.Forall₂ (fun m m' => m.1 = m'.1 ∧ (m.2 = m'.2 ∨ R m.1 m.2 m'.2)) members members'

/-- A record with an id as its first field, and the same with the id written in another way. -/
inductive IdRespelled (name : String) : Json → Json → Prop where
  | same (j : Json) : IdRespelled name j j
  | object {members members' : List (String × Json)}
      (h : MembersRespelled (fun key j j' => key = name ∧ SameId j j') members members') :
      IdRespelled name (.object members) (.object members')
  | array {j j' : Json} (h : SameId j j') (items : List Json) :
      IdRespelled name (.array (j :: items)) (.array (j' :: items))

variable {j j' : Json} {members members' : List (String × Json)} {name : String}
  {R : String → Json → Json → Prop}

lemma SameId.symm (h : SameId j j') : SameId j' j := by
  cases h with
  | refl => exact .refl j
  | text h => exact .int h
  | int h => exact .text h

lemma MembersRespelled.symm (hR : ∀ key j j', R key j j' → R key j' j)
    (h : MembersRespelled R members members') : MembersRespelled R members' members := by
  refine (h.imp fun m m' hm => ?_).flip
  obtain ⟨hkey, heq | hm⟩ := hm
  · exact ⟨hkey.symm, .inl heq.symm⟩
  · exact ⟨hkey.symm, .inr (hR _ _ _ (hkey ▸ hm))⟩

lemma IdRespelled.symm (h : IdRespelled name j j') : IdRespelled name j' j := by
  cases h with
  | same => exact .same j
  | object h => exact .object (h.symm fun _ _ _ h => ⟨h.1, h.2.symm⟩)
  | array h items => exact .array h.symm items

/-- A field of an object has the same value, or one that is written in another way. -/
lemma member?_respelled (h : MembersRespelled R members members') (field : Field) :
    member? members field = member? members' field ∨
      ∃ key j j', key ∈ field.names ∧ R key j j' ∧ member? members field = some (some j) ∧
        member? members' field = some (some j') := by
  have hfilter := List.rel_filter (p := fun m => field.names.contains m.1)
    (q := fun m => field.names.contains m.1) (fun m m' hm => by simp [hm.1]) h
  have hnames : ∀ m ∈ members.filter fun m => field.names.contains m.1, m.1 ∈ field.names :=
    fun m hm => by simpa using (List.mem_filter.1 hm).2
  rw [member?, member?]
  generalize (members.filter fun m => field.names.contains m.1) = ms at hfilter hnames
  generalize (members'.filter fun m => field.names.contains m.1) = ms' at hfilter
  cases hfilter with
  | nil => exact .inl rfl
  | @cons m m' ms ms' hm hms =>
    cases hms with
    | cons => exact .inl rfl
    | nil =>
      obtain ⟨-, heq | hm⟩ := hm
      · exact .inl (by simp [heq])
      · exact .inr ⟨m.1, m.2, m'.2, hnames m List.mem_cons_self, hm, rfl, rfl⟩

lemma optional?_idOf? (h : SameId j j') :
    optional? idOf? (some j) = optional? idOf? (some j') := by
  cases h with
  | refl => rfl
  | text h => simp [optional?, idOf?, h]
  | int h => simp [optional?, idOf?, h]

lemma SameId.isReadable_eq (h : SameId j j') (levels : ℕ) :
    j.isReadable levels = j'.isReadable levels := by
  cases h <;> simp [isReadable]

lemma membersReadable_respelled {levels : ℕ}
    (hR : ∀ key j j', R key j j' → j.isReadable levels = j'.isReadable levels)
    (h : MembersRespelled R members members') :
    membersReadable levels members = membersReadable levels members' := by
  induction h with
  | nil => rfl
  | @cons m m' ms ms' hm _ ih =>
    have hvalue : m.2.isReadable levels = m'.2.isReadable levels := by
      obtain ⟨-, heq | hm⟩ := hm
      · rw [heq]
      · exact hR _ _ _ hm
    rw [membersReadable, membersReadable, hvalue, ih]

lemma IdRespelled.isReadable_eq (h : IdRespelled name j j') (levels : ℕ) :
    j.isReadable levels = j'.isReadable levels := by
  cases h with
  | same => rfl
  | object h =>
    cases levels with
    | zero => rfl
    | succ levels => exact membersReadable_respelled (fun _ _ _ h => h.2.isReadable_eq levels) h
  | array h items =>
    cases levels with
    | zero => rfl
    | succ levels => simp only [isReadable, areReadable, h.isReadable_eq levels]

/-- Of the fields of a record only the id is read from another value. -/
lemma fields?_idRespelled (h : IdRespelled name j j') (fields : List Field)
    (hfields : ∀ f ∈ fields, name ∉ f.names) :
    fields? (field name :: fields) j = fields? (field name :: fields) j' ∨
      ∃ id id' values, SameId id id' ∧
        fields? (field name :: fields) j = some (some id :: values) ∧
          fields? (field name :: fields) j' = some (some id' :: values) := by
  cases h with
  | same => exact .inl rfl
  | @object members members' h =>
    have hothers : fields.mapM (member? members) = fields.mapM (member? members') := by
      refine mapM_eq_of_forall₂ (List.forall₂_same.2 fun f hf => ?_)
      obtain heq | ⟨_, _, _, hkey, ⟨rfl, -⟩, -⟩ := member?_respelled h f
      · exact heq
      · exact absurd hkey (hfields f hf)
    simp only [fields?, List.mapM_cons, hothers]
    obtain heq | ⟨_, id, id', -, ⟨-, hid⟩, hmember, hmember'⟩ := member?_respelled h (field name)
    · exact .inl (by rw [heq])
    · rw [hmember, hmember']
      cases fields.mapM (member? members') with
      | none => exact .inl rfl
      | some values => exact .inr ⟨id, id', values, hid, rfl, rfl⟩
  | @array id id' h items =>
    simp only [fields?, items?]
    cases items? fields items with
    | none => exact .inl rfl
    | some values => exact .inr ⟨id, id', values, h, rfl, rfl⟩

end Json

variable {j j' : Json} {members members' : List (String × Json)}

lemma NodeEntry.ofJson?_respelled (h : Json.IdRespelled "id" j j') : ofJson? j = ofJson? j' := by
  rw [ofJson?, ofJson?]
  obtain heq | ⟨id, id', values, hid, hfields, hfields'⟩ := Json.fields?_idRespelled h
    [field "name", trailing "inputs", field "outputs", field "source", field "module",
      field "docstring"] (by decide)
  · rw [heq]
  · rw [hfields, hfields']
    obtain _ | ⟨name, _ | ⟨inputs, _ | ⟨outputs, _ | ⟨source, _ | ⟨module, _ | ⟨docstring,
      _ | ⟨_, rest⟩⟩⟩⟩⟩⟩⟩ := values
    case cons.cons.cons.cons.cons.cons.nil =>
      simp only [Option.bind_eq_bind, Option.bind_some, Json.optional?_idOf? hid]
    all_goals rfl

lemma EndEntry.ofJson?_respelled (h : Json.IdRespelled "node" j j') : ofJson? j = ofJson? j' := by
  rw [ofJson?, ofJson?]
  obtain heq | ⟨id, id', values, hid, hfields, hfields'⟩ := Json.fields?_idRespelled h
    [field "output", field "input"] (by decide)
  · rw [heq]
  · rw [hfields, hfields']
    obtain _ | ⟨output, _ | ⟨input, _ | ⟨_, rest⟩⟩⟩ := values
    case cons.cons.nil =>
      simp only [Option.bind_eq_bind, Option.bind_some, Json.optional?_idOf? hid]
    all_goals rfl

namespace ConnectionEntry

/-- An id in flat form, or an end in nested form, written in another way. -/
def IdsRespelled (key : String) (j j' : Json) : Prop :=
  key ∈ ["from_node", "fromNode", "to_node", "toNode"] ∧ Json.SameId j j' ∨
    key ∈ ["from", "to"] ∧ Json.IdRespelled "node" j j'

lemma IdsRespelled.symm {key : String} (h : IdsRespelled key j j') : IdsRespelled key j' j :=
  h.imp (And.imp_right Json.SameId.symm) (And.imp_right Json.IdRespelled.symm)

lemma IdsRespelled.isReadable_eq {key : String} (h : IdsRespelled key j j') (levels : ℕ) :
    j.isReadable levels = j'.isReadable levels := by
  obtain ⟨-, h⟩ | ⟨-, h⟩ := h
  · exact h.isReadable_eq levels
  · exact h.isReadable_eq levels

lemma end_respelled (h : Json.MembersRespelled IdsRespelled members members') {name : String}
    (hname : name ∈ ["from", "to"]) :
    (Json.member? members (field name)).map (Option.map EndEntry.ofJson?) =
      (Json.member? members' (field name)).map (Option.map EndEntry.ofJson?) := by
  obtain heq | ⟨key, j, j', hkey, hids, hmember, hmember'⟩ := Json.member?_respelled h (field name)
  · rw [heq]
  obtain rfl := List.mem_singleton.1 hkey
  obtain ⟨hother, -⟩ | ⟨-, hend⟩ := hids
  · have hnot : key ∉ ["from_node", "fromNode", "to_node", "toNode"] := by
      rcases List.mem_pair.1 hname with rfl | rfl <;> decide
    exact absurd hother hnot
  · simp [hmember, hmember', EndEntry.ofJson?_respelled hend]

lemma flatId_respelled (h : Json.MembersRespelled IdsRespelled members members')
    {names : List String} (hnames : ∀ name ∈ names, name ∉ ["from", "to"]) :
    (Json.member? members ⟨names, false⟩).bind (Json.optional? idOf?) =
      (Json.member? members' ⟨names, false⟩).bind (Json.optional? idOf?) := by
  obtain heq | ⟨key, j, j', hkey, hids, hmember, hmember'⟩ :=
    Json.member?_respelled h ⟨names, false⟩
  · rw [heq]
  obtain ⟨-, hid⟩ | ⟨hend, -⟩ := hids
  · simp [hmember, hmember', Json.optional?_idOf? hid]
  · exact absurd hend (hnames key hkey)

lemma flatText_respelled (h : Json.MembersRespelled IdsRespelled members members')
    {names : List String}
    (hnames : ∀ name ∈ names, name ∉ ["from", "to", "from_node", "fromNode", "to_node", "toNode"]) :
    Json.member? members ⟨names, false⟩ = Json.member? members' ⟨names, false⟩ := by
  obtain heq | ⟨key, j, j', hkey, hids, -⟩ := Json.member?_respelled h ⟨names, false⟩
  · exact heq
  have hnot := hnames key hkey
  obtain ⟨hkey', -⟩ | ⟨hkey', -⟩ := hids <;> simp_all

/-- The ends of a nested connection are read each by itself. -/
lemma nested?_eq (members : List (String × Json)) :
    nested? members =
      ((Json.member? members (field "from")).map (Option.map EndEntry.ofJson?)).bind fun start? =>
        ((Json.member? members (field "to")).map (Option.map EndEntry.ofJson?)).bind fun target? =>
          match start?, target? with
          | some start?, some target? =>
            start?.bind fun start => target?.map fun target =>
              ⟨start.node, start.output, target.node, target.input⟩
          | _, _ => none := by
  rw [nested?]
  rcases Json.member? members (field "from") with _ | _ | start <;>
    rcases Json.member? members (field "to") with _ | _ | target <;> try rfl
  simp only [Option.bind_eq_bind, Option.bind_some, Option.map_some]
  cases EndEntry.ofJson? start with
  | none => rfl
  | some start => cases EndEntry.ofJson? target <;> rfl

/-- The members of a flat connection are read each by itself. -/
lemma flat?_eq (members : List (String × Json)) :
    flat? members =
      ((Json.member? members ⟨["from_node", "fromNode"], false⟩).bind (Json.optional? idOf?)).bind
        fun fromNode =>
      ((Json.member? members ⟨["from_output", "fromOutput"], false⟩).bind
        (Json.optional? Json.text?)).bind fun fromOutput =>
      ((Json.member? members ⟨["to_node", "toNode"], false⟩).bind (Json.optional? idOf?)).bind
        fun toNode =>
      ((Json.member? members ⟨["to_input", "toInput"], false⟩).bind (Json.optional? Json.text?)).map
        fun toInput => ⟨fromNode, fromOutput, toNode, toInput⟩ := by
  simp only [flat?, Option.bind_eq_bind, Option.bind_assoc, Option.map_eq_bind, Option.pure_def]
  rfl

lemma ofJson?_idsRespelled (h : Json.MembersRespelled IdsRespelled members members') :
    ofJson? (.object members) = ofJson? (.object members') := by
  have hreadable :
      (Json.object members).isReadable depth = (Json.object members').isReadable depth :=
    Json.membersReadable_respelled (fun _ _ _ hids => hids.isReadable_eq _) h
  have hnested : nested? members = nested? members' := by
    rw [nested?_eq, nested?_eq, end_respelled h (by simp), end_respelled h (by simp)]
  have hflat : flat? members = flat? members' := by
    rw [flat?_eq, flat?_eq, flatId_respelled h (by simp), flatId_respelled h (by simp),
      flatText_respelled h (by simp), flatText_respelled h (by simp)]
  simp only [ofJson?, hreadable, hnested, hflat]

end ConnectionEntry

end Dataflow
