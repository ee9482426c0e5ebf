import Mathlib.Logic.Relation
import Dataflow.Proofs.Graph.Ends
import Dataflow.Proofs.Json.Compact

/-!
# Spellings of a description

Descriptions that differ in how ids are written and in the form of their connections give the same
graph (`Graph.ofText_respelled`).  A connection is changed in steps, each of which is a change of
ids or of the form.  An entry that is read before a step is read after it, but for one case: a
connection in nested form with an ill-typed part is read as an entry without any part, and in flat
form it is not read at all.  Such an entry makes no graph, so that graphs are the same for all
descriptions, and faults are the same where the parts are well typed.
-/

namespace Dataflow

variable {j j' : Json} {members members' : List (String × Json)}

namespace ConnectionEntry

/-- One step in writing a connection in another way: its ids change, or its form.  A change
between the nested and the flat form may be restricted to some ends. -/
inductive Step (T : Ends → Prop) : Json → Json → Prop where
  | ids {members members' : List (String × Json)}
      (h : Json.MembersRespelled IdsRespelled members members') :
      Step T (.object members) (.object members')
  | form {e : Ends} {extra : List (String × Json)} {form form' : Ends.Form} {j j' : Json}
      (hextra : ∀ m ∈ extra, m.1 ∉ Ends.reserved) (h : Ends.Spelled e extra form j)
      (h' : Ends.Spelled e extra form' j') (hT : form ≠ form' → T e) : Step T j j'

/-- A connection and the same written in another way. -/
def Respelled (T : Ends → Prop) : Json → Json → Prop := Relation.ReflTransGen (Step T)

variable {T : Ends → Prop} {Q : ConnectionEntry → Prop} {c : ConnectionEntry}

lemma Step.symm (h : Step T j j') : Step T j' j := by
  cases h with
  | ids h => exact .ids (h.symm fun _ _ _ => IdsRespelled.symm)
  | form hextra h h' hT => exact .form hextra h' h fun hne => hT hne.symm

lemma Respelled.symm (h : Respelled T j j') : Respelled T j' j := by
  induction h with
  | refl => exact .refl
  | tail _ hstep ih => exact .head hstep.symm ih

lemma Step.ofJson? (hT : ∀ e, T e → e.WellTyped ∨ ¬ Q blank) (h : Step T j j')
    (hj : ConnectionEntry.ofJson? j = some c) (hc : Q c) : ConnectionEntry.ofJson? j' = some c := by
  cases h with
  | ids h => rw [← hj, ofJson?_idsRespelled h]
  | @form e extra form form' _ _ hextra h h' hT' =>
    rw [Ends.ofJson?_spelled hextra h] at hj
    rw [Ends.ofJson?_spelled hextra h']
    by_cases hform : form = form'
    · rw [← hform, hj]
    by_cases htyped : e.WellTyped
    · obtain ⟨entry, hentry⟩ := Option.isSome_iff_exists.1 ((Ends.isSome_entry? e).2 htyped)
      have hread : ∀ form, Ends.formEntry? e form = some entry := by
        intro form
        cases form <;> simp [Ends.formEntry?, hentry]
      simpa only [htyped.isReadable, Bool.true_and, hread] using hj
    · -- one of the ends cannot be read, and what is left of the nested form has no part
      have hblank := (hT e (hT' hform)).resolve_left htyped
      have hnone : e.entry? = none := by
        rwa [← Option.not_isSome_iff_eq_none, Ends.isSome_entry?]
      cases form with
      | flat => simp [Ends.formEntry?, hnone] at hj
      | nested =>
        rw [show Ends.formEntry? e .nested = some blank by simp [Ends.formEntry?, hnone]] at hj
        obtain ⟨-, rfl⟩ : _ ∧ blank = c := by simpa using hj
        exact absurd hc hblank

/-- **A connection that is written in another way is read as the same entry.** -/
lemma Respelled.ofJson? (hT : ∀ e, T e → e.WellTyped ∨ ¬ Q blank) (h : Respelled T j j')
    (hj : ConnectionEntry.ofJson? j = some c) (hc : Q c) :
    ConnectionEntry.ofJson? j' = some c := by
  induction h with
  | refl => exact hj
  | tail _ hstep ih => exact hstep.ofJson? hT ih hc

end ConnectionEntry

/-! ## Descriptions -/

/-- A list, and the same with items that are written in another way. -/
inductive Json.ListRespelled (R : Json → Json → Prop) : Json → Json → Prop where
  | same (j : Json) : ListRespelled R j j
  | items {items items' : List Json} (h : List.Forall₂ R items items') :
      ListRespelled R (.array items) (.array items')

lemma Json.ListRespelled.symm {R : Json → Json → Prop} (hR : ∀ j j', R j j' → R j' j)
    (h : ListRespelled R j j') : ListRespelled R j' j := by
  cases h with
  | same => exact .same j
  | items h => exact .items (h.imp hR).flip

namespace Description

/-- A part of a description, and the same with nodes or connections that are written in another
way. -/
def PartRespelled (T : Ends → Prop) (key : String) (j j' : Json) : Prop :=
  key = "nodes" ∧ Json.ListRespelled (Json.IdRespelled "id") j j' ∨
    key = "connections" ∧ Json.ListRespelled (ConnectionEntry.Respelled T) j j'

/-- A description, and the same with nodes and connections that are written in another way. -/
inductive Respelled (T : Ends → Prop) : Json → Json → Prop where
  | object {members members' : List (String × Json)}
      (h : Json.MembersRespelled (PartRespelled T) members members') :
      Respelled T (.object members) (.object members')
  | array {nodes nodes' : Json} {rest rest' : List Json}
      (hnodes : Json.ListRespelled (Json.IdRespelled "id") nodes nodes')
      (hrest : List.Forall₂ (Json.ListRespelled (ConnectionEntry.Respelled T)) rest rest') :
      Respelled T (.array (nodes :: rest)) (.array (nodes' :: rest'))

variable {T : Ends → Prop} {Q : ConnectionEntry → Prop} {d : Description}

lemma PartRespelled.symm {key : String} (h : PartRespelled T key j j') :
    PartRespelled T key j' j := by
  obtain ⟨hkey, h⟩ | ⟨hkey, h⟩ := h
  · exact .inl ⟨hkey, h.symm fun _ _ => Json.IdRespelled.symm⟩
  · exact .inr ⟨hkey, h.symm fun _ _ => ConnectionEntry.Respelled.symm⟩

lemma Respelled.symm (h : Respelled T j j') : Respelled T j' j := by
  cases h with
  | object h => exact .object (h.symm fun _ _ _ => PartRespelled.symm)
  | array hnodes hrest =>
    have hrest' := hrest.imp fun _ _ hj => hj.symm fun _ _ => ConnectionEntry.Respelled.symm
    exact .array (hnodes.symm fun _ _ => Json.IdRespelled.symm) hrest'.flip

/-- How the nodes of a description are read. -/
def nodesOf? (nodes : Option Json) : Option (Option (List NodeEntry)) :=
  Json.optional? (fun j => Json.listOrEmpty? NodeEntry.ofJson? (some j)) nodes

lemma nodesOf?_respelled (h : Json.ListRespelled (Json.IdRespelled "id") j j') :
    nodesOf? (some j) = nodesOf? (some j') := by
  cases h with
  | same => rfl
  | @items items items' h =>
    have hitems : items.mapM NodeEntry.ofJson? = items'.mapM NodeEntry.ofJson? :=
      mapM_eq_of_forall₂ (h.imp fun _ _ => NodeEntry.ofJson?_respelled)
    simp [nodesOf?, Json.optional?, Json.listOrEmpty?, Json.array?, hitems]

lemma mapM_respelled (hT : ∀ e, T e → e.WellTyped ∨ ¬ Q .blank) {items items' : List Json}
    {cs : List ConnectionEntry} (h : List.Forall₂ (ConnectionEntry.Respelled T) items items')
    (hitems : items.mapM ConnectionEntry.ofJson? = some cs) (hcs : ∀ c ∈ cs, Q c) :
    items'.mapM ConnectionEntry.ofJson? = some cs := by
  induction h generalizing cs with
  | nil => exact hitems
  | cons hj _ ih =>
    simp only [List.mapM_cons, Option.bind_eq_bind, Option.bind_eq_some_iff, Option.pure_def]
      at hitems
    obtain ⟨c, hc, more, hmore, hcons⟩ := hitems
    obtain rfl := Option.some.inj hcons
    obtain ⟨hQ, hQ'⟩ := List.forall_mem_cons.1 hcs
    rw [List.mapM_cons, hj.ofJson? hT hc hQ, ih hmore hQ']
    rfl

lemma connections_respelled (hT : ∀ e, T e → e.WellTyped ∨ ¬ Q .blank)
    {cs : List ConnectionEntry} (h : Json.ListRespelled (ConnectionEntry.Respelled T) j j')
    (hj : Json.listOrEmpty? ConnectionEntry.ofJson? (some j) = some cs) (hcs : ∀ c ∈ cs, Q c) :
    Json.listOrEmpty? ConnectionEntry.ofJson? (some j') = some cs := by
  cases h with
  | same => exact hj
  | items h => exact mapM_respelled hT h hj hcs

lemma ofJson?_object (members : List (String × Json)) :
    ofJson? (.object members) =
      ((Json.member? members (field "nodes")).bind nodesOf?).bind fun nodes =>
        ((Json.member? members (trailing "connections")).bind
          (Json.listOrEmpty? ConnectionEntry.ofJson?)).map fun connections =>
            ⟨nodes, connections⟩ := by
  rw [ofJson?]
  simp only [Json.fields?, List.mapM_cons, List.mapM_nil, Option.bind_eq_bind, Option.pure_def]
  cases Json.member? members (field "nodes") with
  | none => rfl
  | some nodes =>
    cases Json.member? members (trailing "connections") with
    | none =>
      simp
    | some connections => simp [nodesOf?, Option.map_eq_bind]

lemma ofJson?_singleton (nodes : Json) :
    ofJson? (.array [nodes]) = (nodesOf? (some nodes)).bind fun nodes => some ⟨nodes, []⟩ := rfl

lemma ofJson?_pair (nodes connections : Json) :
    ofJson? (.array [nodes, connections]) =
      (nodesOf? (some nodes)).bind fun nodes =>
        (Json.listOrEmpty? ConnectionEntry.ofJson? (some connections)).bind fun connections =>
          some ⟨nodes, connections⟩ := rfl

lemma nodes_respelled (h : Json.MembersRespelled (PartRespelled T) members members') :
    (Json.member? members (field "nodes")).bind nodesOf? =
      (Json.member? members' (field "nodes")).bind nodesOf? := by
  obtain heq | ⟨key, j, j', hkey, hpart, hmember, hmember'⟩ :=
    Json.member?_respelled h (field "nodes")
  · rw [heq]
  obtain rfl := List.mem_singleton.1 hkey
  obtain ⟨-, hnodes⟩ | ⟨hkey, -⟩ := hpart
  · rw [hmember, hmember', Option.bind_some, Option.bind_some, nodesOf?_respelled hnodes]
  · simp at hkey

lemma member_connections_respelled (hT : ∀ e, T e → e.WellTyped ∨ ¬ Q .blank)
    {cs : List ConnectionEntry} (h : Json.MembersRespelled (PartRespelled T) members members')
    (hmembers : (Json.member? members (trailing "connections")).bind
      (Json.listOrEmpty? ConnectionEntry.ofJson?) = some cs) (hcs : ∀ c ∈ cs, Q c) :
    (Json.member? members' (trailing "connections")).bind
      (Json.listOrEmpty? ConnectionEntry.ofJson?) = some cs := by
  obtain heq | ⟨key, j, j', hkey, hpart, hmember, hmember'⟩ :=
    Json.member?_respelled h (trailing "connections")
  · rwa [← heq]
  obtain rfl := List.mem_singleton.1 hkey
  obtain ⟨hkey, -⟩ | ⟨-, hconnections⟩ := hpart
  · simp at hkey
  · rw [hmember, Option.bind_some] at hmembers
    rw [hmember', Option.bind_some]
    exact connections_respelled hT hconnections hmembers hcs

/-- **A description that is written in another way is read as the same description.** -/
lemma Respelled.ofJson? (hT : ∀ e, T e → e.WellTyped ∨ ¬ Q .blank) (h : Respelled T j j')
    (hj : Description.ofJson? j = some d) (hd : ∀ c ∈ d.connections, Q c) :
    Description.ofJson? j' = some d := by
  cases h with
  | @object members members' h =>
    rw [ofJson?_object, nodes_respelled h] at hj
    obtain ⟨nodes, hnodes, hj⟩ := Option.bind_eq_some_iff.1 hj
    obtain ⟨cs, hcs, rfl⟩ := Option.map_eq_some_iff.1 hj
    rw [ofJson?_object, hnodes, member_connections_respelled hT h hcs hd]
    rfl
  | @array nodes nodes' rest rest' hnodes hrest =>
    match rest, rest', hrest with
    | [], [], .nil => rw [← hj, ofJson?_singleton, ofJson?_singleton, nodesOf?_respelled hnodes]
    | [_], [_], .cons hconnections .nil =>
      rw [ofJson?_pair, nodesOf?_respelled hnodes] at hj
      obtain ⟨nodes, hnodes, hj⟩ := Option.bind_eq_some_iff.1 hj
      obtain ⟨cs, hcs, hj⟩ := Option.bind_eq_some_iff.1 hj
      obtain rfl := Option.some.inj hj
      rw [ofJson?_pair, hnodes, Option.bind_some,
        connections_respelled hT hconnections hcs hd, Option.bind_some]
    | _ :: _ :: _, _ :: _ :: _, .cons _ (.cons _ _) => cases hj

end Description

/-! ## Graphs -/

/-- An entry of which no part is missing. -/
def ConnectionEntry.Complete (c : ConnectionEntry) : Prop :=
  ∃ position connection, c.connection position = .ok connection

lemma ConnectionEntry.not_complete_blank : ¬ blank.Complete := by
  rintro ⟨position, connection, h⟩
  cases h

variable {text text' : String} {d : Description}

lemma Description.complete_of_parts {parts : List Node × List Connection}
    (h : d.parts = .ok parts) : ∀ c ∈ d.connections, c.Complete := by
  intro c hc
  obtain ⟨entries, -, h⟩ := exists_of_bind_eq_ok h
  obtain ⟨nodes, -, h⟩ := exists_of_bind_eq_ok h
  obtain ⟨connections, hconnections, -⟩ := exists_of_bind_eq_ok h
  obtain ⟨position, hposition⟩ := List.mem_iff_getElem?.1 hc
  obtain ⟨connection, hconnection⟩ := ok_of_mapM_eq_ok hconnections
    (List.mk_mem_zipIdx_iff_getElem?.2 hposition)
  exact ⟨position, connection, hconnection⟩

namespace Graph

lemma ofText_congr (h : Description.ofText? text = Description.ofText? text') :
    ofText text = ofText text' := by
  rw [ofText, ofText, Description.partsOfText, Description.partsOfText, h]

lemma ofText_of_respelled {g : Graph} (hj : Json.scan? text = some j)
    (hj' : Json.scan? text' = some j') (h : Description.Respelled (fun _ => True) j j')
    (hg : ofText text = .ok g) : ofText text' = .ok g := by
  obtain ⟨parts, hparts, -⟩ := exists_of_bind_eq_ok hg
  obtain ⟨d, hd, hparts⟩ := exists_of_bind_eq_ok hparts
  have hread : Description.ofText? text = some d := eq_some_of_required hd
  have hread' : Description.ofText? text' = some d := by
    rw [Description.ofText?, hj] at hread
    rw [Description.ofText?, hj']
    exact h.ofJson? (fun _ _ => .inr ConnectionEntry.not_complete_blank) hread
      (Description.complete_of_parts hparts)
  rw [← hg]
  exact ofText_congr (hread'.trans hread.symm)

/-- **A graph does not depend on how its description is written.**  The descriptions of two texts
that differ in the spelling of ids and in the form of connections give the same graph if they give
one, and the same fault if the parts of a connection whose form changes are well typed. -/
theorem ofText_respelled (hj : Json.scan? text = some j) (hj' : Json.scan? text' = some j') :
    (Description.Respelled (fun _ => True) j j' →
      ∀ g, ofText text = .ok g ↔ ofText text' = .ok g) ∧
    (Description.Respelled Ends.WellTyped j j' → ofText text = ofText text') := by
  refine ⟨fun h g => ⟨ofText_of_respelled hj hj' h, ofText_of_respelled hj' hj h.symm⟩,
    fun h => ofText_congr ?_⟩
  have hread : ∀ {j j' : Json}, Description.Respelled Ends.WellTyped j j' → ∀ d,
      Description.ofJson? j = some d → Description.ofJson? j' = some d :=
    fun h d hd => h.ofJson? (Q := fun _ => True) (fun _ htyped => .inl htyped) hd fun _ _ => trivial
  rw [Description.ofText?, Description.ofText?, hj, hj', Option.bind_some, Option.bind_some]
  exact Option.ext fun d => ⟨hread h d, hread h.symm d⟩

/-! ### Descriptions of two nodes -/

/-- A description of two nodes with the given ids and of one connection. -/
def linking (source target connection : Json) : Json :=
  .object [("nodes", .array [
      .object [("id", source), ("outputs", .array [.object [("name", .text "x")]])],
      .object [("id", target), ("inputs", .array [.object [("name", .text "v")]]),
        ("outputs", .array [])]]),
    ("connections", .array [connection])]

/-- A connection in nested form. -/
def nestedLink (source output target input : Json) : Json :=
  .object [("from", .object [("node", source), ("output", output)]),
    ("to", .object [("node", target), ("input", input)])]

/-- A connection in flat form. -/
def flatLink (source output target input : Json) : Json :=
  .object [("fromNode", source), ("fromOutput", output), ("toNode", target), ("toInput", input)]

/-- The graph that is described. -/
def linked : Graph where
  nodes := [⟨"1", "1", [], [⟨"x", none⟩], none, none, none⟩,
    ⟨"2", "2", [⟨"v", none, none⟩], [], none, none, none⟩]
  connections := [⟨"1", "x", "2", "v"⟩]
  valid := valid_of_fault?_eq_none (by decide)

lemma nestedLink_respelled {T : Ends → Prop} (source output target input : Json)
    (hT : T (.ofParts source output target input)) :
    ConnectionEntry.Step T (nestedLink source output target input)
      (flatLink source output target input) := by
  have hnested : Ends.Spelled (.ofParts source output target input) [] .nested
      (nestedLink source output target input) := .nested (.refl _) (.refl _) (.refl _)
  have hflat : Ends.Spelled (.ofParts source output target input) [] .flat
      (flatLink source output target input) := .flat Endpoint.camelCase_mem_spellings (.refl _)
  exact .form (by simp) hnested hflat fun _ => hT

lemma linking_respelled {T : Ends → Prop}
    {source source' target target' connection connection' : Json}
    (hsource : Json.SameId source source') (htarget : Json.SameId target target')
    (h : ConnectionEntry.Respelled T connection connection') :
    Description.Respelled T (linking source target connection)
      (linking source' target' connection') := by
  have hnode : ∀ {id id' : Json} (ms : List (String × Json)), Json.SameId id id' →
      Json.IdRespelled "id" (.object (("id", id) :: ms)) (.object (("id", id') :: ms)) :=
    fun ms h => .object (.cons ⟨rfl, .inr ⟨rfl, h⟩⟩
      (List.forall₂_same.2 fun _ _ => ⟨rfl, .inl rfl⟩))
  exact .object (.cons ⟨rfl, .inr (.inl ⟨rfl, .items (.cons (hnode _ hsource)
    (.cons (hnode _ htarget) .nil))⟩)⟩ (.cons ⟨rfl, .inr (.inr ⟨rfl, .items (.cons h .nil)⟩)⟩ .nil))

/-- The ids of the nodes and of the ends change, and the form of the connection. -/
theorem ofText_respelled_linked :
    ofText (linking (.int 1) (.text "2")
        (nestedLink (.text "1") (.text "x") (.int 2) (.text "v"))).compact = .ok linked ∧
      ofText (linking (.text "1") (.text "2")
        (flatLink (.int 1) (.text "x") (.int 2) (.text "v"))).compact = .ok linked := by
  have hids : ConnectionEntry.Step Ends.WellTyped
      (flatLink (.text "1") (.text "x") (.int 2) (.text "v"))
      (flatLink (.int 1) (.text "x") (.int 2) (.text "v")) :=
    .ids (.cons ⟨rfl, .inr (.inl ⟨by simp, .int (n := 1) (by decide)⟩)⟩
      (List.forall₂_same.2 fun _ _ => ⟨rfl, .inl rfl⟩))
  have hforms := nestedLink_respelled (T := Ends.WellTyped) (.text "1") (.text "x") (.int 2)
    (.text "v") fun part => by
      cases part <;> simp [Endpoint.Admits, Ends.ofParts]
      decide
  have hrespelled := linking_respelled (.text (n := 1) (by decide)) (.refl (.text "2"))
    (.tail (.single hforms) hids)
  have htext : ofText (linking (.int 1) (.text "2")
      (nestedLink (.text "1") (.text "x") (.int 2) (.text "v"))).compact = .ok linked := by
    rw [ofText, Description.partsOfText, Description.ofText?, Json.scan?_compact (by decide)]
    rfl
  have hsame := (ofText_respelled (Json.scan?_compact (by decide))
    (Json.scan?_compact (by decide))).2 hrespelled
  exact ⟨htext, hsame.symm.trans htext⟩

/-- The name of an output that is no text is found in flat form, and in nested form it makes all
parts of the connection go missing. -/
theorem fault_of_illTyped :
    ofText (linking (.int 1) (.int 2)
        (flatLink (.text "1") (.int 5) (.text "2") (.text "v"))).compact = .error .unreadable ∧
      ofText (linking (.int 1) (.int 2)
        (nestedLink (.text "1") (.int 5) (.text "2") (.text "v"))).compact =
          .error (.incomplete 0 .fromNode) ∧
      ¬ ∀ text text' j j', Json.scan? text = some j → Json.scan? text' = some j' →
        Description.Respelled (fun _ => True) j j' → ofText text = ofText text' := by
  have hflat : ofText (linking (.int 1) (.int 2)
      (flatLink (.text "1") (.int 5) (.text "2") (.text "v"))).compact = .error .unreadable := by
    rw [ofText, Description.partsOfText, Description.ofText?, Json.scan?_compact (by decide)]
    rfl
  have hnested : ofText (linking (.int 1) (.int 2)
      (nestedLink (.text "1") (.int 5) (.text "2") (.text "v"))).compact =
        .error (.incomplete 0 .fromNode) := by
    rw [ofText, Description.partsOfText, Description.ofText?, Json.scan?_compact (by decide)]
    rfl
  refine ⟨hflat, hnested, fun h => ?_⟩
  have hrespelled := linking_respelled (.refl (.int 1)) (.refl (.int 2))
    (.single (nestedLink_respelled (T := fun _ => True) (.text "1") (.int 5) (.text "2") (.text "v")
      trivial))
  have hsame := h _ _ _ _ (Json.scan?_compact (by decide)) (Json.scan?_compact (by decide))
    hrespelled
  rw [hflat, hnested] at hsame
  cases hsame

end Graph

end Dataflow
