import Provenance.Proofs.DocumentChecks
import Provenance.Proofs.StoreIndex

/-! The ids and the types that a written document shows. The id and the types of a node
are written first, so that a property under the same name takes their place. -/

namespace Provenance.Graph

variable {n : Node} {s : Store} {id key : String}

/-- The types of a node as one value. A single type stands alone. -/
def typesJson : List String → Json
  | [single] => .string single
  | several => .texts several

namespace Node

/-- No property under a name is written as anything but a given value. -/
def Keeps (key : String) (own : Json) (n : Node) : Prop := ∀ value, n.property? key = some value → value.toJson = own

/-- What is written under a name: the property of this name, or else a value of the node's own. -/
def shown (key : String) (own : Json) (n : Node) : Json := ((n.property? key).map Property.toJson).getD own

private theorem shown_eq_iff {own : Json} : n.shown key own = own ↔ n.Keeps key own := by
  unfold shown Keeps
  cases n.property? key <;> simp

private theorem keeps_of_absent {own : Json} (absent : n.property? key = none) : n.Keeps key own := by
  intro value stored
  rw [absent] at stored
  cases stored

/-- What a node is written as. -/
structure WrittenAs (n : Node) (value : Json) : Prop where
  object : value.isObject = true
  id : value.get? "@id" = some (n.shown "@id" (.string n.id))
  types : value.get? "@type" = some (n.shown "@type" (typesJson n.types))
  others : ∀ key, key ≠ "@id" → key ≠ "@type" → value.get? key = (n.property? key).map Property.toJson

private theorem members_eq (n : Node) : n.members = [("@id", .string n.id), ("@type", typesJson n.types)] ++
    Entries.mapped (fun _ value => value.toJson) n.properties.entries := rfl

theorem get?_toJson (n : Node) (key : String) : n.toJson.get? key = ((n.property? key).map Property.toJson).or
    (Entries.get? key [("@id", .string n.id), ("@type", typesJson n.types)]) := by
  -- Properties have distinct names, so only the two members before them can be replaced.
  have properties : Entries.collect (Entries.mapped (fun _ value => Property.toJson value) n.properties.entries) =
      Entries.mapped (fun _ value => value.toJson) n.properties.entries := by
    rw [← Entries.mapped_collect, Entries.collect_of_nodup n.properties.distinct]
  rw [toJson, Json.ofMembers, Json.get?, members_eq, Entries.get?_collect_append, properties, Entries.get?_mapped]
  rfl

private theorem toJson_writtenAs (n : Node) : n.WrittenAs n.toJson where
  object := rfl
  id := by
    rw [get?_toJson, shown]
    cases n.property? "@id" <;> rfl
  types := by
    rw [get?_toJson, shown]
    cases n.property? "@type" <;> rfl
  others := by
    intro key notId notType
    rw [get?_toJson]
    simp [Entries.get?, Ne.symm notId, Ne.symm notType]

end Node

/-- The values that the nodes of a document are written as. Ids and types come out as the nodes
have them exactly when no property says something else in their place. -/
structure Document.Writes (d : Document) (values : List Json) : Prop where
  graph : d.toJson.get? "@graph" = some (.array values)
  nodes : List.Forall₂ Node.WrittenAs d.nodes values
  ids : values.map (·.get? "@id") = d.ids.map (fun id => some (.string id)) ↔
    ∀ node ∈ d.nodes, node.Keeps "@id" (.string node.id)
  types : values.map (·.get? "@type") = d.nodes.map (fun node => some (typesJson node.types)) ↔
    ∀ node ∈ d.nodes, node.Keeps "@type" (typesJson node.types)

private theorem Document.writes_nodes (d : Document) : d.Writes (d.nodes.map Node.toJson) where
  graph := rfl
  nodes := by
    rw [List.forall₂_map_right_iff, List.forall₂_same]
    exact fun node _ => node.toJson_writtenAs
  ids := by
    rw [Document.ids, List.map_map, List.map_map, List.map_inj_left]
    refine forall₂_congr fun node _ => ?_
    rw [Function.comp_apply, Function.comp_apply, node.toJson_writtenAs.id, Option.some.injEq, Node.shown_eq_iff]
  types := by
    rw [List.map_map, List.map_inj_left]
    refine forall₂_congr fun node _ => ?_
    rw [Function.comp_apply, node.toJson_writtenAs.types, Option.some.injEq, Node.shown_eq_iff]

namespace Store

def Call.added? : Call → Option String
  | .add node => some node.id
  | .setProperty .. => none

/-- A call writes no property under a name. -/
def Call.Avoids (key : String) : Call → Prop
  | .add node => node.property? key = none
  | .setProperty _ written _ => written ≠ key

theorem run_concat (s : Store) (calls : List Call) (call : Call) :
    s.run (calls ++ [call]) = ((s.run calls).answer call).2 := by
  rw [run, List.foldl_concat]
  rfl

private theorem Indexed.ids_answer (indexed : s.Indexed) (call : Call) :
    (s.answer call).2.ids = match call.added? with
      | some id => if id ∈ s.ids then s.ids else s.ids ++ [id]
      | none => s.ids := by
  cases call with
  | add node =>
    have adds := indexed.adds node
    dsimp only [Call.added?]
    split
    next old => rw [adds.repeats old]
    next new =>
      rw [adds.appends new]
      simp [Document.ids]
  | setProperty id key value =>
    have sets := indexed.sets id key value
    by_cases known : id ∈ s.ids
    · have same : ∀ old new : Node,
          (if old.id = id then old.Patched new key value else new = old) → old.id = new.id := by
        intro old new change
        split at change
        next => exact change.id.symm
        next => rw [change]
      exact (Outcome.map_eq_of_forall₂ (sets.changes known) same).symm
    · have fails : ∃ fault, (s.answer (.setProperty id key value)).1 = .error fault := by
        cases answered : (s.answer (.setProperty id key value)).1 with
        | ok _ => exact absurd (sets.succeeds.1 answered) known
        | error fault => exact ⟨fault, rfl⟩
      obtain ⟨fault, failed⟩ := fails
      rw [indexed.lawful.unchanged _ fault failed]
      rfl

/-- Nodes stand in the order in which their ids were first added. -/
theorem ids_run (context : String) (calls : List Call) :
    (run { context } calls).ids = (calls.filterMap Call.added?).eraseDups := by
  induction calls using List.reverseRecOn with
  | nil => rfl
  | append_singleton calls call ih =>
    have indexed := (Indexed.empty context).run calls
    rw [run_concat, indexed.ids_answer, ih, List.filterMap_append]
    cases added : call.added? with
    | none => simp [added]
    | some id => simp [added, eraseDups_concat]

private theorem Indexed.nodes_answer (indexed : s.Indexed) (call : Call) (avoids : call.Avoids key)
    (absent : ∀ node ∈ s.nodes, node.property? key = none) :
    ∀ node ∈ (s.answer call).2.nodes, node.property? key = none := by
  cases indexed.answers call with
  | failed fault answered _ =>
    rw [answered]
    exact absent
  | done after answered _ _ =>
    cases call with
    | add node =>
      have adds := indexed.adds node
      by_cases known : node.id ∈ s.ids
      · rw [adds.repeats known]
        exact absent
      · rw [adds.appends known]
        exact List.forall_mem_append.2 ⟨absent, List.forall_mem_singleton.2 avoids⟩
    | setProperty id written value =>
      have sets := indexed.sets id written value
      have known : id ∈ s.ids := sets.succeeds.1 (congrArg Prod.fst answered)
      intro new member
      obtain ⟨old, stored, change⟩ := (Outcome.forall₂_partners (sets.changes known)).2 new member
      split at change
      next => rw [change.others key (Ne.symm avoids), absent old stored]
      next => rw [change, absent old stored]

private theorem absent_run (context : String) {calls : List Call} (avoid : ∀ call ∈ calls, call.Avoids key) :
    ∀ node ∈ (run { context } calls).nodes, node.property? key = none := by
  induction calls using List.reverseRecOn with
  | nil => exact List.forall_mem_nil _
  | append_singleton calls call ih =>
    obtain ⟨earlier, last⟩ := List.forall_mem_append.1 avoid
    rw [run_concat]
    exact ((Indexed.empty context).run calls).nodes_answer call (List.forall_mem_singleton.1 last) (ih earlier)

/-- What is written of a store after some calls. The nodes stand in the order in which their ids
were added. As long as no property takes the place of an id, the written ids are those that the
store contains, each of them once. -/
structure Written (s : Store) (calls : List Call) (values : List Json) : Prop extends s.toDocument.Writes values where
  order : s.ids = (calls.filterMap Call.added?).eraseDups
  identified : (∀ node ∈ s.nodes, node.Keeps "@id" (.string node.id)) →
    (values.map (·.get? "@id")).Nodup ∧ ∀ id, s.contains id = true ↔ some (.string id) ∈ values.map (·.get? "@id")
  ids_avoided : (∀ call ∈ calls, call.Avoids "@id") → ∀ node ∈ s.nodes, node.Keeps "@id" (.string node.id)
  types_avoided : (∀ call ∈ calls, call.Avoids "@type") → ∀ node ∈ s.nodes, node.Keeps "@type" (typesJson node.types)

/-- Every run of calls leaves a document that is written node by node in the order of adding. Ids
and types come out as the nodes have them exactly when the properties under their names agree. -/
theorem runs_write_ids_or_properties (context : String) (calls : List Call) :
    ∃ values, (run { context } calls).Written calls values := by
  have indexed := (Indexed.empty context).run calls
  have writes := (run { context } calls).writes_nodes
  refine ⟨_, writes, ids_run context calls, fun keeps => ?_, fun avoid node stored => ?_, fun avoid node stored => ?_⟩
  · have injective : Function.Injective fun id => some (Json.string id) := by
      intro a b same
      exact Json.string.inj (Option.some.inj same)
    rw [writes.ids.2 keeps, List.nodup_map_iff injective]
    refine ⟨indexed.distinct, fun id => ?_⟩
    rw [indexed.contains_iff, List.mem_map_of_injective injective]
  · exact Node.keeps_of_absent (absent_run context avoid node stored)
  · exact Node.keeps_of_absent (absent_run context avoid node stored)

/-- Two nodes, the second of which is given the id of the first as a property. -/
def renamedStore : Store := run { context := "c" }
  [.add { id := "a", types := ["T"] }, .add { id := "b", types := ["T"] }, .setProperty "b" "@id" (.text "a")]

/-- A property takes the place of an id: two nodes are written under one id, and the other id,
which the store contains, is nowhere in what is written. -/
theorem property_takes_the_id : renamedStore.ids = ["a", "b"] ∧ renamedStore.contains "b" = true ∧
    renamedStore.toDocument.toJson.get? "@graph" = some (.array
      [.object [("@id", .string "a"), ("@type", .string "T")],
        .object [("@id", .string "a"), ("@type", .string "T")]]) :=
  ⟨rfl, rfl, rfl⟩

end Store

end Provenance.Graph
