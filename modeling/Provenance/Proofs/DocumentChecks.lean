import Provenance.Proofs.SchemaAcceptance

/-! Validation of a document in terms of its nodes and their properties. What is
checked on the written value is read back as a condition on each node. -/

namespace Provenance.Graph

open Schema (Rule Table)

/-- No property is written in the place of the id or the types. -/
def Node.Plain (n : Node) : Prop := "@id" ∉ n.properties.keys ∧ "@type" ∉ n.properties.keys

/-- The rules for a node: those of the base type and of each of its types. -/
def Node.Governed (table : Table) (n : Node) (rules : List Rule) : Prop :=
  n.types ≠ [] ∧ List.Forall₂ (fun type rule => table.get? type = some rule) (Schema.baseType :: n.types) rules

/-- A node keeps to rules, where its links may lead to the given ids. -/
structure Node.Obeys (rules : List Rule) (ids : List String) (n : Node) : Prop where
  permitted : ∀ key ∈ n.properties.keys, ∃ rule ∈ rules, rule.permits key = true
  present : ∀ rule ∈ rules, ∀ key ∈ rule.required, key ∈ "@id" :: "@type" :: n.properties.keys
  suited : ∀ key value, (key, value) ∈ n.properties.entries → Schema.Suits rules ids key value.toJson

namespace Property

/-- The ids a property refers to. An empty list of texts is written like one of links. -/
def targets? : Property → Option (List String)
  | .link id => some [id]
  | .links ids => some ids
  | .texts [] => some []
  | _ => none

def isPlain : Property → Bool
  | .text _ | .texts _ | .links [] => true
  | _ => false

@[simp] theorem targets?_toJson (value : Property) : Schema.targets? value.toJson = value.targets? := by
  cases value with
  | text text => rfl
  | link id => rfl
  | links ids => exact Schema.mapM_linkTarget?_iff.2 rfl
  | texts texts =>
    cases texts with
    | nil => rfl
    | cons text rest => simp [toJson, Json.texts, Schema.targets?, Schema.linkTarget?, targets?]

@[simp] theorem isPlain_toJson (value : Property) : Schema.isPlain value.toJson = value.isPlain := by
  cases value with
  | text text => rfl
  | link id => rfl
  | links ids => cases ids <;> rfl
  | texts texts => simp [toJson, Json.texts, Schema.isPlain, Schema.isScalar, isPlain]

end Property

namespace Node

private theorem keys_members (n : Node) : n.members.map Prod.fst = "@id" :: "@type" :: n.properties.keys := by
  simp [members, OrderedMap.keys]

theorem toJson_of_plain {n : Node} (plain : n.Plain) : n.toJson = .object n.members := by
  have distinct : (n.members.map Prod.fst).Nodup := by
    rw [keys_members]
    exact List.nodup_cons.2 ⟨by simp [plain.1], List.nodup_cons.2 ⟨plain.2, n.properties.distinct⟩⟩
  rw [toJson, Json.ofMembers, Entries.collect_of_nodup distinct]

theorem textAt_id {n : Node} : (Json.object n.members).textAt? "@id" = some n.id := rfl

private theorem properties_members {n : Node} (plain : n.Plain) :
    Schema.properties n.members = n.properties.entries.map fun (key, value) => (key, value.toJson) := by
  have own : ∀ member ∈ n.properties.entries.map fun (key, value) => (key, Property.toJson value),
      (decide (member.1 ≠ "@id") && decide (member.1 ≠ "@type")) = true := by
    intro member inside
    obtain ⟨⟨key, value⟩, stored, rfl⟩ := List.mem_map.1 inside
    have known : key ∈ n.properties.keys := List.mem_map.2 ⟨_, stored, rfl⟩
    have apartId : key ≠ "@id" := fun same => plain.1 (same ▸ known)
    have apartType : key ≠ "@type" := fun same => plain.2 (same ▸ known)
    simp [apartId, apartType]
  simp only [Schema.properties, members, List.filter_cons, ne_eq, not_true_eq_false, decide_false,
    Bool.false_and, Bool.and_false, Bool.false_eq_true, if_false]
  exact List.filter_eq_self.2 own

private theorem typesOf_members {n : Node} {id : String} {types : List String} :
    Schema.typesOf id n.members = .ok types ↔ n.types ≠ [] ∧ types = n.types := by
  obtain ⟨name, known, properties⟩ := n
  match known with
  | [] => simp [Schema.typesOf, members, Entries.get?, Json.texts]
  | [single] => simp [Schema.typesOf, members, Entries.get?, eq_comm]
  | first :: second :: rest =>
    have read : Schema.typesOf id (Node.members ⟨name, first :: second :: rest, properties⟩) =
        .ok (first :: second :: rest) := Schema.mapM_text_eq_ok.2 rfl
    simp [read, eq_comm]

private theorem checkNode_members {n : Node} {table : Table} {ids : List String} (plain : n.Plain) :
    Schema.checkNode table ids n.id n.members = .ok () ↔
      ∃ rules, n.Governed table rules ∧ n.Obeys rules ids := by
  rw [Schema.checkNode_eq_ok]
  refine exists_congr fun rules => and_congr ?_ ?_
  · simp only [Schema.rulesOf_eq_ok, typesOf_members, Governed]
    exact ⟨fun ⟨types, ⟨typed, same⟩, known⟩ => ⟨typed, same ▸ known⟩,
      fun ⟨typed, known⟩ => ⟨n.types, ⟨typed, rfl⟩, known⟩⟩
  · constructor
    · intro follows
      refine ⟨?_, fun rule member key needed => ?_, fun key value stored => ?_⟩
      · intro key known
        obtain ⟨⟨_, value⟩, stored, rfl⟩ := List.mem_map.1 known
        apply follows.permitted (_, value.toJson)
        rw [properties_members plain]
        exact List.mem_map.2 ⟨_, stored, rfl⟩
      · rw [← keys_members]
        exact follows.present rule member key needed
      · apply follows.suited (key, value.toJson)
        rw [properties_members plain]
        exact List.mem_map.2 ⟨_, stored, rfl⟩
    · intro obeys
      refine ⟨fun member inside => ?_, fun rule member key needed => ?_, fun member inside => ?_⟩
      · rw [properties_members plain] at inside
        obtain ⟨⟨key, value⟩, stored, rfl⟩ := List.mem_map.1 inside
        exact obeys.permitted key (List.mem_map.2 ⟨_, stored, rfl⟩)
      · rw [keys_members]
        exact obeys.present rule member key needed
      · rw [properties_members plain] at inside
        obtain ⟨⟨key, value⟩, stored, rfl⟩ := List.mem_map.1 inside
        exact obeys.suited key value stored

end Node

namespace Document

private theorem identify_nodes (nodes : List Node) (index : Nat) (seen : List String)
    (plain : ∀ n ∈ nodes, n.Plain) (distinct : (nodes.map Node.id).Nodup) (fresh : ∀ n ∈ nodes, n.id ∉ seen) :
    Schema.identify index seen (nodes.map Node.toJson) = .ok (nodes.map fun n => (n.id, n.members)) := by
  induction nodes generalizing index seen with
  | nil => rfl
  | cons node rest ih =>
    simp only [List.map_cons, List.nodup_cons] at distinct
    have new : node.id ∉ seen := fresh node List.mem_cons_self
    have later := ih (index + 1) (node.id :: seen) (fun n member => plain n (List.mem_cons_of_mem _ member))
      distinct.2 (by
        intro n member
        simp only [List.mem_cons, not_or]
        exact ⟨fun same => distinct.1 (same ▸ List.mem_map_of_mem member), fresh n (List.mem_cons_of_mem _ member)⟩)
    simp only [List.map_cons, Node.toJson_of_plain (plain node List.mem_cons_self), Schema.identify,
      Json.members?, Node.textAt_id, if_neg new, later]
    rfl

/-- A document with different ids is valid exactly when each node keeps to the
rules of its types, which are all known. -/
theorem validate_toJson {d : Document} {table : Table} (distinct : d.ids.Nodup)
    (plain : ∀ n ∈ d.nodes, n.Plain) :
    Schema.validate table d.toJson = .ok () ↔
      ∀ n ∈ d.nodes, ∃ rules, n.Governed table rules ∧ n.Obeys rules d.ids := by
  have read : Schema.nodesOf d.toJson = .ok (d.nodes.map fun n => (n.id, n.members)) :=
    identify_nodes d.nodes 0 [] plain distinct (by simp)
  have ids : (d.nodes.map fun n => (n.id, n.members)).map Prod.fst = d.ids := by simp [Document.ids]
  simp only [Schema.validate_eq_ok, read, Except.ok.injEq, exists_eq_left', ids, List.forall_mem_map]
  exact forall₂_congr fun n member => Node.checkNode_members (plain n member)

end Document

end Provenance.Graph
