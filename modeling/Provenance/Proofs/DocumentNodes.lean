import Mathlib.Data.List.Perm.Subperm
import Mathlib.Data.List.Permutation
import Provenance.Graph.Document
import Provenance.Proofs.MapEntries

/-! The nodes of a document, found by their ids. Two nodes say the same when their types
are equal and their properties agree, in whatever order these were written. -/

namespace Provenance.Graph

/-- Nodes that say the same. The order of their properties may differ. -/
structure Node.Same (a b : Node) : Prop where
  types : a.types = b.types
  property : ∀ key, a.property? key = b.property? key

theorem Node.Same.refl (n : Node) : n.Same n := ⟨rfl, fun _ => rfl⟩

theorem Node.Same.symm {a b : Node} (same : a.Same b) : b.Same a :=
  ⟨same.types.symm, fun key => (same.property key).symm⟩

theorem Node.Same.trans {a b c : Node} (first : a.Same b) (second : b.Same c) : a.Same c :=
  ⟨first.types.trans second.types, fun key => (first.property key).trans (second.property key)⟩

theorem Node.agrees_iff {a b : Node} : a.agrees b = true ↔ a.Same b := by
  have agreement : a.agrees b = true ↔ a.types = b.types ∧ a.properties.size = b.properties.size ∧
      ∀ key value, (key, value) ∈ a.properties.entries → b.property? key = some value := by
    simp [Node.agrees, and_assoc]
  rw [agreement]
  constructor
  · rintro ⟨types, size, included⟩
    refine ⟨types, fun key => ?_⟩
    have inside : a.properties.keys ⊆ b.properties.keys := by
      intro key known
      obtain ⟨⟨_, value⟩, stored, rfl⟩ := List.mem_map.1 known
      exact OrderedMap.isSome_get?_iff.1 (Option.isSome_of_eq_some (included _ value stored))
    have outside : b.properties.keys ⊆ a.properties.keys := by
      have same := (a.properties.distinct.subperm inside).perm_of_length_le (by
        simpa [OrderedMap.keys, OrderedMap.size] using Nat.le_of_eq size.symm)
      exact same.symm.subset
    cases found : a.property? key with
    | some value => exact (included key value (OrderedMap.get?_eq_some_iff.1 found)).symm
    | none =>
      have absent : key ∉ b.properties.keys := fun known => OrderedMap.get?_eq_none_iff.1 found (outside known)
      exact (OrderedMap.get?_eq_none_iff.2 absent).symm
  · rintro ⟨types, property⟩
    have keys : ∀ key, key ∈ a.properties.keys ↔ key ∈ b.properties.keys := by
      intro key
      simp only [← OrderedMap.isSome_get?_iff]
      exact iff_of_eq (congrArg (fun found => Option.isSome found = true) (property key))
    have perm := (List.perm_ext_iff_of_nodup a.properties.distinct b.properties.distinct).2 keys
    refine ⟨types, by simpa [OrderedMap.size] using perm.length_eq, fun key value stored => ?_⟩
    exact (property key).symm.trans (OrderedMap.get?_eq_some_iff.2 stored)

namespace Document

theorem node?_eq_none_iff {d : Document} {id : String} : d.node? id = none ↔ id ∉ d.ids := by
  simp [node?, ids]

theorem mem_of_node? {d : Document} {id : String} {node : Node} (found : d.node? id = some node) :
    node ∈ d.nodes ∧ node.id = id := by
  refine ⟨List.mem_of_find?_eq_some found, ?_⟩
  simpa using List.find?_some found

theorem add_eq_ok {d after : Document} {node : Node} :
    d.add node = .ok after ↔
      (node.id ∉ d.ids ∧ after = { d with nodes := d.nodes ++ [node] }) ∨
      (∃ known, d.node? node.id = some known ∧ known.Same node ∧ after = d) := by
  rw [add, ← node?_eq_none_iff]
  cases found : d.node? node.id with
  | none => simp [eq_comm]
  | some known =>
    simp only [reduceCtorEq, false_and, false_or, Option.some.injEq, exists_eq_left', ← Node.agrees_iff]
    split
    next agrees => simp [agrees, eq_comm]
    next differs => simp [differs]

theorem add_eq_error {d : Document} {node : Node} {fault : Failure} : d.add node = .error fault ↔
    ∃ known, d.node? node.id = some known ∧ ¬ known.Same node ∧ fault = .graphIdCollision node.id := by
  rw [add]
  cases found : d.node? node.id with
  | none => simp
  | some known =>
    simp only [Option.some.injEq, exists_eq_left', ← Node.agrees_iff]
    split
    next agrees => simp [agrees]
    next differs => simp [differs, eq_comm]

theorem node?_of_mem {d : Document} {node : Node} (distinct : d.ids.Nodup) (member : node ∈ d.nodes) :
    d.node? node.id = some node := by
  cases found : d.node? node.id with
  | none => exact absurd (List.mem_map_of_mem member) (node?_eq_none_iff.1 found)
  | some known =>
    obtain ⟨stored, same⟩ := mem_of_node? found
    rw [List.inj_on_of_nodup_map distinct stored member same]

end Document

end Provenance.Graph
