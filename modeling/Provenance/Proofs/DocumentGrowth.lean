import Provenance.Proofs.Outcomes
import Provenance.Proofs.StoreIndex

/-! A document grown node by node. Nothing is lost and nothing is made up: a node
that was added can be found under its id, with the content it was added with. -/

namespace Provenance.Graph

namespace Document

/-- The document has exactly the content of some nodes, each once. -/
structure Collects (d : Document) (nodes : List Node) : Prop where
  distinct : d.ids.Nodup
  only : ∀ node ∈ d.nodes, node ∈ nodes
  every : ∀ node ∈ nodes, ∃ known, d.node? node.id = some known ∧ known.Same node

private theorem Collects.add {d after : Document} {nodes : List Node} {node : Node}
    (collects : d.Collects nodes) (added : d.add node = .ok after) : after.Collects (nodes ++ [node]) := by
  obtain ⟨new, rfl⟩ | ⟨known, found, same, rfl⟩ := add_eq_ok.1 added
  · refine ⟨?_, fun other member => ?_, fun other member => ?_⟩
    · simp only [ids, List.map_append, List.map_singleton]
      exact List.nodup_append.2 ⟨collects.distinct, List.nodup_singleton _, by
        rintro id old _ single rfl
        exact new (List.mem_singleton.1 single ▸ old)⟩
    · rcases List.mem_append.1 member with old | last
      · exact List.mem_append_left _ (collects.only other old)
      · exact List.mem_append_right _ last
    · rcases List.mem_append.1 member with old | last
      · obtain ⟨known, found, same⟩ := collects.every other old
        refine ⟨known, ?_, same⟩
        rw [node?] at found
        rw [node?, List.find?_append, found, Option.some_or]
      · obtain rfl := List.mem_singleton.1 last
        have absent := node?_eq_none_iff.2 new
        rw [node?] at absent
        exact ⟨other, by simp [node?, List.find?_append, absent], .refl other⟩
  · refine ⟨collects.distinct, fun other member => List.mem_append_left _ (collects.only other member),
      fun other member => ?_⟩
    rcases List.mem_append.1 member with old | last
    · exact collects.every other old
    · obtain rfl := List.mem_singleton.1 last
      exact ⟨known, found, same⟩

private theorem Collects.foldlM {d after : Document} {earlier nodes : List Node} (collects : d.Collects earlier)
    (run : nodes.foldlM Document.add d = .ok after) : after.Collects (earlier ++ nodes) := by
  induction nodes generalizing d earlier with
  | nil =>
    cases run
    simpa using collects
  | cons node rest ih =>
    rw [List.foldlM_cons] at run
    obtain ⟨middle, added, later⟩ := Outcome.bind_eq_ok.1 run
    simpa using ih (collects.add added) later

theorem ofNodes_collects {context : String} {nodes : List Node} {d : Document}
    (made : ofNodes context nodes = .ok d) : d.Collects nodes := by
  have none : ({ context } : Document).Collects [] := ⟨List.nodup_nil, by simp, by simp⟩
  rw [ofNodes_eq] at made
  simpa using none.foldlM made

private theorem Collects.foldlM_error {d : Document} {earlier nodes : List Node} {fault : Failure}
    (collects : d.Collects earlier)
    (run : nodes.foldlM Document.add d = .error fault) : ∃ a ∈ earlier ++ nodes, ∃ b ∈ earlier ++ nodes,
      a.id = b.id ∧ ¬ a.Same b ∧ fault = .graphIdCollision a.id := by
  induction nodes generalizing d earlier with
  | nil => cases run
  | cons node rest ih =>
    rw [List.foldlM_cons] at run
    rcases Outcome.bind_eq_error.1 run with refused | ⟨middle, added, later⟩
    · obtain ⟨known, found, differs, collision⟩ := add_eq_error.1 refused
      obtain ⟨stored, same⟩ := mem_of_node? found
      exact ⟨known, List.mem_append_left _ (collects.only known stored), node, by simp, same, differs, same ▸ collision⟩
    · simpa using ih (collects.add added) later

/-- Nodes are refused for two of one id that do not say the same. -/
theorem ofNodes_collision {context : String} {nodes : List Node} {fault : Failure}
    (failed : ofNodes context nodes = .error fault) :
    ∃ a ∈ nodes, ∃ b ∈ nodes, a.id = b.id ∧ ¬ a.Same b ∧ fault = .graphIdCollision a.id := by
  have none : ({ context } : Document).Collects [] := ⟨List.nodup_nil, by simp, by simp⟩
  rw [ofNodes_eq] at failed
  simpa using none.foldlM_error failed

theorem Collects.same {d : Document} {nodes : List Node} (collects : d.Collects nodes) {a b : Node} (first : a ∈ nodes)
    (second : b ∈ nodes) (ids : a.id = b.id) : a.Same b := by
  obtain ⟨known, found, left⟩ := collects.every a first
  obtain ⟨other, again, right⟩ := collects.every b second
  rw [ids, again] at found
  cases found
  exact left.symm.trans right

theorem Collects.stored {d : Document} {nodes : List Node} (collects : d.Collects nodes) {node : Node}
    (member : node ∈ nodes) : ∃ known ∈ d.nodes, known.id = node.id ∧ known.Same node := by
  obtain ⟨known, found, same⟩ := collects.every node member
  obtain ⟨stored, own⟩ := mem_of_node? found
  exact ⟨known, stored, own, same⟩

theorem Collects.id_mem {d : Document} {nodes : List Node} (collects : d.Collects nodes) {node : Node}
    (member : node ∈ nodes) : node.id ∈ d.ids := by
  obtain ⟨known, stored, own, _⟩ := collects.stored member
  exact own ▸ List.mem_map_of_mem stored

end Document

end Provenance.Graph
