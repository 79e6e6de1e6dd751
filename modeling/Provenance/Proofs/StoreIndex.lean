import Provenance.Graph.Store
import Provenance.Proofs.DocumentNodes
import Provenance.Proofs.Outcomes

/-! A store and the document in it. The places that a store keeps beside its nodes stay
right under every call, so that it does what the document would do without them. -/

namespace Provenance.Graph

variable {s : Store} {id key : String} {node : Node} {value : Property}

/-- A node after one of its properties was set. -/
structure Node.Patched (old new : Node) (key : String) (value : Property) : Prop where
  id : new.id = old.id
  types : new.types = old.types
  written : new.property? key = some value
  others : ∀ other, other ≠ key → new.property? other = old.property? other
  order : new.properties.keys =
    if key ∈ old.properties.keys then old.properties.keys else old.properties.keys ++ [key]

private theorem Node.setProperty_patched (node : Node) (key : String) (value : Property) :
    node.Patched (node.setProperty key value) key value where
  id := rfl
  types := rfl
  written := OrderedMap.get?_insert.trans (if_pos rfl)
  others := by
    intro other apart
    exact OrderedMap.get?_insert.trans (if_neg (Ne.symm apart))
  order := OrderedMap.keys_insert

namespace Store

/-- The place that is kept for an id is the place of its node, and no id has two. -/
structure Indexed (s : Store) : Prop where
  distinct : s.ids.Nodup
  placed : ∀ id place, s.places.get? id = some place ↔ s.ids[place]? = some id

theorem Indexed.empty (context : String) : ({ context } : Store).Indexed where
  distinct := List.nodup_nil
  placed := by
    intro id place
    simp [OrderedMap.get?, Entries.get?, Document.ids]

private theorem Indexed.place?_eq_none_iff (indexed : s.Indexed) : s.places.get? id = none ↔ id ∉ s.ids := by
  constructor
  · intro unplaced member
    obtain ⟨place, stands⟩ := List.getElem?_of_mem member
    rw [(indexed.placed id place).2 stands] at unplaced
    cases unplaced
  · intro absent
    cases found : s.places.get? id with
    | none => rfl
    | some place => exact absurd (List.mem_of_getElem? ((indexed.placed id place).1 found)) absent

/-- Looking at the place of an id finds what a search through all nodes would find. -/
theorem Indexed.node?_eq (indexed : s.Indexed) (id : String) : s.node? id = s.toDocument.node? id := by
  rw [node?]
  cases placed : s.places.get? id with
  | none => exact (Document.node?_eq_none_iff.2 (indexed.place?_eq_none_iff.1 placed)).symm
  | some place =>
    have stands := (indexed.placed id place).1 placed
    rw [Document.ids, List.getElem?_map, Option.map_eq_some_iff] at stands
    obtain ⟨node, stored, named⟩ := stands
    rw [Option.bind_some, stored, ← named]
    exact (Document.node?_of_mem indexed.distinct (List.mem_of_getElem? stored)).symm

private theorem Indexed.append (indexed : s.Indexed) (new : node.id ∉ s.ids) : Indexed
    { s with places := s.places.insert node.id s.nodes.length, nodes := s.nodes ++ [node] } where
  distinct := by
    have last : (s.ids ++ [node.id]).Nodup := List.concat_eq_append ▸ indexed.distinct.concat new
    simpa [Document.ids] using last
  placed := by
    intro id place
    have length : s.ids.length = s.nodes.length := List.length_map _
    have ids : (s.nodes ++ [node]).map Node.id = s.ids ++ [node.id] := List.map_append
    rw [OrderedMap.get?_insert, Document.ids, ids, ← length]
    split
    next same =>
      subst same
      rw [Option.some.injEq, List.getElem?_eq_some_iff]
      constructor
      · intro last
        subst last
        exact ⟨by simp, by simp⟩
      · intro here
        obtain ⟨bound, stands⟩ := here
        by_contra other
        have inside : place < s.ids.length := by
          simp only [List.length_append, List.length_singleton] at bound
          omega
        rw [List.getElem_append_left inside] at stands
        exact new (stands ▸ List.getElem_mem inside)
    next apart =>
      rw [indexed.placed id place]
      by_cases inside : place < s.ids.length
      · rw [List.getElem?_append_left inside]
      · have before : s.ids[place]? = none := List.getElem?_eq_none (Nat.le_of_not_lt inside)
        rw [before, List.getElem?_append_right (Nat.le_of_not_lt inside)]
        simp only [reduceCtorEq, false_iff]
        intro stands
        have last := List.mem_of_getElem? stands
        exact apart (List.mem_singleton.1 last).symm

/-- Changing the node at the place of an id is changing the node of that id wherever it stands. -/
theorem Indexed.modify_eq {place : Nat} (indexed : s.Indexed) (placed : s.places.get? id = some place)
    (change : Node → Node) :
    s.nodes.modify place change = s.nodes.map fun node => if node.id = id then change node else node := by
  apply List.ext_getElem?
  intro other
  rw [List.getElem?_modify, List.getElem?_map]
  cases stored : s.nodes[other]? with
  | none => rfl
  | some node =>
    have stands : s.ids[other]? = some node.id := by
      rw [Document.ids, List.getElem?_map, stored, Option.map_some]
    have here : place = other ↔ node.id = id := by
      constructor
      · intro same
        subst same
        exact Option.some.inj (stands.symm.trans ((indexed.placed id place).1 placed))
      · intro same
        have found := (indexed.placed id other).2 (same ▸ stands)
        exact Option.some.inj (placed.symm.trans found)
    simp only [here, Option.map_eq_map, Option.map_some]

private theorem Indexed.patch {nodes : List Node} (indexed : s.Indexed) (ids : nodes.map Node.id = s.ids) :
    Indexed { s with nodes } where
  distinct := by
    rw [Document.ids, ids]
    exact indexed.distinct
  placed := by
    intro id place
    rw [Document.ids, ids]
    exact indexed.placed id place

private theorem answer_eq_ok {call : Call} {after : Store} :
    s.answer call = (.ok (), after) ↔ call.perform.run s = .ok () after := by
  rw [answer]
  cases call.perform.run s <;> simp

private theorem answer_eq_error {call : Call} {fault : Failure} {after : Store} :
    s.answer call = (.error fault, after) ↔ call.perform.run s = .error fault after := by
  rw [answer]
  cases call.perform.run s <;> simp

private theorem answer_add_new (absent : s.node? node.id = none) : s.answer (.add node) =
    (.ok (), { s with places := s.places.insert node.id s.nodes.length, nodes := s.nodes ++ [node] }) := by
  simp only [answer, Call.perform, add, EStateM.run_bind, EStateM.run_get, absent]
  rfl

private theorem answer_add_known {known : Node} (stored : s.node? node.id = some known) :
    s.answer (.add node) = (if known.agrees node then .ok () else .error (.graphIdCollision node.id), s) := by
  simp only [answer, Call.perform, add, EStateM.run_bind, EStateM.run_get, stored]
  cases known.agrees node <;> rfl

private theorem answer_setProperty (s : Store) (id key : String) (value : Property) :
    s.answer (.setProperty id key value) = match s.places.get? id with
      | some place => (.ok (), { s with nodes := s.nodes.modify place (·.setProperty key value) })
      | none => (.error (.malformedDocument (.unknownNode id key)), s) := by
  simp only [answer, Call.perform, setProperty, EStateM.run_bind, EStateM.run_get]
  cases s.places.get? id <;> rfl

/-- What a call makes of the document in a store. -/
def Call.apply : Call → Document → Except Failure Document
  | .add node, d => d.add node
  | .setProperty id key value, d => d.setProperty id key value

/-- What an indexed store makes of a call. It does to its document what the document would do
without the places, and keeps these right, or it fails in the same way and stays as it is. -/
inductive Answers (s : Store) (call : Call) : Prop
  | done (after : Store) (answered : s.answer call = (.ok (), after)) (indexed : after.Indexed)
    (applied : call.apply s.toDocument = .ok after.toDocument)
  | failed (fault : Failure) (answered : s.answer call = (.error fault, s))
    (applied : call.apply s.toDocument = .error fault)

private theorem Indexed.answers_add (indexed : s.Indexed) (node : Node) : s.Answers (.add node) := by
  have found := indexed.node?_eq node.id
  cases stored : s.node? node.id with
  | none =>
    have absent := found.symm.trans stored
    refine .done _ (answer_add_new stored) (indexed.append (Document.node?_eq_none_iff.1 absent)) ?_
    rw [Call.apply, Document.add, absent]
  | some known =>
    have answered := answer_add_known stored
    have applied : Call.apply (.add node) s.toDocument =
        if known.agrees node then .ok s.toDocument else .error (.graphIdCollision node.id) := by
      rw [Call.apply, Document.add, found.symm.trans stored]
    by_cases agrees : known.agrees node = true
    · rw [if_pos agrees] at answered applied
      exact .done s answered indexed applied
    · rw [if_neg agrees] at answered applied
      exact .failed _ answered applied

theorem Indexed.contains_iff (indexed : s.Indexed) : s.contains id = true ↔ id ∈ s.ids := by
  rw [contains, OrderedMap.contains, Option.isSome_iff_ne_none, Ne, indexed.place?_eq_none_iff, not_not]

theorem Indexed.answers_setProperty (indexed : s.Indexed) (id key : String) (value : Property) :
    s.Answers (.setProperty id key value) := by
  have answered := answer_setProperty s id key value
  cases placed : s.places.get? id with
  | none =>
    rw [placed] at answered
    have absent := Document.node?_eq_none_iff.2 (indexed.place?_eq_none_iff.1 placed)
    refine .failed _ answered ?_
    simp [Call.apply, Document.setProperty, Document.contains, absent]
  | some place =>
    rw [placed] at answered
    have contained : s.toDocument.contains id = true := by
      rw [Document.contains, Option.isSome_iff_ne_none, Ne, Document.node?_eq_none_iff, not_not]
      exact List.mem_of_getElem? ((indexed.placed id place).1 placed)
    refine .done _ answered (indexed.patch ?_) ?_
    · rw [indexed.modify_eq placed, List.map_map]
      apply List.map_congr_left
      intro node _
      rw [Function.comp_apply]
      split <;> rfl
    · rw [indexed.modify_eq placed, Call.apply, Document.setProperty, if_pos contained]

theorem Indexed.answers (indexed : s.Indexed) (call : Call) : s.Answers call :=
  match call with
  | .add node => indexed.answers_add node
  | .setProperty id key value => indexed.answers_setProperty id key value

private theorem Indexed.answer (indexed : s.Indexed) (call : Call) : (s.answer call).2.Indexed := by
  cases indexed.answers call with
  | done after answered kept _ => exact answered ▸ kept
  | failed fault answered _ => exact answered ▸ indexed

theorem Indexed.run (indexed : s.Indexed) (calls : List Call) : (s.run calls).Indexed := by
  induction calls generalizing s with
  | nil => exact indexed
  | cons call later ih => exact ih (indexed.answer call)

structure AddsNode (s : Store) (node : Node) : Prop where
  succeeds : (s.answer (.add node)).1 = .ok () ↔
    node.id ∉ s.ids ∨ ∃ known ∈ s.nodes, known.id = node.id ∧ known.Same node
  appends : node.id ∉ s.ids →
    (s.answer (.add node)).2.toDocument = { s.toDocument with nodes := s.nodes ++ [node] }
  repeats : node.id ∈ s.ids → (s.answer (.add node)).2 = s
  refuses : ∀ fault, (s.answer (.add node)).1 = .error fault → fault = .graphIdCollision node.id

structure SetsProperty (s : Store) (id key : String) (value : Property) : Prop where
  succeeds : (s.answer (.setProperty id key value)).1 = .ok () ↔ id ∈ s.ids
  context : (s.answer (.setProperty id key value)).2.context = s.context
  /-- Each node stands where it stood, and only the one of this id is another. -/
  changes : id ∈ s.ids → List.Forall₂
    (fun old new => if old.id = id then old.Patched new key value else new = old)
    s.nodes (s.answer (.setProperty id key value)).2.nodes
  refuses : ∀ fault, (s.answer (.setProperty id key value)).1 = .error fault →
    fault = .malformedDocument (.unknownNode id key)

/-- A store that answers rightly, whatever it is asked next. -/
structure Lawful (s : Store) : Prop extends Indexed s where
  finds : ∀ id node, s.node? id = some node ↔ node ∈ s.nodes ∧ node.id = id
  contains : ∀ id, s.contains id = true ↔ ∃ node ∈ s.nodes, node.id = id
  adds : ∀ node, s.AddsNode node
  sets : ∀ id key value, s.SetsProperty id key value
  unchanged : ∀ call fault, (s.answer call).1 = .error fault → (s.answer call).2 = s

theorem Indexed.finds (indexed : s.Indexed) (id : String) (node : Node) :
    s.node? id = some node ↔ node ∈ s.nodes ∧ node.id = id := by
  rw [indexed.node?_eq]
  constructor
  · exact Document.mem_of_node?
  · intro ⟨stored, named⟩
    exact named ▸ Document.node?_of_mem indexed.distinct stored

theorem Indexed.adds (indexed : s.Indexed) (node : Node) : s.AddsNode node := by
  cases stored : s.node? node.id with
  | none =>
    have answered := answer_add_new stored
    have found := indexed.node?_eq node.id
    have new : node.id ∉ s.ids := Document.node?_eq_none_iff.1 (found.symm.trans stored)
    refine ⟨?_, fun _ => ?_, fun known => absurd known new, fun fault failed => ?_⟩
    · rw [answered]
      exact iff_of_true rfl (Or.inl new)
    · rw [answered]
    · rw [answered] at failed
      cases failed
  | some known =>
    have answered := answer_add_known stored
    obtain ⟨member, named⟩ := (indexed.finds _ _).1 stored
    have old : node.id ∈ s.ids := named ▸ List.mem_map_of_mem member
    have only : ∀ other ∈ s.nodes, other.id = node.id → other = known := by
      intro other inside same
      exact Option.some.inj (((indexed.finds _ _).2 ⟨inside, same⟩).symm.trans stored)
    have allowed : (node.id ∉ s.ids ∨ ∃ other ∈ s.nodes, other.id = node.id ∧ other.Same node) ↔
        known.agrees node = true := by
      rw [Node.agrees_iff]
      constructor
      · intro either
        rcases either with new | ⟨other, inside, same, content⟩
        · exact absurd old new
        · exact only other inside same ▸ content
      · intro content
        exact Or.inr ⟨known, member, named, content⟩
    refine ⟨?_, fun new => absurd old new, fun _ => ?_, fun fault failed => ?_⟩
    · rw [answered, allowed]
      by_cases agrees : known.agrees node = true <;> simp [agrees]
    · rw [answered]
    · rw [answered] at failed
      by_cases agrees : known.agrees node = true
      · rw [if_pos agrees] at failed
        cases failed
      · rw [if_neg agrees] at failed
        exact (Except.error.inj failed).symm

theorem Indexed.sets (indexed : s.Indexed) (id key : String) (value : Property) : s.SetsProperty id key value := by
  have answered := answer_setProperty s id key value
  cases placed : s.places.get? id with
  | none =>
    rw [placed] at answered
    have absent := indexed.place?_eq_none_iff.1 placed
    refine ⟨?_, ?_, fun known => absurd known absent, fun fault failed => ?_⟩
    · rw [answered]
      exact iff_of_false (fun done => by cases done) absent
    · rw [answered]
    · rw [answered] at failed
      exact (Except.error.inj failed).symm
  | some place =>
    rw [placed] at answered
    refine ⟨?_, ?_, fun _ => ?_, fun fault failed => ?_⟩
    · rw [answered]
      exact iff_of_true rfl (List.mem_of_getElem? ((indexed.placed id place).1 placed))
    · rw [answered]
    · rw [answered]
      dsimp only
      rw [indexed.modify_eq placed, List.forall₂_map_right_iff, List.forall₂_same]
      intro node _
      split
      next => exact node.setProperty_patched key value
      next => rfl
    · rw [answered] at failed
      cases failed

theorem Indexed.lawful (indexed : s.Indexed) : s.Lawful where
  toIndexed := indexed
  finds := indexed.finds
  contains := by
    intro id
    rw [indexed.contains_iff, Document.ids, List.mem_map]
  adds := indexed.adds
  sets := indexed.sets
  unchanged := by
    intro call fault failed
    cases indexed.answers call with
    | done _ answered _ _ =>
      rw [answered] at failed
      cases failed
    | failed _ answered _ => rw [answered]

/-- Every run of calls, whether they succeed or not, leaves a store that answers rightly. -/
theorem runs_keep_the_index (context : String) (calls : List Call) : (run { context } calls).Lawful :=
  ((Indexed.empty context).run calls).lawful

private theorem Indexed.forM_add (indexed : s.Indexed) (nodes : List Node) :
    (∃ after, (nodes.forM add).run s = .ok () after ∧ nodes.foldlM Document.add s.toDocument = .ok after.toDocument) ∨
    (∃ fault after, (nodes.forM add).run s = .error fault after ∧
      nodes.foldlM Document.add s.toDocument = .error fault) := by
  induction nodes generalizing s with
  | nil => exact Or.inl ⟨s, rfl, rfl⟩
  | cons node rest ih =>
    have split : (node :: rest).forM add = (add node >>= fun _ => rest.forM add) := by
      simp only [List.forM_eq_forM, List.forM_cons]
    rw [split, EStateM.run_bind, List.foldlM_cons]
    cases indexed.answers_add node with
    | done middle answered kept applied =>
      have first : (add node).run s = .ok () middle := answer_eq_ok.1 answered
      have added : s.toDocument.add node = .ok middle.toDocument := applied
      rw [first, added]
      exact ih kept
    | failed fault answered applied =>
      have first : (add node).run s = .error fault s := answer_eq_error.1 answered
      have refused : s.toDocument.add node = .error fault := applied
      rw [first, refused]
      exact Or.inr ⟨fault, s, rfl, rfl⟩

end Store

/-- Adding nodes one after the other gives the same document, with and without places. -/
theorem Document.ofNodes_eq (context : String) (nodes : List Node) :
    ofNodes context nodes = nodes.foldlM Document.add { context } := by
  rcases (Store.Indexed.empty context).forM_add nodes with ⟨after, run, added⟩ | ⟨fault, after, run, added⟩
  · rw [ofNodes, run]
    exact added.symm
  · rw [ofNodes, run]
    exact added.symm

end Provenance.Graph
