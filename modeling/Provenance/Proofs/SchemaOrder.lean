import Mathlib.Data.List.Forall2
import Mathlib.Data.List.Perm.Basic
import Provenance.Proofs.SchemaAcceptance

/-! Validation does not look at order. A document is accepted or refused together with
every document that has the same nodes, keys and types in another order. -/

namespace Provenance.Schema

open Provenance.Graph (linkJson)

/-- Members with the same names in any order. Under a name both have one value, or
values that are related for this name. -/
structure SameMembers (related : String → Json → Json → Prop) (first second : List (String × Json)) : Prop where
  distinct : (first.map Prod.fst).Nodup
  names : (first.map Prod.fst).Perm (second.map Prod.fst)
  values : ∀ name a b, (name, a) ∈ first → (name, b) ∈ second → a = b ∨ related name a b

/-- The types of a node in another order. -/
def TypesReordered (name : String) (a b : Json) : Prop :=
  name = "@type" ∧ ∃ first second, a = .array first ∧ b = .array second ∧ first.Perm second

/-- A node with its keys and its types in another order. -/
inductive NodeReordered : Json → Json → Prop where
  | refl (node : Json) : NodeReordered node node
  | members {first second : List (String × Json)} (same : SameMembers TypesReordered first second) :
      NodeReordered (.object first) (.object second)

/-- The nodes of a graph in another order, each of them reordered. -/
def GraphReordered (name : String) (a b : Json) : Prop :=
  name = "@graph" ∧ ∃ first middle second, a = .array first ∧ b = .array second ∧
    List.Forall₂ NodeReordered first middle ∧ middle.Perm second

/-- A document with its keys, its nodes, and the keys and types of these in another order. -/
inductive Reordered : Json → Json → Prop where
  | members {first second : List (String × Json)} (same : SameMembers GraphReordered first second) :
      Reordered (.object first) (.object second)

variable {related : String → Json → Json → Prop} {first second : List (String × Json)} {a b value : Json}
  {name key : String}

private theorem SameMembers.of_entries (distinct : (first.map Prod.fst).Nodup)
    (names : (first.map Prod.fst).Perm (second.map Prod.fst))
    (each : ∀ entry ∈ first, ∃ b, Entries.get? entry.1 second = some b ∧ (entry.2 = b ∨ related entry.1 entry.2 b)) :
    SameMembers related first second where
  distinct := distinct
  names := names
  values name a b stored other := by
    obtain ⟨value, found, same⟩ := each _ stored
    have again := (Entries.get?_eq_some_iff (names.nodup_iff.1 distinct)).2 other
    exact Option.some.inj (found.symm.trans again) ▸ same

theorem SameMembers.symm (same : SameMembers related first second)
    (symmetric : ∀ name a b, related name a b → related name b a) : SameMembers related second first where
  distinct := same.names.nodup_iff.1 same.distinct
  names := same.names.symm
  values name a b stored other := (same.values name b a other stored).imp Eq.symm (symmetric name b a)

theorem TypesReordered.symm (moved : TypesReordered name a b) : TypesReordered name b a := by
  obtain ⟨type, first, second, rfl, rfl, perm⟩ := moved
  exact ⟨type, second, first, rfl, rfl, perm.symm⟩

theorem NodeReordered.symm (moved : NodeReordered a b) : NodeReordered b a := by
  cases moved with
  | refl => exact .refl a
  | members same => exact .members (same.symm fun _ _ _ => TypesReordered.symm)

theorem GraphReordered.symm (moved : GraphReordered name a b) : GraphReordered name b a := by
  obtain ⟨graph, first, middle, second, rfl, rfl, nodes, perm⟩ := moved
  have back : List.Forall₂ NodeReordered middle first := by
    refine List.Forall₂.imp ?_ nodes.flip
    exact fun _ _ => NodeReordered.symm
  obtain ⟨other, nodes, perm⟩ := List.perm_comp_forall₂ perm.symm back
  exact ⟨graph, second, other, first, rfl, rfl, nodes, perm⟩

theorem Reordered.symm (moved : Reordered a b) : Reordered b a := by
  cases moved with
  | members same => exact .members (same.symm fun _ _ _ => GraphReordered.symm)

private theorem SameMembers.get? (same : SameMembers related first second) (stored : Entries.get? name first = some a) :
    ∃ b, Entries.get? name second = some b ∧ (a = b ∨ related name a b) := by
  have member := Entries.mem_of_get? stored
  have known : name ∈ second.map Prod.fst := same.names.mem_iff.1 (List.mem_map_of_mem member)
  obtain ⟨b, found⟩ := Option.isSome_iff_exists.1 (Entries.isSome_get?_iff.2 known)
  exact ⟨b, found, same.values name a b member (Entries.mem_of_get? found)⟩

/-- A name under which nothing is related has one value. -/
theorem SameMembers.get?_eq (same : SameMembers related first second) (unrelated : ∀ a b, ¬ related name a b)
    (stored : Entries.get? name first = some a) : Entries.get? name second = some a := by
  obtain ⟨b, found, equal | moved⟩ := same.get? stored
  · exact equal ▸ found
  · exact absurd moved (unrelated a b)

private theorem SameMembers.property (same : SameMembers TypesReordered first second)
    (property : IsProperty first key value) : IsProperty second key value := by
  obtain ⟨member, notId, notType⟩ := property
  have unrelated : ∀ a b, ¬ TypesReordered key a b := fun _ _ moved => notType moved.1
  have stored := (Entries.get?_eq_some_iff same.distinct).2 member
  exact ⟨Entries.mem_of_get? (same.get?_eq unrelated stored), notId, notType⟩

variable {table : Table} {ids others types : List String}

private theorem SameMembers.typed (same : SameMembers TypesReordered first second) (typed : Typed first types) :
    ∃ written, Typed second written ∧ types.Perm written := by
  cases typed with
  | single stored =>
    obtain ⟨b, found, rfl | ⟨_, _, _, impossible, _⟩⟩ := same.get? stored
    · exact ⟨_, .single found, .refl _⟩
    · cases impossible
  | several nonempty stored =>
    obtain ⟨b, found, rfl | ⟨_, _, items, listed, rfl, perm⟩⟩ := same.get? stored
    · exact ⟨types, .several nonempty found, .refl _⟩
    · cases listed
      -- A list with the items of a list of texts is one of texts, too.
      have texts : Relation.Comp (· = List.map Json.string ·) List.Perm items types := by
        rw [List.eq_map_comp_perm]
        exact perm.symm
      obtain ⟨written, rfl, moved⟩ := texts
      refine ⟨written, .several ?_ found, moved.symm⟩
      rintro rfl
      exact nonempty moved.symm.eq_nil

private theorem rulesFor_perm {written : List String} (perm : types.Perm written) {rule : Rule} :
    RuleFor table types rule ↔ RuleFor table written rule := by
  simp only [RuleFor, List.mem_cons, perm.mem_iff]

private theorem referenceKey_perm {written : List String} (perm : types.Perm written) :
    ReferenceKey table types key ↔ ReferenceKey table written key := by
  simp only [ReferenceKey, rulesFor_perm perm]

theorem NodeAccepted.mono (accepted : NodeAccepted table ids first types) (known : ∀ id ∈ ids, id ∈ others) :
    NodeAccepted table others first types := by
  refine { accepted with references := fun key value property listed => ?_ }
  obtain ⟨targets, refers, inside⟩ := accepted.references key value property listed
  exact ⟨targets, refers, fun followed target member => known target (inside followed target member)⟩

/-- A node that is accepted is accepted in every order. -/
theorem NodeAccepted.reordered (accepted : NodeAccepted table ids first types)
    (same : SameMembers TypesReordered first second) : ∃ written, NodeAccepted table ids second written := by
  obtain ⟨written, typed, perm⟩ := same.typed accepted.typed
  have back : ∀ key value, IsProperty second key value → IsProperty first key value :=
    fun _ _ property => (same.symm fun _ _ _ => TypesReordered.symm).property property
  refine ⟨written, typed, fun type member => ?_, fun key value property => ?_, fun rule own key needed => ?_,
    fun key value property listed => ?_, fun key value property unlisted => ?_⟩
  · exact accepted.known type (by simpa [perm.mem_iff] using member)
  · obtain ⟨rule, own, permits⟩ := accepted.permitted key value (back key value property)
    exact ⟨rule, (rulesFor_perm perm).1 own, permits⟩
  · exact same.names.mem_iff.1 (accepted.present rule ((rulesFor_perm perm).2 own) key needed)
  · exact accepted.references key value (back key value property) ((referenceKey_perm perm).2 listed)
  · exact accepted.plain key value (back key value property) fun listed => unlisted ((referenceKey_perm perm).1 listed)

private theorem NodeReordered.id_eq (moved : NodeReordered a b) : a.textAt? "@id" = b.textAt? "@id" := by
  cases moved with
  | refl => rfl
  | @members first second same =>
    have unrelated : ∀ a b, ¬ TypesReordered "@id" a b := fun _ _ moved => absurd moved.1 (by decide)
    have stored : Entries.get? "@id" first = Entries.get? "@id" second := by
      cases found : Entries.get? "@id" first with
      | some value => exact (same.get?_eq unrelated found).symm
      | none =>
        have absent := same.names.mem_iff.not.1 (Entries.get?_eq_none_iff.1 found)
        exact (Entries.get?_eq_none_iff.2 absent).symm
    rw [Json.textAt?, Json.textAt?, Json.get?, Json.get?, stored]

private theorem idsOf_perm {items middle moved : List Json} (nodes : List.Forall₂ NodeReordered items middle)
    (perm : middle.Perm moved) : (idsOf items).Perm (idsOf moved) := by
  have same : idsOf items = idsOf middle := by
    unfold idsOf
    clear perm
    induction nodes with
    | nil => rfl
    | cons head _ ih => rw [List.filterMap_cons, List.filterMap_cons, head.id_eq, ih]
  rw [same]
  exact perm.filterMap _

theorem GraphAccepted.reordered {items middle moved : List Json} (accepted : GraphAccepted table items)
    (nodes : List.Forall₂ NodeReordered items middle) (perm : middle.Perm moved) : GraphAccepted table moved := by
  have ids := idsOf_perm nodes perm
  have origin : ∀ item ∈ moved, ∃ node ∈ items, NodeReordered node item := by
    intro item member
    obtain ⟨index, inside, rfl⟩ := List.getElem_of_mem (perm.mem_iff.2 member)
    have within : index < items.length := nodes.length_eq ▸ inside
    exact ⟨items[index], List.getElem_mem within, nodes.get within inside⟩
  refine ⟨fun item member => ?_, ids.nodup_iff.1 accepted.distinct, fun item member => ?_⟩
  · obtain ⟨node, inside, same⟩ := origin item member
    rw [← same.id_eq]
    exact accepted.identified node inside
  · obtain ⟨node, inside, same⟩ := origin item member
    obtain ⟨members, types, rfl, own⟩ := accepted.nodes node inside
    have own := own.mono fun id known => ids.mem_iff.1 known
    cases same with
    | refl => exact ⟨members, types, rfl, own⟩
    | @members _ second same =>
      obtain ⟨written, own⟩ := own.reordered same
      exact ⟨second, written, rfl, own⟩

theorem Accepts.reordered (accepts : Accepts table a) (moved : Reordered a b) : Accepts table b := by
  cases moved with
  | @members first second same =>
    obtain ⟨⟨text, context⟩, items, graph, accepted⟩ := accepts
    have unrelated : ∀ a b, ¬ GraphReordered "@context" a b := fun _ _ moved => absurd moved.1 (by decide)
    refine ⟨⟨text, same.get?_eq unrelated context⟩, ?_⟩
    obtain ⟨value, stored, rfl | ⟨_, _, middle, others, listed, rfl, nodes, perm⟩⟩ := same.get? graph
    · exact ⟨items, stored, accepted⟩
    · cases listed
      exact ⟨others, stored, accepted.reordered nodes perm⟩

/-- Validation accepts the documents that the schema describes and no others, so its
verdict is the same for every order of nodes, keys and types. -/
theorem validation_accepts_described_documents (table : Table) :
    (∀ document, validate table document = .ok () ↔ Accepts table document) ∧
    ∀ first second, Reordered first second → (validate table first = .ok () ↔ validate table second = .ok ()) := by
  refine ⟨fun document => validate_iff, fun first second moved => ?_⟩
  rw [validate_iff, validate_iff]
  exact ⟨fun accepts => accepts.reordered moved, fun accepts => accepts.reordered moved.symm⟩

/-- A plan with one step, and the same plan told backwards. -/
def plainPlan : Json :=
  .object [("@context", .string "here"), ("@graph", .array
    [.object [("@id", .string "plan"), ("@type", .texts ["File", "HowTo"]), ("step", .array [linkJson "step"])],
      .object [("@id", .string "step"), ("@type", .string "Person"), ("name", .string "A")]])]

def backwardPlan : Json :=
  .object [("@graph", .array
    [.object [("name", .string "A"), ("@type", .string "Person"), ("@id", .string "step")],
      .object [("step", .array [linkJson "step"]), ("@type", .texts ["HowTo", "File"]), ("@id", .string "plan")]]),
    ("@context", .string "here")]

private theorem backward_plan_reordered : Reordered plainPlan backwardPlan := by
  have plan : NodeReordered
      (.object [("@id", .string "plan"), ("@type", .texts ["File", "HowTo"]), ("step", .array [linkJson "step"])])
      (.object [("step", .array [linkJson "step"]), ("@type", .texts ["HowTo", "File"]), ("@id", .string "plan")]) := by
    refine .members (.of_entries (by decide) (by decide) ?_)
    simp only [List.forall_mem_cons]
    exact ⟨⟨_, rfl, Or.inl rfl⟩, ⟨_, rfl, Or.inr ⟨rfl, _, _, rfl, rfl, .swap ..⟩⟩, ⟨_, rfl, Or.inl rfl⟩, by simp⟩
  have step : NodeReordered (.object [("@id", .string "step"), ("@type", .string "Person"), ("name", .string "A")])
      (.object [("name", .string "A"), ("@type", .string "Person"), ("@id", .string "step")]) := by
    refine .members (.of_entries (by decide) (by decide) ?_)
    simp only [List.forall_mem_cons]
    exact ⟨⟨_, rfl, Or.inl rfl⟩, ⟨_, rfl, Or.inl rfl⟩, ⟨_, rfl, Or.inl rfl⟩, by simp⟩
  refine .members (.of_entries (by decide) (by decide) ?_)
  simp only [List.forall_mem_cons]
  exact ⟨⟨_, rfl, Or.inl rfl⟩, ⟨_, rfl, Or.inr ⟨rfl, _, _, _, rfl, rfl, .cons plan (.cons step .nil), .swap ..⟩⟩,
    by simp⟩

theorem backward_plan_is_accepted : Reordered plainPlan backwardPlan ∧ validate Table.draft plainPlan = .ok () ∧
    validate Table.draft backwardPlan = .ok () ∧ Accepts Table.draft backwardPlan := by
  have plain : validate Table.draft plainPlan = .ok () := rfl
  obtain ⟨accepts, order⟩ := validation_accepts_described_documents Table.draft
  have backward := (order _ _ backward_plan_reordered).1 plain
  exact ⟨backward_plan_reordered, plain, backward, (accepts _).1 backward⟩

end Provenance.Schema
