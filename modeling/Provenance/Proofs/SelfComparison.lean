import Provenance.Proofs.ComparedItems

/-! A document holds what it asks for. A comparison of a document with itself succeeds in
every scope, as long as the lists that are compared item by item can be. -/

namespace Provenance

open Provenance.Graph (linkJson)
open Finding (Pass)

namespace Json

variable {value : Json} {items : List Json} {members others : List (String × Json)}

/-- What a value is made of at any depth, the value itself included. -/
inductive Inside : Json → Json → Prop where
  | self (value : Json) : Inside value value
  | item {value item : Json} {items : List Json} (member : item ∈ items) (deeper : Inside value item) :
      Inside value (.array items)
  | member {value : Json} {entry : String × Json} {members : List (String × Json)} (member : entry ∈ members)
      (deeper : Inside value entry.2) : Inside value (.object members)

/-- Every list at any depth that starts with an object consists of objects with ids. -/
def Linked (value : Json) : Prop :=
  ∀ first rest, Inside (.array (first :: rest)) value → first.isObject = true →
    ∀ item ∈ first :: rest, ∃ id, item.textAt? "@id" = some id

private theorem linked_scalar (scalar : Schema.Scalar value) : value.Linked := by
  intro first rest inside
  cases inside with
  | self => cases scalar
  | item _ _ | member _ _ => cases scalar

private theorem linked_array :
    (Json.array items).Linked ↔ (∀ first rest, items = first :: rest → first.isObject = true →
    ∀ item ∈ items, ∃ id, item.textAt? "@id" = some id) ∧ ∀ item ∈ items, item.Linked := by
  constructor
  · intro linked
    refine ⟨?_, fun item member first rest inside => linked first rest (.item member inside)⟩
    rintro first rest rfl
    exact linked first rest (.self _)
  · rintro ⟨own, below⟩ first rest inside
    cases inside with
    | self => exact own first rest rfl
    | item member deeper => exact below _ member first rest deeper

private theorem linked_object : (Json.object members).Linked ↔ ∀ entry ∈ members, entry.2.Linked := by
  constructor
  · exact fun linked entry member first rest inside => linked first rest (.member member inside)
  · intro below first rest inside
    cases inside with
    | member member deeper => exact below _ member first rest deeper

private theorem itemsAgree_self (each : ∀ item ∈ items, item.agrees item = true) : itemsAgree items items = true := by
  induction items with
  | nil => rfl
  | cons item rest ih =>
    obtain ⟨head, tail⟩ := List.forall_mem_cons.1 each
    simp [itemsAgree, head, ih tail]

private theorem membersAgree_of (each : ∀ entry ∈ members, ∃ other, Entries.get? entry.1 others = some other ∧
    entry.2.agrees other = true) : membersAgree members others = true := by
  induction members with
  | nil => rfl
  | cons entry rest ih =>
    obtain ⟨⟨other, found, agree⟩, tail⟩ := List.forall_mem_cons.1 each
    simp [membersAgree, found, agree, ih tail]

/-- Equality is reflexive on values that have every name once. -/
theorem agrees_self (value : Json) (distinct : value.Distinct) : value.agrees value = true := by
  induction value using Json.induction with
  | scalar value scalar =>
    cases scalar with
    | null => rfl
    | number value => exact value.agrees_refl
    | bool value | string value => simp [agrees]
  | array items ih =>
    exact itemsAgree_self fun item member => ih item member (itemsDistinct_iff.1 distinct item member)
  | object members ih =>
    have each : membersAgree members members = true := membersAgree_of fun entry member =>
      ⟨entry.2, (Entries.get?_eq_some_iff distinct.1).2 member,
        ih entry member (membersDistinct_iff.1 distinct.2 entry member)⟩
    simp [agrees, each]

end Json

namespace Comparator

variable {c : Comparator} {value : Json}

/-- Items in scope are found among all items. Where the last of an id is out of scope, a
link counts on the expected side, and any item of the id meets it. -/
private theorem ItemsPass.self {items : List Json} {path : List String}
    (named : ∀ item ∈ items, ∃ id, item.textAt? "@id" = some id)
    (each : ∀ item ∈ items, ∀ path, Pass (check c item item path)) : c.ItemsPass items items path where
  expectedNamed item member _ := named item member
  foundNamed := named
  matched id item last := by
    obtain ⟨member, own⟩ := Json.lastNamed_eq_some last
    obtain ⟨other, lastOfAll⟩ := Json.exists_lastNamed (List.mem_filter.1 member).1 own
    refine ⟨other, lastOfAll, ?_⟩
    rcases link_or_last last with rfl | same
    · exact check_link_of_named (Json.lastNamed_eq_some lastOfAll).2
    · obtain rfl := Option.some.inj (same.symm.trans lastOfAll)
      exact each item (Json.lastNamed_eq_some same).1 _

private theorem check_self (value : Json) (distinct : value.Distinct) (linked : value.Linked) :
    ∀ path, Pass (check c value value path) := by
  induction value using Json.induction with
  | scalar value scalar =>
    intro path
    rw [check_scalar scalar, checkEqual_pass]
    exact value.agrees_self distinct
  | array items ih =>
    intro path
    rw [check_array_pass]
    split
    next listed =>
      cases items with
      | nil => cases listed
      | cons first rest =>
        obtain ⟨own, below⟩ := Json.linked_array.1 linked
        exact ItemsPass.self (own first rest rfl listed) fun item member =>
          ih item member (Json.itemsDistinct_iff.1 distinct item member) (below item member)
    next => exact Json.agrees_self _ distinct
  | object members ih =>
    intro path
    refine check_object_pass.2 ⟨members, rfl, fun entry member _ => ?_⟩
    rw [(Entries.get?_eq_some_iff distinct.1).2 member]
    exact ih entry member (Json.membersDistinct_iff.1 distinct.2 entry member) (Json.linked_object.1 linked entry member) _

end Comparator

/-- A document whose nodes and linked items have ids matches itself in every scope. -/
theorem documents_match_themselves (scope : Scope) (document : Json) (nodes : List Json) (distinct : document.Distinct)
    (graph : document.get? "@graph" = some (.array nodes))
    (named : ∀ node ∈ nodes, ∃ id, node.textAt? "@id" = some id) (linked : ∀ node ∈ nodes, node.Linked) :
    scope.compare document document = .ok () := by
  obtain ⟨found, read⟩ := Comparator.index_succeeds ⟨nodes, graph, named⟩
  have context : (Comparator.contextOf document).agrees (Comparator.contextOf document) = true := by
    refine Json.agrees_self _ ?_
    unfold Comparator.contextOf
    cases stored : document.get? "@context" with
    | none => trivial
    | some context => exact distinct.get? stored
  refine Scope.compare_eq_ok.2 ⟨found, read, Comparator.compare_eq_ok.2 ⟨context, found, read, ?_⟩⟩
  rw [Comparator.findings_pass_iff]
  intro id node stored _ _
  have listed : node ∈ nodes := by
    have own := Comparator.index_get? read id
    rw [Json.node?, graph] at own
    exact (Json.lastNamed_eq_some (own.symm.trans stored)).1
  exact ⟨node, stored, Comparator.check_self node (Json.itemsDistinct_iff.1 (distinct.get? graph) node listed)
    (linked node listed) _⟩

/-- Nodes of which two have one id, and a list that names a run twice, at last in full. -/
def repeatingNodes : List Json :=
  [.object [("@id", .string "run"), ("name", .string "early")],
    .object [("@id", .string "crate"), ("@type", .string "Dataset"), ("mentions", .array
      [linkJson "run", .object [("@id", .string "run"), ("tags", .array [.string "a", .object []])]])],
    .object [("@id", .string "run"), ("@type", .string "CreateAction"), ("name", .string "late")]]

def repeatingCrate : Json := .object [("@graph", .array repeatingNodes)]

/-- Runs count where a link leads to them, and nowhere else. -/
def mentionScope : Scope where
  parts := [.orchestration]
  references := [.retrospective]
  classify := Category.ofNode
  skipped := []

theorem repeating_crate_matches_itself : repeatingCrate.Distinct ∧
    (∀ node ∈ repeatingNodes, ∃ id, node.textAt? "@id" = some id) ∧ (∀ node ∈ repeatingNodes, node.Linked) ∧
    mentionScope.compare repeatingCrate repeatingCrate = .ok () := by
  have distinct : repeatingCrate.Distinct := by
    simp [repeatingCrate, repeatingNodes, linkJson, Json.Distinct, Json.ItemsDistinct, Json.MembersDistinct]
  have named : ∀ node ∈ repeatingNodes, ∃ id, node.textAt? "@id" = some id := by
    simp [repeatingNodes, Json.textAt?, Json.get?, Entries.get?, Json.text?]
  have linked : ∀ node ∈ repeatingNodes, node.Linked := by
    simp [repeatingNodes, Json.linked_object, Json.linked_array, Json.linked_scalar (.string _), linkJson,
      Json.textAt?, Json.get?, Entries.get?, Json.text?, Json.isObject, Json.members?]
  exact ⟨distinct, named, linked,
    documents_match_themselves mentionScope repeatingCrate repeatingNodes distinct rfl named linked⟩

end Provenance
