import Provenance.Graph.Document
import Provenance.Proofs.MapEntries
import Provenance.Proofs.SchemaChecks

/-! The documents that a schema describes. What a document has to look like is said
without the checks of a validation, which accepts exactly these documents. -/

namespace Provenance.Schema

open Provenance.Graph (linkJson)

inductive Scalar : Json → Prop where
  | null : Scalar .null
  | bool (value : Bool) : Scalar (.bool value)
  | number (value : Json.Number) : Scalar (.number value)
  | string (text : String) : Scalar (.string text)

inductive Plain : Json → Prop where
  | scalar {value : Json} (scalar : Scalar value) : Plain value
  | list {items : List Json} (scalars : ∀ item ∈ items, Scalar item) : Plain (.array items)

/-- A value that is a link, or a list of links, to some ids. -/
inductive Refers : Json → List String → Prop where
  | link (id : String) : Refers (linkJson id) [id]
  | list (ids : List String) : Refers (.array (ids.map linkJson)) ids

/-- A value is without links, or all links. -/
def Shaped (value : Json) : Prop := Plain value ∨ ∃ targets, Refers value targets

/-- The types of a node as they are written: one text, or some texts. -/
inductive Typed (node : List (String × Json)) : List String → Prop where
  | single {type : String} (stored : Entries.get? "@type" node = some (.string type)) : Typed node [type]
  | several {types : List String} (nonempty : types ≠ [])
      (stored : Entries.get? "@type" node = some (.array (types.map .string))) : Typed node types

/-- A rule of the base type or of one of the types. -/
def RuleFor (table : Table) (types : List String) (rule : Rule) : Prop :=
  ∃ type ∈ baseType :: types, table.get? type = some rule

def ReferenceKey (table : Table) (types : List String) (key : String) : Prop :=
  ∃ rule, RuleFor table types rule ∧ key ∈ rule.references

/-- The properties of a node: every member but its id and its types. -/
def IsProperty (node : List (String × Json)) (key : String) (value : Json) : Prop :=
  (key, value) ∈ node ∧ key ≠ "@id" ∧ key ≠ "@type"

/-- A node is as the rules of its types ask, when its links may lead to the given ids. -/
structure NodeAccepted (table : Table) (ids : List String) (node : List (String × Json)) (types : List String) :
    Prop where
  typed : Typed node types
  known : ∀ type ∈ baseType :: types, type ∈ table.keys
  permitted : ∀ key value, IsProperty node key value →
    ∃ rule, RuleFor table types rule ∧ (key ∈ rule.required ∨ key ∈ rule.allowed)
  present : ∀ rule, RuleFor table types rule → ∀ key ∈ rule.required, key ∈ node.map Prod.fst
  references : ∀ key value, IsProperty node key value → ReferenceKey table types key →
    ∃ targets, Refers value targets ∧ (key ∉ exemptKeys → ∀ target ∈ targets, target ∈ ids)
  plain : ∀ key value, IsProperty node key value → ¬ ReferenceKey table types key → Plain value

/-- The ids of the items of a graph that have one. -/
def idsOf (items : List Json) : List String := items.filterMap fun item => item.textAt? "@id"

/-- Every item of a graph is a node with an id of its own, and accepted. -/
structure GraphAccepted (table : Table) (items : List Json) : Prop where
  identified : ∀ item ∈ items, ∃ id, item.textAt? "@id" = some id
  distinct : (idsOf items).Nodup
  nodes : ∀ item ∈ items, ∃ node types, item = .object node ∧ NodeAccepted table (idsOf items) node types

structure Accepts (table : Table) (document : Json) : Prop where
  context : ∃ text, document.get? "@context" = some (.string text)
  graph : ∃ items, document.get? "@graph" = some (.array items) ∧ GraphAccepted table items

variable {table : Table} {ids types : List String} {node : List (String × Json)} {value : Json} {id key : String}

theorem isScalar_iff : isScalar value = true ↔ Scalar value := by
  constructor
  · intro scalar
    cases value with
    | null => exact .null
    | bool value => exact .bool value
    | number value => exact .number value
    | string text => exact .string text
    | array items => cases scalar
    | object members => cases scalar
  · intro scalar
    cases scalar <;> rfl

theorem isPlain_iff : isPlain value = true ↔ Plain value := by
  constructor
  · intro plain
    cases value with
    | array items => exact .list fun item member => isScalar_iff.1 (List.all_eq_true.1 plain item member)
    | object members => cases plain
    | null | bool _ | number _ | string _ => exact .scalar (isScalar_iff.1 rfl)
  · intro plain
    cases plain with
    | scalar scalar => cases scalar <;> rfl
    | list scalars => exact List.all_eq_true.2 fun item member => isScalar_iff.2 (scalars item member)

theorem linkTarget?_eq_some : linkTarget? value = some id ↔ value = linkJson id := by
  constructor
  · intro link
    unfold linkTarget? at link
    split at link
    · cases link
      rfl
    · cases link
  · rintro rfl
    rfl

theorem mapM_linkTarget?_iff {items : List Json} :
    items.mapM linkTarget? = some ids ↔ items = ids.map linkJson := by
  simp only [Outcome.mapM_eq_some, linkTarget?_eq_some]
  rw [← List.forall₂_eq_eq_eq, List.forall₂_map_right_iff]

theorem targets?_eq_some : targets? value = some ids ↔ Refers value ids := by
  constructor
  · intro found
    unfold targets? at found
    split at found
    · obtain rfl := mapM_linkTarget?_iff.1 found
      exact .list ids
    · obtain ⟨id, link, rfl⟩ := Option.map_eq_some_iff.1 found
      obtain rfl := linkTarget?_eq_some.1 link
      exact .link id
  · intro refers
    cases refers with
    | link id => rfl
    | list ids => exact mapM_linkTarget?_iff.2 rfl

theorem mapM_text_eq_ok {items : List Json} {fault : Json → Failure} :
    (items.mapM fun item => match item.text? with
      | some type => Except.ok type
      | none => .error (fault item)) = .ok types ↔ items = types.map .string := by
  have text : ∀ (item : Json) (type : String), (match item.text? with
      | some type => Except.ok type
      | none => .error (fault item)) = .ok type ↔ item = .string type := by
    intro item type
    cases item <;> simp [Json.text?]
  simp only [Outcome.mapM_eq_ok, text]
  constructor
  · intro each
    induction each with
    | nil => rfl
    | cons first _ ih => rw [first, ih, List.map_cons]
  · rintro rfl
    exact List.forall₂_map_left_iff.2 (List.forall₂_same.2 fun _ _ => rfl)

theorem typesOf_eq_ok : typesOf id node = .ok types ↔ Typed node types := by
  constructor
  · intro read
    unfold typesOf at read
    split at read
    next single stored =>
      cases read
      exact .single stored
    next => cases read
    next items written stored =>
      obtain rfl := mapM_text_eq_ok.1 read
      refine .several ?_ stored
      rintro rfl
      exact written rfl
    next => cases read
  · intro typed
    cases typed with
    | single stored =>
      unfold typesOf
      rw [stored]
    | several nonempty stored =>
      obtain ⟨first, rest, rfl⟩ := List.exists_cons_of_ne_nil nonempty
      unfold typesOf
      rw [stored]
      exact mapM_text_eq_ok.2 rfl

theorem mem_properties {member : String × Json} : member ∈ properties node ↔ IsProperty node member.1 member.2 := by
  simp [properties, IsProperty]

/-- The rules that are found for some types are the rules for them. -/
theorem mem_rules_iff {rules : List Rule}
    (found : List.Forall₂ (fun type rule => table.get? type = some rule) types rules) {rule : Rule} :
    rule ∈ rules ↔ ∃ type ∈ types, table.get? type = some rule := by
  induction found with
  | nil => simp
  | cons first _ ih => simp [ih, first, eq_comm]

private theorem rules_exist (known : ∀ type ∈ types, type ∈ table.keys) :
    ∃ rules, List.Forall₂ (fun type rule => table.get? type = some rule) types rules := by
  induction types with
  | nil => exact ⟨[], .nil⟩
  | cons type rest ih =>
    obtain ⟨first, others⟩ := List.forall_mem_cons.1 known
    obtain ⟨rule, found⟩ := Option.isSome_iff_exists.1 (OrderedMap.isSome_get?_iff.2 first)
    obtain ⟨rules, later⟩ := ih others
    exact ⟨rule :: rules, .cons found later⟩

private theorem known_of_rules {rules : List Rule}
    (found : List.Forall₂ (fun type rule => table.get? type = some rule) types rules) :
    ∀ type ∈ types, type ∈ table.keys := by
  induction found with
  | nil => simp
  | cons first _ ih =>
    exact List.forall_mem_cons.2 ⟨OrderedMap.isSome_get?_iff.1 (Option.isSome_of_eq_some first), ih⟩

theorem suits_iff {rules : List Rule} : Suits rules ids key value ↔
    ((∃ rule ∈ rules, key ∈ rule.references) →
      ∃ targets, Refers value targets ∧ (key ∉ exemptKeys → ∀ target ∈ targets, target ∈ ids)) ∧
    ((¬ ∃ rule ∈ rules, key ∈ rule.references) → Plain value) := by
  have reference : (rules.any fun rule => rule.isReference key) = true ↔ ∃ rule ∈ rules, key ∈ rule.references := by
    simp [Rule.isReference]
  unfold Suits
  simp only [targets?_eq_some, isPlain_iff, ← reference]
  split
  next listed => simp [listed, or_iff_not_imp_left]
  next unlisted => simp [unlisted]

theorem checkNode_iff : checkNode table ids id node = .ok () ↔ ∃ types, NodeAccepted table ids node types := by
  rw [checkNode_eq_ok]
  simp only [rulesOf_eq_ok, typesOf_eq_ok]
  constructor
  · rintro ⟨rules, ⟨types, typed, found⟩, follows⟩
    have rule : ∀ rule, RuleFor table types rule ↔ rule ∈ rules := fun rule => (mem_rules_iff found).symm
    refine ⟨types, typed, known_of_rules found, fun key value property => ?_, ?_, fun key value property => ?_,
      fun key value property => ?_⟩
    · obtain ⟨permitting, member, permits⟩ := follows.permitted (key, value) (mem_properties.2 property)
      exact ⟨permitting, (rule _).2 member, by simpa [Rule.permits] using permits⟩
    · exact fun needing member => follows.present needing ((rule _).1 member)
    · simp only [ReferenceKey, rule]
      exact (suits_iff.1 (follows.suited (key, value) (mem_properties.2 property))).1
    · simp only [ReferenceKey, rule]
      exact (suits_iff.1 (follows.suited (key, value) (mem_properties.2 property))).2
  · rintro ⟨types, accepted⟩
    obtain ⟨rules, found⟩ := rules_exist accepted.known
    have rule : ∀ rule, RuleFor table types rule ↔ rule ∈ rules := fun rule => (mem_rules_iff found).symm
    refine ⟨rules, ⟨types, accepted.typed, found⟩, fun member property => ?_, fun needing member => ?_,
      fun member property => ?_⟩
    · obtain ⟨permitting, own, permits⟩ := accepted.permitted _ _ (mem_properties.1 property)
      exact ⟨permitting, (rule _).1 own, by simpa [Rule.permits] using permits⟩
    · exact accepted.present needing ((rule _).2 member)
    · have references := accepted.references _ _ (mem_properties.1 property)
      have plain := accepted.plain _ _ (mem_properties.1 property)
      simp only [ReferenceKey, rule] at references plain
      exact suits_iff.2 ⟨references, plain⟩

theorem NodeAccepted.shaped (accepted : NodeAccepted table ids node types)
    (named : Entries.get? "@id" node = some (.string id)) (stored : Entries.get? key node = some value) :
    Shaped value := by
  by_cases ownId : key = "@id"
  · subst ownId
    rw [named] at stored
    cases stored
    exact Or.inl (.scalar (.string id))
  by_cases ownType : key = "@type"
  · subst ownType
    refine Or.inl ?_
    cases accepted.typed with
    | single written =>
      rw [written] at stored
      cases stored
      exact .scalar (.string _)
    | several _ written =>
      rw [written] at stored
      cases stored
      exact .list (List.forall_mem_map.2 fun type _ => .string type)
  have property : IsProperty node key value := ⟨Entries.mem_of_get? stored, ownId, ownType⟩
  by_cases reference : ReferenceKey table types key
  · obtain ⟨targets, refers, _⟩ := accepted.references key value property reference
    exact Or.inr ⟨targets, refers⟩
  · exact Or.inl (accepted.plain key value property reference)

/-- The nodes of a graph, each with its id. -/
structure Lists (items : List Json) (nodes : List (String × List (String × Json))) : Prop where
  objects : items = nodes.map fun node => .object node.2
  named : ∀ node ∈ nodes, (Json.object node.2).textAt? "@id" = some node.1

theorem Lists.idsOf_eq {items : List Json} {nodes : List (String × List (String × Json))} (lists : Lists items nodes) :
    idsOf items = nodes.map Prod.fst := by
  rw [lists.objects, idsOf, List.filterMap_map, ← List.filterMap_eq_map]
  exact List.filterMap_congr lists.named

theorem identify_lists {items : List Json} {index : Nat} {seen : List String}
    {nodes : List (String × List (String × Json))} (read : identify index seen items = .ok nodes) :
    Lists items nodes ∧ (nodes.map Prod.fst).Nodup ∧ ∀ node ∈ nodes, node.1 ∉ seen := by
  induction items generalizing index seen nodes with
  | nil =>
    cases read
    exact ⟨⟨rfl, by simp⟩, List.nodup_nil, by simp⟩
  | cons item rest ih =>
    unfold identify at read
    split at read
    · cases read
    next members object =>
      split at read
      · cases read
      next id named =>
        split at read
        · cases read
        next fresh =>
          obtain ⟨later, others, read⟩ := Outcome.bind_eq_ok.1 read
          cases Outcome.pure_eq_ok.1 read
          obtain ⟨lists, distinct, unseen⟩ := ih others
          have shape : item = .object members := by
            cases item <;> simp_all [Json.members?]
          rw [shape] at named
          refine ⟨⟨?_, List.forall_mem_cons.2 ⟨named, lists.named⟩⟩, List.nodup_cons.2 ⟨?_, distinct⟩,
            List.forall_mem_cons.2 ⟨fresh, fun node member => ?_⟩⟩
          · rw [shape, lists.objects, List.map_cons]
          · intro again
            obtain ⟨node, member, same⟩ := List.mem_map.1 again
            exact unseen node member (List.mem_cons.2 (Or.inl same))
          · exact fun old => unseen node member (List.mem_cons_of_mem _ old)

theorem identify_succeeds {items : List Json} (identified : ∀ item ∈ items, ∃ id, item.textAt? "@id" = some id)
    (distinct : (idsOf items).Nodup) (index : Nat) (seen : List String) (fresh : ∀ id ∈ idsOf items, id ∉ seen) :
    ∃ nodes, identify index seen items = .ok nodes := by
  induction items generalizing index seen with
  | nil => exact ⟨[], rfl⟩
  | cons item rest ih =>
    obtain ⟨⟨id, named⟩, others⟩ := List.forall_mem_cons.1 identified
    have ids : idsOf (item :: rest) = id :: idsOf rest := List.filterMap_cons_some named
    rw [ids, List.nodup_cons] at distinct
    rw [ids] at fresh
    obtain ⟨new, unseen⟩ := List.forall_mem_cons.1 fresh
    obtain ⟨nodes, later⟩ := ih others distinct.2 (index + 1) (id :: seen) (by
      intro other member
      rw [List.mem_cons, not_or]
      exact ⟨fun same => distinct.1 (same ▸ member), unseen other member⟩)
    cases item with
    | object members =>
      refine ⟨(id, members) :: nodes, ?_⟩
      simp only [identify, Json.members?, named, if_neg new, later]
      rfl
    | null | bool _ | number _ | string _ | array _ => cases named

theorem bind_text?_eq_some {value : Option Json} {text : String} :
    value.bind Json.text? = some text ↔ value = some (.string text) := by
  cases value with
  | none => simp
  | some value => cases value <;> simp [Json.text?]

theorem bind_items?_eq_some {value : Option Json} {items : List Json} :
    value.bind Json.items? = some items ↔ value = some (.array items) := by
  cases value with
  | none => simp
  | some value => cases value <;> simp [Json.items?]

theorem nodesOf_eq_ok {document : Json} {nodes : List (String × List (String × Json))} :
    nodesOf document = .ok nodes ↔ (∃ text, document.get? "@context" = some (.string text)) ∧
      ∃ items, document.get? "@graph" = some (.array items) ∧ identify 0 [] items = .ok nodes := by
  unfold nodesOf
  simp only [Json.textAt?, ← bind_text?_eq_some, ← bind_items?_eq_some]
  cases (document.get? "@context").bind Json.text? with
  | none => simp
  | some context =>
    cases (document.get? "@graph").bind Json.items? <;> simp

theorem validate_iff {document : Json} : validate table document = .ok () ↔ Accepts table document := by
  simp only [validate_eq_ok, nodesOf_eq_ok, checkNode_iff]
  constructor
  · rintro ⟨nodes, ⟨context, items, graph, read⟩, accepted⟩
    obtain ⟨lists, distinct, _⟩ := identify_lists read
    refine ⟨context, items, graph, ?_, lists.idsOf_eq ▸ distinct, ?_⟩
    · rw [lists.objects]
      exact List.forall_mem_map.2 fun node member => ⟨node.1, lists.named node member⟩
    · rw [lists.idsOf_eq, lists.objects]
      refine List.forall_mem_map.2 fun node member => ?_
      obtain ⟨types, accepted⟩ := accepted node member
      exact ⟨node.2, types, rfl, accepted⟩
  · rintro ⟨context, items, graph, accepted⟩
    obtain ⟨nodes, read⟩ := identify_succeeds accepted.identified accepted.distinct 0 [] (by simp)
    have lists := (identify_lists read).1
    refine ⟨nodes, ⟨context, items, graph, read⟩, fun node member => ?_⟩
    have listed : Json.object node.2 ∈ items := lists.objects ▸ List.mem_map_of_mem member
    obtain ⟨members, types, same, accepted⟩ := accepted.nodes _ listed
    cases same
    exact ⟨types, lists.idsOf_eq ▸ accepted⟩

end Provenance.Schema
