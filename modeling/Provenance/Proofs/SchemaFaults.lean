import Provenance.Proofs.SchemaAcceptance

/-! What a validation that fails says about its document. It names the first violation: of the
document's shape, of the ids, or of the rules of a node, behind nodes that are accepted. -/

namespace Provenance.Schema

open Outcome (FirstWithout)

/-- The rules of a node: that of the base type and those of its types, in their order. -/
def Ruled (table : Table) (node : List (String × Json)) (rules : List Rule) : Prop :=
  ∃ types, Typed node types ∧ List.Forall₂ (fun type rule => table.get? type = some rule) (baseType :: types) rules

def Permits (rules : List Rule) (key : String) : Prop := ∃ rule ∈ rules, key ∈ rule.required ∨ key ∈ rule.allowed

def Links (rules : List Rule) (key : String) : Prop := ∃ rule ∈ rules, key ∈ rule.references

/-- What is wrong with the value of a key, and the failure that says so. -/
inductive ValueViolates (rules : List Rule) (ids : List String) (id key : String) (value : Json) : Failure → Prop where
  | shape (listed : Links rules key) (shapeless : ∀ targets, ¬ Refers value targets) :
      ValueViolates rules ids id key value (.invalidReferenceShape id key)
  | dangling {targets : List String} {target : String} (listed : Links rules key) (refers : Refers value targets)
      (followed : key ∉ exemptKeys) (first : FirstWithout (· ∈ ids) targets target) :
      ValueViolates rules ids id key value (.danglingReference id key target)
  | notPlain (unlisted : ¬ Links rules key) (nested : ¬ Plain value) :
      ValueViolates rules ids id key value (.malformedDocument (.notPlain id key))

/-- What is wrong with the types of a node as they are written. -/
inductive Untyped (id : String) (node : List (String × Json)) : Failure → Prop where
  | nothing (single : ∀ type, Entries.get? "@type" node ≠ some (.string type))
      (several : ∀ item rest, Entries.get? "@type" node ≠ some (.array (item :: rest))) :
      Untyped id node (.malformedDocument (.untyped id))
  | entry {items : List Json} {item : Json} (stored : Entries.get? "@type" node = some (.array items))
      (first : FirstWithout (fun item => ∃ type, item = .string type) items item) :
      Untyped id node (.malformedDocument (.typeNotText id item))

/-- The first thing that is wrong with a node. Its types come before its keys, unknown keys
before missing ones, and these before the values. -/
inductive NodeViolates (table : Table) (ids : List String) (id : String) (node : List (String × Json)) :
    Failure → Prop where
  | untyped {fault : Failure} (untyped : Untyped id node fault) : NodeViolates table ids id node fault
  | unknownType {types : List String} {type : String} (typed : Typed node types)
      (first : FirstWithout (· ∈ table.keys) (baseType :: types) type) :
      NodeViolates table ids id node (.schemaTypeUnknown id type)
  | disallowed {rules : List Rule} {member : String × Json} (ruled : Ruled table node rules)
      (first : FirstWithout (fun member => Permits rules member.1) (properties node) member) :
      NodeViolates table ids id node (.disallowedKey id member.1)
  | missing {rules : List Rule} {key : String} (ruled : Ruled table node rules)
      (permitted : ∀ member ∈ properties node, Permits rules member.1)
      (first : FirstWithout (· ∈ node.map Prod.fst) (rules.flatMap Rule.required) key) :
      NodeViolates table ids id node (.missingRequiredKey id key)
  | value {rules : List Rule} {member : String × Json} {fault : Failure} (ruled : Ruled table node rules)
      (permitted : ∀ member ∈ properties node, Permits rules member.1)
      (present : ∀ key ∈ rules.flatMap Rule.required, key ∈ node.map Prod.fst)
      (first : FirstWithout (fun member => Suits rules ids member.1 member.2) (properties node) member)
      (violates : ValueViolates rules ids id member.1 member.2 fault) : NodeViolates table ids id node fault

/-- What keeps an item of a graph from being a node of its own, behind items with some ids. -/
inductive ItemViolates (index : Nat) (ids : List String) (item : Json) : Failure → Prop where
  | notObject (other : item.isObject = false) : ItemViolates index ids item (.malformedDocument (.nodeNotObject index))
  | withoutId (object : item.isObject = true) (unnamed : item.textAt? "@id" = none) :
      ItemViolates index ids item (.malformedDocument (.nodeWithoutId index))
  | collision {id : String} (named : item.textAt? "@id" = some id) (again : id ∈ ids) :
      ItemViolates index ids item (.graphIdCollision id)

/-- Items that have ids, no id twice. -/
structure Identified (items : List Json) : Prop where
  named : ∀ item ∈ items, ∃ id, item.textAt? "@id" = some id
  distinct : (idsOf items).Nodup

def ItemAccepted (table : Table) (ids : List String) (item : Json) : Prop :=
  ∃ node types, item = .object node ∧ NodeAccepted table ids node types

/-- The first thing that is wrong with a graph. Rules are only asked about when all ids are known. -/
inductive GraphViolates (table : Table) (items : List Json) : Failure → Prop where
  | item {before after : List Json} {item : Json} {fault : Failure} (split : items = before ++ item :: after)
      (identified : Identified before) (violates : ItemViolates before.length (idsOf before) item fault) :
      GraphViolates table items fault
  | node {id : String} {node : List (String × Json)} {fault : Failure} (identified : Identified items)
      (first : FirstWithout (ItemAccepted table (idsOf items)) items (.object node))
      (named : (Json.object node).textAt? "@id" = some id)
      (violates : NodeViolates table (idsOf items) id node fault) : GraphViolates table items fault

/-- The first thing that is wrong with a document. -/
inductive Violates (table : Table) (document : Json) : Failure → Prop where
  | context (absent : ∀ text, document.get? "@context" ≠ some (.string text)) :
      Violates table document (.malformedDocument .contextNotText)
  | graph {text : String} (context : document.get? "@context" = some (.string text))
      (absent : ∀ items, document.get? "@graph" ≠ some (.array items)) :
      Violates table document (.malformedDocument .graphNotList)
  | items {text : String} {items : List Json} {fault : Failure} (context : document.get? "@context" = some (.string text))
      (graph : document.get? "@graph" = some (.array items)) (violates : GraphViolates table items fault) :
      Violates table document fault

variable {table : Table} {rules : List Rule} {ids seen types : List String} {node : List (String × Json)}
  {value document : Json} {id key : String} {fault : Failure} {items before after : List Json} {index : Nat}

theorem permits_iff : Permits rules key ↔ ∃ rule ∈ rules, rule.permits key = true := by
  simp [Permits, Rule.permits]

theorem checkPermitted_eq_error : checkPermitted rules id key = .error fault ↔
    ¬ Permits rules key ∧ .disallowedKey id key = fault := by
  rw [checkPermitted, permits_iff, ← List.any_eq_true]
  split
  next permitted => simp [permitted]
  next refused => simp [refused]

theorem checkPresent_eq_error : checkPresent node id key = .error fault ↔
    key ∉ node.map Prod.fst ∧ .missingRequiredKey id key = fault := by
  rw [checkPresent, ← Entries.isSome_get?_iff]
  split
  next present => simp [present]
  next absent => simp [absent]

private theorem find?_unknown {targets : List String} {target : String} :
    (targets.find? fun target => !ids.contains target) = some target ↔ FirstWithout (· ∈ ids) targets target := by
  rw [List.find?_eq_some_iff_append]
  constructor
  · rintro ⟨missing, before, after, split, known⟩
    exact ⟨before, after, split, fun other member => by simpa using known other member, by simpa using missing⟩
  · rintro ⟨before, after, split, known, missing⟩
    exact ⟨by simpa using missing, before, after, split, fun other member => by simpa using known other member⟩

private theorem valueViolates_shapeless (links : Links rules key) (shapeless : targets? value = none) :
    ValueViolates rules ids id key value fault ↔ .invalidReferenceShape id key = fault := by
  have other : ∀ targets, ¬ Refers value targets := fun targets refers =>
    nomatch shapeless.symm.trans (targets?_eq_some.2 refers)
  constructor
  · intro violates
    cases violates with
    | shape _ _ => rfl
    | dangling _ refers _ _ => exact absurd refers (other _)
    | notPlain unlisted _ => exact absurd links unlisted
  · rintro rfl
    exact .shape links other

private theorem valueViolates_reference {targets : List String} (links : Links rules key)
    (refers : targets? value = some targets) : ValueViolates rules ids id key value fault ↔
      key ∉ exemptKeys ∧ ∃ target, FirstWithout (· ∈ ids) targets target ∧ .danglingReference id key target = fault := by
  constructor
  · intro violates
    cases violates with
    | shape _ shapeless => exact absurd (targets?_eq_some.1 refers) (shapeless targets)
    | @dangling _ target _ own followed first =>
      obtain rfl := Option.some.inj (refers.symm.trans (targets?_eq_some.2 own))
      exact ⟨followed, target, first, rfl⟩
    | notPlain unlisted _ => exact absurd links unlisted
  · rintro ⟨followed, target, first, rfl⟩
    exact .dangling links (targets?_eq_some.1 refers) followed first

private theorem valueViolates_unlisted (unlisted : ¬ Links rules key) : ValueViolates rules ids id key value fault ↔
    ¬ Plain value ∧ .malformedDocument (.notPlain id key) = fault := by
  constructor
  · intro violates
    cases violates with
    | shape links _ => exact absurd links unlisted
    | dangling links _ _ _ => exact absurd links unlisted
    | notPlain _ nested => exact ⟨nested, rfl⟩
  · rintro ⟨nested, rfl⟩
    exact .notPlain unlisted nested

theorem checkValue_eq_error : checkValue rules ids id key value = .error fault ↔
    ValueViolates rules ids id key value fault := by
  have listed : (rules.any fun rule => rule.isReference key) = true ↔ Links rules key := by
    simp [Links, Rule.isReference]
  unfold checkValue
  split
  next reference =>
    have links := listed.1 reference
    split
    next shapeless => simp [valueViolates_shapeless links shapeless]
    next targets refers =>
      rw [valueViolates_reference links refers]
      simp only [← find?_unknown]
      split
      next exempt =>
        have exempt : key ∈ exemptKeys := List.contains_iff_mem.1 exempt
        simp [exempt]
      next followed =>
        have followed : key ∉ exemptKeys := fun member => followed (List.contains_iff_mem.2 member)
        cases targets.find? fun target => !ids.contains target with
        | none => simp
        | some target => simp [followed]
  next plain =>
    rw [valueViolates_unlisted fun links => plain (listed.2 links), ← isPlain_iff]
    split
    next flat => simp [flat]
    next nested => simp [nested]

theorem rulesOf_eq_ok_iff : rulesOf table id node = .ok rules ↔ Ruled table node rules := by
  simp only [rulesOf_eq_ok, typesOf_eq_ok, Ruled]

private theorem mapM_text_eq_error {unlike : Json → Failure} :
    (items.mapM fun item => match item.text? with
      | some type => Except.ok type
      | none => .error (unlike item)) = .error fault ↔
    ∃ item, FirstWithout (fun item => ∃ type, item = .string type) items item ∧ unlike item = fault := by
  have text : ∀ (item : Json) (type : String), (match item.text? with
      | some type => Except.ok type
      | none => .error (unlike item)) = .ok type ↔ item = .string type := by
    intro item type
    cases item <;> simp [Json.text?]
  have other : ∀ item : Json, (match item.text? with
      | some type => Except.ok type
      | none => .error (unlike item)) = .error fault ↔ (¬ ∃ type, item = .string type) ∧ unlike item = fault := by
    intro item
    cases item <;> simp [Json.text?]
  simp only [Outcome.mapM_eq_error, text, other]
  exact exists_congr fun item => and_congr_right fun first => and_iff_right first.not_holds

private theorem typesOf_eq_error : typesOf id node = .error fault ↔ Untyped id node fault := by
  constructor
  · intro failed
    unfold typesOf at failed
    split at failed
    next => cases failed
    next stored =>
      cases failed
      exact .nothing (by simp [stored]) (by simp [stored])
    next items _ stored =>
      obtain ⟨item, first, rfl⟩ := mapM_text_eq_error.1 failed
      exact .entry stored first
    next single empty several =>
      cases failed
      exact .nothing single fun item rest => several (item :: rest)
  · intro untyped
    unfold typesOf
    cases untyped with
    | nothing single several =>
      split
      next stored => exact absurd stored (single _)
      next => rfl
      next items written stored =>
        obtain ⟨item, rest, rfl⟩ := List.exists_cons_of_ne_nil (fun empty => written empty)
        exact absurd stored (several item rest)
      next => rfl
    | @entry items item stored first =>
      obtain ⟨head, rest, rfl⟩ := List.exists_cons_of_ne_nil (List.ne_nil_of_mem first.mem)
      rw [stored]
      exact mapM_text_eq_error.2 ⟨item, first, rfl⟩

private theorem mapM_rule_eq_error : (types.mapM fun type => match table.get? type with
      | some rule => Except.ok rule
      | none => .error (Failure.schemaTypeUnknown id type)) = .error fault ↔
    ∃ type, FirstWithout (· ∈ table.keys) types type ∧ .schemaTypeUnknown id type = fault := by
  have known : ∀ type, (∃ rule, (match table.get? type with
      | some rule => Except.ok rule
      | none => .error (Failure.schemaTypeUnknown id type)) = .ok rule) ↔ type ∈ table.keys := by
    intro type
    rw [← OrderedMap.isSome_get?_iff]
    cases table.get? type <;> simp
  have unknown : ∀ type, (match table.get? type with
      | some rule => Except.ok rule
      | none => .error (Failure.schemaTypeUnknown id type)) = .error fault ↔
      type ∉ table.keys ∧ .schemaTypeUnknown id type = fault := by
    intro type
    rw [← OrderedMap.isSome_get?_iff]
    cases table.get? type <;> simp
  simp only [Outcome.mapM_eq_error, known, unknown]
  exact exists_congr fun type => and_congr_right fun first => and_iff_right first.not_holds

/-- The rules of a node cannot be found when its types cannot be read, or when one is unknown. -/
theorem rulesOf_eq_error : rulesOf table id node = .error fault ↔ Untyped id node fault ∨
    ∃ types type, Typed node types ∧ FirstWithout (· ∈ table.keys) (baseType :: types) type ∧
      .schemaTypeUnknown id type = fault := by
  rw [rulesOf, Outcome.bind_eq_error, typesOf_eq_error]
  refine or_congr_right (exists_congr fun types => ?_)
  rw [typesOf_eq_ok, exists_and_left]
  exact and_congr_right fun _ => mapM_rule_eq_error

theorem checkNode_eq_error : checkNode table ids id node = .error fault ↔ NodeViolates table ids id node fault := by
  have permitted : ∀ {rules key}, checkPermitted rules id key = .ok () ↔ Permits rules key :=
    checkPermitted_eq_ok.trans permits_iff.symm
  simp only [checkNode, Outcome.bind_eq_error, rulesOf_eq_error, rulesOf_eq_ok_iff, Outcome.forM_eq_error,
    Outcome.forM_eq_ok, permitted, checkPermitted_eq_error, checkPresent_eq_ok, checkPresent_eq_error, checkValue_eq_ok,
    checkValue_eq_error]
  constructor
  · rintro ((untyped | ⟨types, type, typed, first, rfl⟩) | ⟨rules, ruled, ⟨member, first, _, rfl⟩ |
      ⟨_, permitted, ⟨key, first, _, rfl⟩ | ⟨_, present, member, first, violates⟩⟩⟩)
    · exact .untyped untyped
    · exact .unknownType typed first
    · exact .disallowed ruled first
    · exact .missing ruled permitted first
    · exact .value ruled permitted present first violates
  · intro violates
    cases violates with
    | untyped untyped => exact Or.inl (Or.inl untyped)
    | unknownType typed first => exact Or.inl (Or.inr ⟨_, _, typed, first, rfl⟩)
    | disallowed ruled first => exact Or.inr ⟨_, ruled, Or.inl ⟨_, first, first.not_holds, rfl⟩⟩
    | missing ruled permitted first =>
      exact Or.inr ⟨_, ruled, Or.inr ⟨(), permitted, Or.inl ⟨_, first, first.not_holds, rfl⟩⟩⟩
    | value ruled permitted present first violates =>
      exact Or.inr ⟨_, ruled, Or.inr ⟨(), permitted, Or.inr ⟨(), present, _, first, violates⟩⟩⟩

variable {item : Json} {rest : List Json} {others : List String}

private theorem ItemViolates.congr (violates : ItemViolates index ids item fault) (same : ∀ id ∈ ids, id ∈ others) :
    ItemViolates index others item fault := by
  cases violates with
  | notObject other => exact .notObject other
  | withoutId object unnamed => exact .withoutId object unnamed
  | collision named again => exact .collision named (same _ again)

private theorem object_of_named (named : item.textAt? "@id" = some id) : item.isObject = true := by
  cases item with
  | object _ => rfl
  | null | bool _ | number _ | string _ | array _ => cases named

private theorem itemViolates_other (other : item.isObject = false) : ItemViolates index ids item fault ↔
    .malformedDocument (.nodeNotObject index) = fault := by
  constructor
  · intro violates
    cases violates with
    | notObject _ => rfl
    | withoutId object _ => cases other.symm.trans object
    | collision named _ => cases other.symm.trans (object_of_named named)
  · rintro rfl
    exact .notObject other

private theorem itemViolates_unnamed (object : item.isObject = true) (unnamed : item.textAt? "@id" = none) :
    ItemViolates index ids item fault ↔ .malformedDocument (.nodeWithoutId index) = fault := by
  constructor
  · intro violates
    cases violates with
    | notObject other => cases other.symm.trans object
    | withoutId _ _ => rfl
    | collision named _ => cases unnamed.symm.trans named
  · rintro rfl
    exact .withoutId object unnamed

private theorem itemViolates_named (named : item.textAt? "@id" = some id) : ItemViolates index ids item fault ↔
    id ∈ ids ∧ .graphIdCollision id = fault := by
  constructor
  · intro violates
    cases violates with
    | notObject other => cases other.symm.trans (object_of_named named)
    | withoutId _ unnamed => cases named.symm.trans unnamed
    | collision own again =>
      cases named.symm.trans own
      exact ⟨again, rfl⟩
  · rintro ⟨again, rfl⟩
    exact .collision named again

private theorem identify_cons_eq_error : identify index seen (item :: rest) = .error fault ↔
    ItemViolates index seen item fault ∨ ∃ id, item.textAt? "@id" = some id ∧ id ∉ seen ∧
      identify (index + 1) (id :: seen) rest = .error fault := by
  cases item with
  | object members =>
    simp only [identify, Json.members?]
    cases named : (Json.object members).textAt? "@id" with
    | none => simp [itemViolates_unnamed rfl named]
    | some id =>
      dsimp only
      split
      next again => simp [itemViolates_named named, again]
      next new => simp [itemViolates_named named, new, Outcome.bind_eq_error, pure, Except.pure]
  | null | bool _ | number _ | string _ | array _ =>
    rw [itemViolates_other rfl]
    simp [identify, Json.members?, Json.textAt?, Json.get?]

private theorem Identified.cons (identified : Identified rest) (named : item.textAt? "@id" = some id)
    (new : id ∉ idsOf rest) : Identified (item :: rest) where
  named := List.forall_mem_cons.2 ⟨⟨id, named⟩, identified.named⟩
  distinct := by
    have ids : idsOf (item :: rest) = id :: idsOf rest := List.filterMap_cons_some named
    rw [ids]
    exact List.nodup_cons.2 ⟨new, identified.distinct⟩

private theorem Identified.of_cons (identified : Identified (item :: rest)) :
    ∃ id, item.textAt? "@id" = some id ∧ id ∉ idsOf rest ∧ Identified rest := by
  obtain ⟨⟨id, named⟩, others⟩ := List.forall_mem_cons.1 identified.named
  have ids : idsOf (item :: rest) = id :: idsOf rest := List.filterMap_cons_some named
  have distinct := identified.distinct
  rw [ids, List.nodup_cons] at distinct
  exact ⟨id, named, distinct.1, others, distinct.2⟩

/-- Reading the ids of a graph stops at the first item without an id of its own. The items before
it have ids that are new, also beside those seen before. -/
theorem identify_eq_error : identify index seen items = .error fault ↔
    ∃ before item after, items = before ++ item :: after ∧ Identified before ∧ (∀ id ∈ idsOf before, id ∉ seen) ∧
      ItemViolates (index + before.length) (idsOf before ++ seen) item fault := by
  induction items generalizing index seen with
  | nil => simp [identify]
  | cons head rest ih =>
    simp only [identify_cons_eq_error, ih]
    constructor
    · rintro (violates | ⟨id, named, new, before, item, after, rfl, identified, fresh, violates⟩)
      · exact ⟨[], head, rest, rfl, ⟨by simp, List.nodup_nil⟩, by simp [idsOf], violates⟩
      · have ids : idsOf (head :: before) = id :: idsOf before := List.filterMap_cons_some named
        have apart : id ∉ idsOf before := fun member => fresh id member List.mem_cons_self
        refine ⟨head :: before, item, after, rfl, identified.cons named apart, ?_, ?_⟩
        · rw [ids]
          exact List.forall_mem_cons.2 ⟨new, fun other member old => fresh other member (List.mem_cons_of_mem _ old)⟩
        · rw [List.length_cons, Nat.add_comm before.length, ← Nat.add_assoc, ids]
          exact violates.congr fun _ => List.perm_middle.mem_iff.1
    · rintro ⟨before, item, after, split, identified, fresh, violates⟩
      cases before with
      | nil =>
        obtain ⟨rfl, rfl⟩ := List.cons.inj split
        exact Or.inl violates
      | cons first before =>
        obtain ⟨rfl, rfl⟩ := List.cons.inj split
        obtain ⟨id, named, apart, identified⟩ := identified.of_cons
        have ids : idsOf (head :: before) = id :: idsOf before := List.filterMap_cons_some named
        rw [ids] at fresh violates
        obtain ⟨new, fresh⟩ := List.forall_mem_cons.1 fresh
        refine Or.inr ⟨id, named, new, before, item, after, rfl, identified, fun other member => ?_, ?_⟩
        · rw [List.mem_cons, not_or]
          exact ⟨fun same => apart (same ▸ member), fresh other member⟩
        · rw [List.length_cons, Nat.add_comm before.length, ← Nat.add_assoc] at violates
          exact violates.congr fun _ => List.perm_middle.mem_iff.2

private theorem nodesOf_eq_error : nodesOf document = .error fault ↔
    ((∀ text, document.get? "@context" ≠ some (.string text)) ∧ .malformedDocument .contextNotText = fault) ∨
    ∃ text, document.get? "@context" = some (.string text) ∧
      (((∀ items, document.get? "@graph" ≠ some (.array items)) ∧ .malformedDocument .graphNotList = fault) ∨
        ∃ items, document.get? "@graph" = some (.array items) ∧ identify 0 [] items = .error fault) := by
  unfold nodesOf
  simp only [Json.textAt?, ne_eq, ← bind_text?_eq_some, ← bind_items?_eq_some]
  cases (document.get? "@context").bind Json.text? with
  | none => simp
  | some context =>
    cases (document.get? "@graph").bind Json.items? <;> simp

/-- Nodes read from a graph fail as the items of the graph do. -/
theorem nodes_eq_error {nodes : List (String × List (String × Json))} (read : identify 0 [] items = .ok nodes) :
    (nodes.forM fun node => checkNode table (nodes.map Prod.fst) node.1 node.2) = .error fault ↔
      ∃ id node, FirstWithout (ItemAccepted table (idsOf items)) items (.object node) ∧
        (Json.object node).textAt? "@id" = some id ∧ NodeViolates table (idsOf items) id node fault := by
  have lists := (identify_lists read).1
  have accepted : ∀ node : String × List (String × Json), ItemAccepted table (idsOf items) (.object node.2) ↔
      ∃ types, NodeAccepted table (idsOf items) node.2 types := by
    intro node
    simp [ItemAccepted]
  have first : ∀ members, FirstWithout (ItemAccepted table (idsOf items)) items (.object members) ↔
      ∃ node, FirstWithout (fun node => ∃ types, NodeAccepted table (idsOf items) node.2 types) nodes node ∧
        node.2 = members := by
    intro members
    have mapped : FirstWithout (ItemAccepted table (idsOf items)) (nodes.map fun node => .object node.2)
        (.object members) ↔ _ := Outcome.firstWithout_map
    rw [← lists.objects] at mapped
    simpa only [accepted, Json.object.injEq] using mapped
  simp only [Outcome.forM_eq_error, ← lists.idsOf_eq, checkNode_iff, checkNode_eq_error, first]
  constructor
  · rintro ⟨node, first, violates⟩
    exact ⟨node.1, node.2, ⟨node, first, rfl⟩, lists.named node first.mem, violates⟩
  · rintro ⟨id, _, ⟨node, first, rfl⟩, named, violates⟩
    obtain rfl := Option.some.inj ((lists.named node first.mem).symm.trans named)
    exact ⟨node, first, violates⟩

private theorem identified_of_read {nodes : List (String × List (String × Json))}
    (read : identify 0 [] items = .ok nodes) : Identified items := by
  obtain ⟨lists, distinct, _⟩ := identify_lists read
  refine ⟨?_, lists.idsOf_eq ▸ distinct⟩
  rw [lists.objects]
  exact List.forall_mem_map.2 fun node member => ⟨node.1, lists.named node member⟩

theorem graph_eq_error : (identify 0 [] items = .error fault ∨ ∃ nodes, identify 0 [] items = .ok nodes ∧
      (nodes.forM fun node => checkNode table (nodes.map Prod.fst) node.1 node.2) = .error fault) ↔
    GraphViolates table items fault := by
  constructor
  · rintro (failed | ⟨nodes, read, failed⟩)
    · obtain ⟨before, item, after, split, identified, _, violates⟩ := identify_eq_error.1 failed
      rw [Nat.zero_add, List.append_nil] at violates
      exact .item split identified violates
    · obtain ⟨id, node, first, named, violates⟩ := (nodes_eq_error read).1 failed
      exact .node (identified_of_read read) first named violates
  · intro violates
    cases violates with
    | @item before after item _ split identified violates =>
      refine Or.inl (identify_eq_error.2 ⟨before, item, after, split, identified, by simp, ?_⟩)
      rwa [Nat.zero_add, List.append_nil]
    | node identified first named violates =>
      obtain ⟨nodes, read⟩ := identify_succeeds identified.named identified.distinct 0 [] (by simp)
      exact Or.inr ⟨nodes, read, (nodes_eq_error read).2 ⟨_, _, first, named, violates⟩⟩

/-- A validation fails exactly when something is wrong with the document, and with the failure
that names the first thing that is. -/
theorem validation_names_the_first_violation (table : Table) (document : Json) (fault : Failure) :
    validate table document = .error fault ↔ Violates table document fault := by
  simp only [validate, Outcome.bind_eq_error, nodesOf_eq_error, nodesOf_eq_ok]
  constructor
  · rintro ((⟨absent, rfl⟩ | ⟨text, context, ⟨absent, rfl⟩ | ⟨items, graph, failed⟩⟩) |
      ⟨nodes, ⟨⟨text, context⟩, items, graph, read⟩, failed⟩)
    · exact .context absent
    · exact .graph context absent
    · exact .items context graph (graph_eq_error.1 (Or.inl failed))
    · exact .items context graph (graph_eq_error.1 (Or.inr ⟨nodes, read, failed⟩))
  · intro violates
    cases violates with
    | context absent => exact Or.inl (Or.inl ⟨absent, rfl⟩)
    | graph context absent => exact Or.inl (Or.inr ⟨_, context, Or.inl ⟨absent, rfl⟩⟩)
    | items context graph violates =>
      rcases graph_eq_error.2 violates with failed | ⟨nodes, read, failed⟩
      · exact Or.inl (Or.inr ⟨_, context, Or.inr ⟨_, graph, failed⟩⟩)
      · exact Or.inr ⟨nodes, ⟨⟨_, context⟩, _, graph, read⟩, failed⟩

/-- A key that no rule permits is named before a reference to nothing that stands ahead of it. -/
example : validate Table.draft (.object [("@context", .string "c"), ("@graph", .array [.object
    [("@id", .string "tool"), ("@type", .string "SoftwareApplication"), ("input", .object [("@id", .string "nowhere")]),
      ("color", .string "red")]])]) = .error (.disallowedKey "tool" "color") := rfl

end Provenance.Schema
