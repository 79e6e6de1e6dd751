import Provenance.Proofs.WrittenIds

/-! Valid documents of which one property is changed. The verdict on the document afterwards
hangs on the changed property alone, and on the rules of the node that it belongs to. -/

namespace Provenance.Graph

open Schema (Rule RuleFor ReferenceKey Table)

variable {n node : Node} {d after : Document} {table : Table} {rules : List Rule} {ids : List String} {key : String}
  {value : Property}

/-- The rules for a node allow a property: one of them knows the key, links are written under a
reference key and nothing else, and they lead to known ids unless the key is exempt. -/
structure Node.Takes (table : Table) (ids : List String) (n : Node) (key : String) (value : Property) : Prop where
  permitted : ∃ rule, RuleFor table n.types rule ∧ (key ∈ rule.required ∨ key ∈ rule.allowed)
  suited : (ReferenceKey table n.types key ∧ ∃ targets, value.targets? = some targets ∧
      (key ∉ Schema.exemptKeys → ∀ target ∈ targets, target ∈ ids)) ∨
    (¬ ReferenceKey table n.types key ∧ value.isPlain = true)

namespace Node

private theorem mem_keys_setProperty {other : String} :
    other ∈ (n.setProperty key value).properties.keys ↔ other = key ∨ other ∈ n.properties.keys :=
  Entries.mem_keys_insert

private theorem Plain.setProperty (plain : n.Plain) (notId : key ≠ "@id") (notType : key ≠ "@type") :
    (n.setProperty key value).Plain := by
  constructor
  · rw [mem_keys_setProperty, not_or]
    exact ⟨Ne.symm notId, plain.1⟩
  · rw [mem_keys_setProperty, not_or]
    exact ⟨Ne.symm notType, plain.2⟩

/-- A node that keeps to its rules keeps to them after a change exactly when the new property does. -/
theorem Obeys.setProperty_iff (obeys : n.Obeys rules ids) : (n.setProperty key value).Obeys rules ids ↔
    (∃ rule ∈ rules, rule.permits key = true) ∧ Schema.Suits rules ids key value.toJson := by
  have stored : ∀ other property, (other, property) ∈ (n.setProperty key value).properties.entries ↔
      if key = other then some value = some property else (other, property) ∈ n.properties.entries := by
    intro other property
    rw [← OrderedMap.get?_eq_some_iff, ← OrderedMap.get?_eq_some_iff, Node.setProperty, OrderedMap.get?_insert]
    split <;> rfl
  constructor
  · intro changed
    exact ⟨changed.permitted key (mem_keys_setProperty.2 (Or.inl rfl)),
      changed.suited key value ((stored key value).2 (by simp))⟩
  · rintro ⟨permitted, suits⟩
    refine ⟨fun other member => ?_, fun rule own needed required => ?_, fun other property member => ?_⟩
    · rcases mem_keys_setProperty.1 member with rfl | old
      · exact permitted
      · exact obeys.permitted other old
    · have present := obeys.present rule own needed required
      simp only [List.mem_cons] at present ⊢
      exact present.imp_right (Or.imp_right fun old => mem_keys_setProperty.2 (Or.inr old))
    · rw [stored] at member
      split at member
      next same =>
        cases same
        cases member
        exact suits
      next => exact obeys.suited other property member

private theorem Governed.unique {others : List Rule} (governed : n.Governed table rules)
    (again : n.Governed table others) : rules = others := by
  have first : (Schema.baseType :: n.types).map table.get? = rules.map some :=
    Outcome.map_eq_of_forall₂ governed.2 fun _ _ found => found
  have second : (Schema.baseType :: n.types).map table.get? = others.map some :=
    Outcome.map_eq_of_forall₂ again.2 fun _ _ found => found
  exact List.map_injective_iff.2 (fun _ _ same => Option.some.inj same) (first.symm.trans second)

private theorem Governed.takes_iff (governed : n.Governed table rules) : n.Takes table ids key value ↔
    (∃ rule ∈ rules, rule.permits key = true) ∧ Schema.Suits rules ids key value.toJson := by
  have rule : ∀ rule, RuleFor table n.types rule ↔ rule ∈ rules := fun rule => (Schema.mem_rules_iff governed.2).symm
  have permits : (∃ rule ∈ rules, rule.permits key = true) ↔
      ∃ rule, RuleFor table n.types rule ∧ (key ∈ rule.required ∨ key ∈ rule.allowed) := by
    simp [rule, Rule.permits]
  have reference : (∃ rule ∈ rules, key ∈ rule.references) ↔ ReferenceKey table n.types key := by
    simp only [ReferenceKey, rule]
  rw [permits, Schema.suits_iff, reference]
  simp only [← Schema.targets?_eq_some, ← Schema.isPlain_iff, Property.targets?_toJson, Property.isPlain_toJson]
  constructor
  · rintro ⟨permitted, links | plain⟩
    · exact ⟨permitted, fun _ => links.2, fun unlisted => absurd links.1 unlisted⟩
    · exact ⟨permitted, fun listed => absurd listed plain.1, fun _ => plain.2⟩
  · rintro ⟨permitted, links, plain⟩
    by_cases listed : ReferenceKey table n.types key
    · exact ⟨permitted, Or.inl ⟨listed, links listed⟩⟩
    · exact ⟨permitted, Or.inr ⟨listed, plain listed⟩⟩

end Node

theorem Document.nodes_setProperty {id : String} (changed : d.setProperty id key value = .ok after) :
    after.nodes = d.nodes.map fun other => if other.id = id then other.setProperty key value else other := by
  unfold setProperty at changed
  split at changed
  · cases changed
    rfl
  · cases changed

theorem Document.ids_setProperty {id : String} (changed : d.setProperty id key value = .ok after) : after.ids = d.ids := by
  rw [ids, nodes_setProperty changed, ids, List.map_map]
  refine List.map_congr_left fun other _ => ?_
  rw [Function.comp_apply]
  split <;> rfl

/-- No other node is looked at anew: its rules and the known ids are what they were. -/
theorem Document.validate_setProperty (distinct : d.ids.Nodup) (plain : ∀ node ∈ d.nodes, node.Plain)
    (valid : Schema.validate table d.toJson = .ok ()) (stored : node ∈ d.nodes) (notId : key ≠ "@id")
    (notType : key ≠ "@type") (changed : d.setProperty node.id key value = .ok after) :
    Schema.validate table after.toJson = .ok () ↔ node.Takes table d.ids key value := by
  have ids := ids_setProperty changed
  have nodes := nodes_setProperty changed
  have only : ∀ other ∈ d.nodes, other.id = node.id → other = node := fun other member same =>
    List.inj_on_of_nodup_map distinct member stored same
  have stillPlain : ∀ other ∈ after.nodes, other.Plain := by
    rw [nodes]
    refine List.forall_mem_map.2 fun other member => ?_
    split
    · exact (plain other member).setProperty notId notType
    · exact plain other member
  rw [validate_toJson distinct plain] at valid
  obtain ⟨rules, governed, obeys⟩ := valid node stored
  rw [validate_toJson (ids ▸ distinct) stillPlain, governed.takes_iff, ← obeys.setProperty_iff, ids, nodes,
    List.forall_mem_map]
  constructor
  · intro obeyed
    obtain ⟨others, own, obeyed⟩ := obeyed node stored
    rw [if_pos rfl] at own obeyed
    have same : others = rules := own.unique governed
    exact same ▸ obeyed
  · intro obeyed other member
    split
    next same =>
      obtain rfl := only other member same
      exact ⟨rules, governed, obeyed⟩
    next => exact valid other member

namespace Store

/-- A document stays valid under a change of one property exactly when the rules of the node
allow this property. -/
theorem patched_documents_follow_the_rules (table : Table) (context : String) (calls : List Call) (id key : String)
    (value : Property) (node : Node) (stored : (run { context } calls).node? id = some node)
    (valid : Schema.validate table (run { context } calls).toDocument.toJson = .ok ())
    (plain : ∀ node ∈ (run { context } calls).nodes, node.Plain) (notId : key ≠ "@id") (notType : key ≠ "@type") :
    Schema.validate table (run { context } (calls ++ [.setProperty id key value])).toDocument.toJson = .ok () ↔
      node.Takes table (run { context } calls).ids key value := by
  have indexed := (Indexed.empty context).run calls
  obtain ⟨member, rfl⟩ := (indexed.finds id node).1 stored
  rw [run_concat]
  cases indexed.answers_setProperty node.id key value with
  | done after answered _ applied =>
    rw [answered]
    exact Document.validate_setProperty indexed.distinct plain valid member notId notType applied
  | failed fault answered _ =>
    have succeeds := (indexed.sets node.id key value).succeeds.2 (List.mem_map_of_mem member)
    cases succeeds.symm.trans (congrArg Prod.fst answered)

/-- A tool that is alone in its document. -/
def toolCalls : List Call := [.add { id := "tool", types := ["SoftwareApplication"] }]

def loneTool : Node := { id := "tool", types := ["SoftwareApplication"] }

theorem lone_tool_takes_itself : Schema.validate Table.draft (run { context := "c" } toolCalls).toDocument.toJson = .ok () ∧
    loneTool.Takes Table.draft ["tool"] "input" (.links ["tool"]) ∧
    ¬ loneTool.Takes Table.draft ["tool"] "input" (.links ["file"]) ∧
    loneTool.Takes Table.draft ["tool"] "url" (.link "https://example.org/tool") ∧
    ¬ loneTool.Takes Table.draft ["tool"] "step" (.links []) := by
  have stored : (run { context := "c" } toolCalls).node? "tool" = some loneTool := rfl
  have valid : Schema.validate Table.draft (run { context := "c" } toolCalls).toDocument.toJson = .ok () := rfl
  have plain : ∀ node ∈ (run { context := "c" } toolCalls).nodes, node.Plain :=
    List.forall_mem_singleton.2 ⟨List.not_mem_nil, List.not_mem_nil⟩
  have patched : ∀ key value, key ≠ "@id" → key ≠ "@type" →
      (Schema.validate Table.draft (run { context := "c" } (toolCalls ++ [.setProperty "tool" key value])).toDocument.toJson =
        .ok () ↔ loneTool.Takes Table.draft ["tool"] key value) := fun key value =>
    patched_documents_follow_the_rules _ _ toolCalls "tool" key value _ stored valid plain
  refine ⟨valid, (patched _ _ (by decide) (by decide)).1 rfl, ?_, (patched _ _ (by decide) (by decide)).1 rfl, ?_⟩
  · rw [← patched _ _ (by decide) (by decide)]
    nofun
  · rw [← patched _ _ (by decide) (by decide)]
    nofun

end Store

end Provenance.Graph
