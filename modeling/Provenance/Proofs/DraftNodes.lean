import Provenance.Graph.Draft
import Provenance.Proofs.DocumentChecks
import Provenance.Schema.Draft

/-! Each kind of node that a draft makes keeps to the draft schema, as long as
what it refers to has an id. Only links need this: names, descriptions, paths
and formats may be any text. -/

namespace Provenance.Graph

open Schema (Rule Table thingRule creativeWorkRule datasetRule workflowRule)

/-- The node is what the schema asks of a node of its types. -/
def Node.Conforms (table : Table) (ids : List String) (n : Node) : Prop :=
  n.Plain ∧ ∃ rules, n.Governed table rules ∧ n.Obeys rules ids

/-- A property that some rule permits, with a value that suits its key. -/
def Admits (rules : List Rule) (ids : List String) (pair : String × Property) : Prop :=
  (pair.1 ≠ "@id" ∧ pair.1 ≠ "@type") ∧ (∃ rule ∈ rules, rule.permits pair.1 = true) ∧
    Schema.Suits rules ids pair.1 pair.2.toJson

private theorem Node.conforms_of_entries (rules : List Rule) {n : Node} {table : Table} {ids : List String}
    {pairs : List (String × Property)} (governed : n.Governed table rules)
    (listed : n.properties.entries = pairs) (admitted : ∀ pair ∈ pairs, Admits rules ids pair)
    (present : ∀ rule ∈ rules, ∀ key ∈ rule.required, key ∈ pairs.map Prod.fst) : n.Conforms table ids := by
  have keys : n.properties.keys = pairs.map Prod.fst := congrArg (List.map Prod.fst) listed
  have row : ∀ key ∈ n.properties.keys, ∃ value, Admits rules ids (key, value) := by
    intro key known
    rw [keys] at known
    obtain ⟨⟨_, value⟩, member, rfl⟩ := List.mem_map.1 known
    exact ⟨value, admitted _ member⟩
  refine ⟨⟨fun known => ?_, fun known => ?_⟩, rules, governed, ?_, ?_, ?_⟩
  · obtain ⟨_, admitted⟩ := row _ known
    exact admitted.1.1 rfl
  · obtain ⟨_, admitted⟩ := row _ known
    exact admitted.1.2 rfl
  · intro key known
    obtain ⟨_, admitted⟩ := row key known
    exact admitted.2.1
  · intro rule member key needed
    rw [keys]
    exact List.mem_cons_of_mem _ (List.mem_cons_of_mem _ (present rule member key needed))
  · intro key value stored
    exact (admitted (key, value) (listed ▸ stored)).2.2

private theorem forall_mem_optionalText {key : String} {text : Option String} {holds : String × Property → Prop} :
    (∀ pair ∈ optionalText key text, holds pair) ↔ ∀ value, text = some value → holds (key, .text value) := by
  cases text <;> simp [optionalText]

private theorem forall_mem_connectionLinks {ids : List String} {holds : String × Property → Prop} :
    (∀ pair ∈ connectionLinks ids, holds pair) ↔ (ids ≠ [] → holds ("connection", .links ids)) := by
  cases ids <;> simp [connectionLinks]

variable {ids : List String}

theorem descriptorNode_conforms (root : rootId ∈ ids) : descriptorNode.Conforms Table.draft ids := by
  refine Node.conforms_of_entries [thingRule, creativeWorkRule]
    ⟨by simp [descriptorNode], .cons rfl (.cons rfl .nil)⟩ (OrderedMap.entries_ofList (by decide)) ?_ ?_
  · simp only [List.forall_mem_cons]
    simp [Admits, Rule.permits, Schema.Suits, Rule.isReference, thingRule, creativeWorkRule, Schema.exemptKeys,
      Property.targets?, root]
  · simp [thingRule, creativeWorkRule]

theorem rootNode_conforms {settings : Settings} (workflow : settings.workflow ∈ ids) :
    (rootNode settings).Conforms Table.draft ids := by
  refine Node.conforms_of_entries [thingRule, datasetRule]
    ⟨by simp [rootNode], .cons rfl (.cons rfl .nil)⟩ (OrderedMap.entries_ofList (by simp)) ?_ ?_
  · simp only [List.forall_mem_cons]
    simp [Admits, Rule.permits, Schema.Suits, Rule.isReference, thingRule, datasetRule, Schema.exemptKeys,
      Property.targets?, workflow]
  · simp [thingRule, datasetRule]

theorem languageNode_conforms (language : Language) : (languageNode language).Conforms Table.draft ids := by
  refine Node.conforms_of_entries [thingRule, { allowed := ["version"] }]
    ⟨by simp [languageNode], .cons rfl (.cons rfl .nil)⟩ (OrderedMap.entries_ofList ?_) ?_ ?_
  · cases language.url <;> cases language.version <;> simp [optionalText]
  · simp only [List.forall_mem_append, List.forall_mem_cons, List.forall_mem_map,
      forall_mem_optionalText]
    simp [Admits, Rule.permits, Schema.Suits, Rule.isReference, thingRule, Schema.exemptKeys, Property.targets?,
      Property.isPlain]
  · simp [thingRule]

theorem profileNode_conforms (profile : Profile) : (profileNode profile).Conforms Table.draft ids := by
  refine Node.conforms_of_entries [thingRule, creativeWorkRule]
    ⟨by simp [profileNode], .cons rfl (.cons rfl .nil)⟩ (OrderedMap.entries_ofList (by simp)) ?_ ?_
  · simp only [List.forall_mem_cons]
    simp [Admits, Rule.permits, Schema.Suits, Rule.isReference, thingRule, creativeWorkRule, Property.isPlain]
  · simp [thingRule, creativeWorkRule]

theorem portNode_conforms (workflow : String) (port : Port) : (portNode workflow port).Conforms Table.draft ids := by
  refine Node.conforms_of_entries
    [thingRule, { required := ["name"], allowed := ["encodingFormat", "defaultValue"] }]
    ⟨by simp [portNode], .cons rfl (.cons rfl .nil)⟩ (OrderedMap.entries_ofList ?_) ?_ ?_
  · cases port.format <;> simp [optionalText]
  · simp only [List.forall_mem_append, List.forall_mem_cons, forall_mem_optionalText]
    simp [Admits, Rule.permits, Schema.Suits, Rule.isReference, thingRule, Property.isPlain]
  · simp [thingRule]

theorem connectionNode_conforms {workflow : String} {number : Nat} {connection : Connection}
    (source : localId workflow connection.source ∈ ids) (target : localId workflow connection.target ∈ ids) :
    (connectionNode workflow number connection).Conforms Table.draft ids := by
  refine Node.conforms_of_entries
    [thingRule,
      { required := ["sourceParameter", "targetParameter"], references := ["sourceParameter", "targetParameter"] }]
    ⟨by simp [connectionNode], .cons rfl (.cons rfl .nil)⟩ (OrderedMap.entries_ofList (by simp)) ?_ ?_
  · simp only [List.forall_mem_cons]
    simp [Admits, Rule.permits, Schema.Suits, Rule.isReference, thingRule, Property.targets?, source, target]
  · simp [thingRule]

theorem stepNode_conforms {workflow step : String} {position : Nat} {connections : List String}
    (tool : localId workflow step ∈ ids) (known : ∀ id ∈ connections, id ∈ ids) :
    (stepNode workflow step position connections).Conforms Table.draft ids := by
  refine Node.conforms_of_entries
    [thingRule,
      { required := ["position", "workExample"], allowed := ["connection"]
        references := ["workExample", "connection"] }]
    ⟨by simp [stepNode], .cons rfl (.cons rfl .nil)⟩ (OrderedMap.entries_ofList ?_) ?_ ?_
  · cases connections <;> simp [connectionLinks]
  · simp only [List.forall_mem_append, List.forall_mem_cons, forall_mem_connectionLinks]
    simp +contextual [Admits, Rule.permits, Schema.Suits, Rule.isReference, thingRule, Property.targets?,
      Property.isPlain, tool, known]
  · simp [thingRule]

theorem toolNode_conforms {workflow step : String} {part : Part}
    (ports : ∀ port ∈ part.inputs ++ part.outputs, localId workflow port.name ∈ ids) :
    (toolNode workflow step part).Conforms Table.draft ids := by
  have known := List.forall_mem_append.1 ports
  refine Node.conforms_of_entries
    [thingRule, { allowed := ["input", "output"], references := ["input", "output"] }]
    ⟨by simp [toolNode], .cons rfl (.cons rfl .nil)⟩ (OrderedMap.entries_ofList ?_) ?_ ?_
  · cases part.description <;> simp [optionalText]
  · simp only [List.forall_mem_append, List.forall_mem_cons, forall_mem_optionalText]
    simpa [Admits, Rule.permits, Schema.Suits, Rule.isReference, thingRule, Property.targets?, Property.isPlain,
      Schema.exemptKeys, portLinks] using known
  · simp [thingRule]

theorem workflowNode_conforms {settings : Settings} {draft : Draft} {connections : List String}
    (language : settings.language.id ∈ ids)
    (ports : ∀ port ∈ draft.workflow.inputs ++ draft.workflow.outputs, localId settings.workflow port.name ∈ ids)
    (steps : ∀ step ∈ draft.steps.keys, stepId settings.workflow step ∈ ids)
    (tools : ∀ step ∈ draft.steps.keys, localId settings.workflow step ∈ ids)
    (known : ∀ id ∈ connections, id ∈ ids) :
    (workflowNode settings draft connections).Conforms Table.draft ids := by
  obtain ⟨inputs, outputs⟩ := List.forall_mem_append.1 ports
  refine Node.conforms_of_entries
    [thingRule, { allowed := ["exampleOfWork"], references := ["exampleOfWork"] }, {}, workflowRule,
      { required := ["step"], references := ["step"] }]
    ⟨by simp [workflowNode, workflowTypes], .cons rfl (.cons rfl (.cons rfl (.cons rfl (.cons rfl .nil))))⟩
    (OrderedMap.entries_ofList ?_) ?_ ?_
  · cases connections <;> simp [connectionLinks]
  · simp only [List.forall_mem_append, List.forall_mem_cons, forall_mem_connectionLinks]
    simpa [Admits, Rule.permits, Schema.Suits, Rule.isReference, thingRule, workflowRule, Property.targets?,
      Property.isPlain, Schema.exemptKeys, portLinks, language] using
      ⟨⟨inputs, outputs, steps, tools⟩, fun _ => known⟩
  · simp [thingRule, workflowRule]

end Provenance.Graph
