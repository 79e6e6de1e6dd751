import Provenance.Proofs.DocumentFlow

/-! The ports that a document joins. What a transfer moves leaves through a port of the
site it comes from and enters through a port of the site it goes to, and the document
has a connection between the two. -/

namespace Provenance.Graph

open Provenance.Flow (ComputeStep TransferItem Step)

namespace Document

/-- The ports through which data leaves a site: inputs of the workflow or outputs of a tool. -/
def offersAt (d : Document) (workflow : String) : Site → List String
  | .orchestrator => d.linksAt workflow "input"
  | .step name => d.linksAt (localId workflow name) "output"

/-- The ports through which data enters a site: outputs of the workflow or inputs of a tool. -/
def takesAt (d : Document) (workflow : String) : Site → List String
  | .orchestrator => d.linksAt workflow "output"
  | .step name => d.linksAt (localId workflow name) "input"

/-- There is a connection from a port of one site to a port of another. -/
structure Joins (d : Document) (workflow : String) (source target : Site) (first second : String) : Prop where
  leaves : first ∈ d.offersAt workflow source
  enters : second ∈ d.takesAt workflow target
  connection : ∃ node ∈ d.nodes, node.hasType "ParameterConnection" = true ∧
    node.property? "sourceParameter" = some (.link first) ∧ node.property? "targetParameter" = some (.link second)

end Document

private theorem toolNode_ports (workflow step : String) (part : Part) :
    (toolNode workflow step part).property? "input" = some (portLinks workflow part.inputs) ∧
      (toolNode workflow step part).property? "output" = some (portLinks workflow part.outputs) := by
  obtain ⟨description, inputs, outputs, connections⟩ := part
  cases description <;> exact ⟨rfl, rfl⟩

private theorem workflowNode_ports (settings : Settings) (draft : Draft) (ids : List String) :
    (workflowNode settings draft ids).property? "input" = some (portLinks settings.workflow draft.workflow.inputs) ∧
      (workflowNode settings draft ids).property? "output" =
        some (portLinks settings.workflow draft.workflow.outputs) := by
  cases ids <;> exact ⟨rfl, rfl⟩

namespace Draft

variable {d after draft : Draft} {settings : Settings} {site source destination : Site} {name : String} {port : Port}
  {item : TransferItem} {steps before : List Step} {previous : Option String} {hop : Hop}

/-- Data can leave the site under this name. -/
def Feeds (d : Draft) (site : Site) (name : String) : Prop :=
  name ∈ (site.sources (d.part site)).map Port.name

theorem feeds_addSource {other : Site} : (d.addSource other port).Feeds site name ↔
    d.Feeds site name ∨ other = site ∧ name = port.name := by
  rw [Feeds, sources_addSource]
  by_cases same : other = site
  · subst same
    rw [if_pos rfl, mem_names_addPort, Feeds]
    simp
  · simp [same, Feeds]

theorem feeds_connectTo {other : Site} {first : String} :
    (d.connectTo other first port).Feeds site name ↔ d.Feeds site name := by
  rw [Feeds, sources_connectTo]
  exact Iff.rfl

private theorem feeds_addItem : (addItem source destination d item).Feeds site name ↔
    d.Feeds site name ∨ source = site ∧ name = source.portName item.sourcePath.text :=
  feeds_connectTo.trans feeds_addSource

private theorem feeds_addItems {items : List TransferItem} :
    (items.foldl (addItem source destination) d).Feeds site name ↔
    d.Feeds site name ∨ source = site ∧ ∃ item ∈ items, name = source.portName item.sourcePath.text := by
  induction items generalizing d with
  | nil => simp
  | cons item rest ih =>
    rw [List.foldl_cons, ih, feeds_addItem, or_assoc, List.exists_mem_cons_iff, ← and_or_left]

private theorem Feeds.addResult (feeds : d.Feeds site name) (step : ComputeStep) :
    (d.addResult step).Feeds site name := by
  unfold Draft.addResult
  split
  · exact feeds
  · exact feeds_addSource.2 (Or.inl feeds)

private theorem Feeds.addSteps (feeds : d.Feeds site name) (added : d.addSteps settings previous steps = .ok after) :
    after.Feeds site name := by
  induction steps generalizing previous d with
  | nil =>
    cases added
    exact feeds
  | cons step rest ih =>
    cases step with
    | compute step => exact ih (feeds.addResult step) added
    | transfer step =>
      obtain ⟨source, _, later⟩ := Outcome.bind_eq_ok.1 added
      obtain ⟨destination, _, later⟩ := Outcome.bind_eq_ok.1 later
      exact ih (feeds_addItems.2 (Or.inl feeds)) later

/-- What a transfer moves leaves the site that the transfer starts at. -/
private theorem feeds_of_hop (added : d.addSteps settings (latest? before) steps = .ok after)
    (member : hop ∈ hops before steps) (origin : hop.source? settings = some source)
    (moved : item ∈ hop.transfer.items) : after.Feeds source (source.portName item.sourcePath.text) := by
  induction steps generalizing before d with
  | nil => cases member
  | cons step rest ih =>
    cases step with
    | compute step =>
      rw [addSteps, ← latest?_compute before step] at added
      exact ih added member
    | transfer transfer =>
      obtain ⟨refusal, _, failed⟩ | ⟨first, second, start, _, next⟩ :=
        addSteps_transfer settings d before transfer rest
      · cases failed.symm.trans added
      · rw [next] at added
        rcases List.mem_cons.1 member with rfl | later
        · cases origin.symm.trans start
          exact Feeds.addSteps (feeds_addItems.2 (Or.inr ⟨rfl, item, moved, rfl⟩)) added
        · rw [← latest?_transfer before transfer] at added
          exact ih added later

variable {document : Document} {connection : Connection}

theorem Feeds.knows (feeds : draft.Feeds site name) : draft.Knows site := by
  by_contra unknown
  rw [Feeds, part_unknown unknown] at feeds
  cases site <;> cases feeds

theorem Takes.knows (takes : draft.Takes site name) : draft.Knows site := by
  by_contra unknown
  rw [Takes, part_unknown unknown] at takes
  cases site <;> cases takes

private theorem linksAt_of_ports {nodes : List Node} (collects : document.Collects nodes) {node : Node}
    (member : node ∈ nodes)
    {workflow key : String} {ports : List Port} (listed : node.property? key = some (portLinks workflow ports)) :
    document.linksAt node.id key = ports.map fun port => localId workflow port.name := by
  rw [Document.linksAt, collects.property?_eq member, listed]
  rfl

theorem toolNode_emitted (settings : Settings) {step : String} (known : step ∈ draft.steps.keys) :
    toolNode settings.workflow step (draft.part (.step step)) ∈ draft.nodes settings := by
  obtain ⟨earlier, later, split⟩ := List.append_of_mem (entry_of_part known)
  exact entry_emitted split (by simp [entryNodes])

theorem workflowNode_emitted (draft : Draft) (settings : Settings) :
    workflowNode settings draft (connectionIds settings.workflow 0 draft.workflow.connections) ∈
      draft.nodes settings :=
  frame_subset (by simp [frameNodes])

theorem offersAt_eq (made : draft.document settings = .ok document) (site : Site) (known : draft.Knows site) :
    document.offersAt settings.workflow site =
      (site.sources (draft.part site)).map fun port => localId settings.workflow port.name := by
  have collects := Document.ofNodes_collects made
  cases site with
  | orchestrator =>
    exact linksAt_of_ports collects (workflowNode_emitted draft settings) (workflowNode_ports _ _ _).1
  | step step => exact linksAt_of_ports collects (toolNode_emitted settings known) (toolNode_ports _ _ _).2

theorem takesAt_eq (made : draft.document settings = .ok document) (site : Site) (known : draft.Knows site) :
    document.takesAt settings.workflow site =
      (site.targets (draft.part site)).map fun port => localId settings.workflow port.name := by
  have collects := Document.ofNodes_collects made
  cases site with
  | orchestrator =>
    exact linksAt_of_ports collects (workflowNode_emitted draft settings) (workflowNode_ports _ _ _).2
  | step step => exact linksAt_of_ports collects (toolNode_emitted settings known) (toolNode_ports _ _ _).1

theorem mem_offersAt (made : draft.document settings = .ok document) (feeds : draft.Feeds site name) :
    localId settings.workflow name ∈ document.offersAt settings.workflow site := by
  rw [offersAt_eq made site feeds.knows]
  obtain ⟨port, member, rfl⟩ := List.mem_map.1 feeds
  exact List.mem_map_of_mem member

theorem mem_takesAt (made : draft.document settings = .ok document) (takes : draft.Takes site name) :
    localId settings.workflow name ∈ document.takesAt settings.workflow site := by
  rw [takesAt_eq made site takes.knows]
  obtain ⟨port, member, rfl⟩ := List.mem_map.1 takes
  exact List.mem_map_of_mem member

private theorem mem_connectionNodes {workflow : String} {taken : Nat} {connections : List Connection}
    (member : connection ∈ connections) :
    ∃ number, connectionNode workflow number connection ∈ connectionNodes workflow taken connections := by
  rw [← numbered_snd taken connections] at member
  obtain ⟨entry, listed, rfl⟩ := List.mem_map.1 member
  exact ⟨entry.1, List.mem_map_of_mem listed⟩

private theorem connection_emitted (made : draft.document settings = .ok document)
    (member : connection ∈ (draft.part site).connections) :
    ∃ number, connectionNode settings.workflow number connection ∈ draft.nodes settings := by
  have known : draft.Knows site := by
    by_contra unknown
    rw [part_unknown unknown] at member
    cases member
  obtain ⟨taken, _, emitted⟩ := connections_numbered made known
  obtain ⟨number, listed⟩ := mem_connectionNodes member
  exact ⟨number, emitted listed⟩

/-- A connection of a draft joins the ports it is named after. -/
private theorem joins_of_connection (made : draft.document settings = .ok document)
    (member : connection ∈ (draft.part destination).connections) (feeds : draft.Feeds source connection.source)
    (takes : draft.Takes destination connection.target) :
    document.Joins settings.workflow source destination (localId settings.workflow connection.source)
      (localId settings.workflow connection.target) := by
  refine ⟨mem_offersAt made feeds, mem_takesAt made takes, ?_⟩
  obtain ⟨number, emitted⟩ := connection_emitted made member
  obtain ⟨node, stored, _, same⟩ := (Document.ofNodes_collects made).stored emitted
  refine ⟨node, stored, ?_, ?_, ?_⟩
  · rw [Node.hasType, same.types]
    rfl
  · rw [same.property]
    rfl
  · rw [same.property]
    rfl

/-- What a transfer moves is joined from the site it starts at to the one it ends at. -/
theorem joins_of_hop (drafted : ofFlow settings steps = .ok draft) (made : draft.document settings = .ok document)
    (member : hop ∈ hops [] steps) (origin : hop.source? settings = some source)
    (target : hop.destination? settings = some destination) (moved : item ∈ hop.transfer.items) :
    document.Joins settings.workflow source destination
      (localId settings.workflow (source.portName item.sourcePath.text))
      (localId settings.workflow (destination.portName item.destinationPath.text)) := by
  have carried : Hop.connection source destination item ∈ (draft.part destination).connections := by
    rw [ofFlow_carries drafted destination]
    simp only [List.mem_eraseDups, arrivals, List.mem_flatMap]
    refine ⟨hop, List.mem_filter.2 ⟨member, decide_eq_true target⟩, ?_⟩
    rw [Hop.connections, origin, target]
    exact List.mem_map_of_mem moved
  rw [ofFlow_eq] at drafted
  exact joins_of_connection made carried (feeds_of_hop drafted member origin moved)
    ((ofFlow_wired drafted).target destination _ carried)

end Draft

end Provenance.Graph
