import Provenance.Proofs.DocumentValidity
import Provenance.Proofs.PlanSteps
import Provenance.Proofs.TransferHops

/-! The data flow of a flow plan can be read back from its document. The connections
attached to the workflow and to each step are those that the transfers make, and they
are numbered across the document. -/

namespace Provenance.Graph

open Provenance.Flow (ComputeStep Step computes)

namespace Document

/-- The ids that a node lists under a key. -/
def linksAt (d : Document) (id key : String) : List String :=
  match (d.node? id).bind fun node => node.property? key with
  | some (.links ids) => ids
  | _ => []

def linkAt (d : Document) (id key : String) : Option String :=
  match (d.node? id).bind fun node => node.property? key with
  | some (.link other) => some other
  | _ => none

def endsOf (d : Document) (connection : String) : Option String × Option String :=
  (d.linkAt connection "sourceParameter", d.linkAt connection "targetParameter")

def connectionsAt (d : Document) (id : String) : List (Option String × Option String) :=
  (d.linksAt id "connection").map d.endsOf

variable {d : Document} {nodes : List Node} {node : Node} {key : String}

theorem Collects.property?_eq (collects : d.Collects nodes) (member : node ∈ nodes) :
    ((d.node? node.id).bind fun known => known.property? key) = node.property? key := by
  obtain ⟨known, found, same⟩ := collects.every node member
  rw [found]
  exact same.property key

theorem ofNodes_error {context : String} {fault : Failure} (failed : ofNodes context nodes = .error fault) :
    ∃ id, fault = .graphIdCollision id := by
  obtain ⟨a, _, _, _, _, _, collision⟩ := ofNodes_collision failed
  exact ⟨a.id, collision⟩

end Document

/-- The node that the connections of a site are attached to. -/
def partId (workflow : String) : Site → String
  | .orchestrator => workflow
  | .step name => stepId workflow name

def Connection.ends (workflow : String) (connection : Connection) : Option String × Option String :=
  (some (localId workflow connection.source), some (localId workflow connection.target))

variable {workflow : String} {taken : Nat} {connections : List Connection} {ids : List String} {nodes : List Node}

theorem numbered_snd (taken : Nat) (connections : List Connection) :
    (numbered taken connections).map Prod.snd = connections := by
  simp [numbered, Function.comp_def, List.zipIdx_map_fst]

theorem numbered_fst (taken : Nat) (connections : List Connection) :
    (numbered taken connections).map Prod.fst = List.range' (taken + 1) connections.length := by
  simp [numbered, Function.comp_def, List.zipIdx_map_snd]

theorem connectionIds_eq (workflow : String) (taken : Nat) (connections : List Connection) :
    connectionIds workflow taken connections =
      (List.range' (taken + 1) connections.length).map (connectionId workflow) := by
  rw [← numbered_fst taken connections, List.map_map]
  rfl

private theorem connectionIds_append (workflow : String) (taken : Nat) (earlier later : List Connection) :
    connectionIds workflow taken (earlier ++ later) =
      connectionIds workflow taken earlier ++ connectionIds workflow (taken + earlier.length) later := by
  rw [connectionIds_eq, connectionIds_eq, connectionIds_eq, ← List.map_append, List.length_append, ← List.range'_append_1]
  congr 3
  omega

private theorem linksAt_of_connectionLinks {d : Document} {node : Node} (collects : d.Collects nodes)
    (member : node ∈ nodes) (linked : node.property? "connection" = if ids.isEmpty then none else some (.links ids)) :
    d.linksAt node.id "connection" = ids := by
  rw [Document.linksAt, collects.property?_eq member, linked]
  cases ids <;> rfl

private theorem ends_of_connectionNode {d : Document} {number : Nat} {connection : Connection}
    (collects : d.Collects nodes) (member : connectionNode workflow number connection ∈ nodes) :
    d.endsOf (connectionId workflow number) = connection.ends workflow := by
  have source : (connectionNode workflow number connection).property? "sourceParameter" =
      some (.link (localId workflow connection.source)) := rfl
  have target : (connectionNode workflow number connection).property? "targetParameter" =
      some (.link (localId workflow connection.target)) := rfl
  have first := (collects.property?_eq member).trans source
  have second := (collects.property?_eq member).trans target
  simp only [connectionNode] at first second
  simp only [Document.endsOf, Document.linkAt, first, second, Connection.ends]

private theorem map_ends_connectionIds {d : Document} (collects : d.Collects nodes)
    (emitted : connectionNodes workflow taken connections ⊆ nodes) :
    (connectionIds workflow taken connections).map d.endsOf = connections.map (Connection.ends workflow) := by
  have each : ∀ entry ∈ numbered taken connections, d.endsOf (connectionId workflow entry.1) = entry.2.ends workflow := by
    intro entry member
    exact ends_of_connectionNode collects (emitted (List.mem_map_of_mem member))
  calc (connectionIds workflow taken connections).map d.endsOf
    _ = (numbered taken connections).map fun entry => d.endsOf (connectionId workflow entry.1) := List.map_map
    _ = (numbered taken connections).map fun entry => entry.2.ends workflow := List.map_congr_left each
    _ = ((numbered taken connections).map Prod.snd).map (Connection.ends workflow) := by rw [List.map_map]; rfl
    _ = connections.map (Connection.ends workflow) := by rw [numbered_snd]

namespace Draft

variable {draft : Draft} {settings : Settings} {d : Document}

def sites (draft : Draft) : List Site := .orchestrator :: draft.steps.keys.map .step

private theorem linksAt_workflow (made : draft.document settings = .ok d) : d.linksAt settings.workflow "connection" =
    connectionIds settings.workflow 0 draft.workflow.connections := by
  have member : workflowNode settings draft (connectionIds settings.workflow 0 draft.workflow.connections) ∈
      draft.nodes settings := frame_subset (by simp [frameNodes])
  refine linksAt_of_connectionLinks (Document.ofNodes_collects made) member ?_
  cases connectionIds settings.workflow 0 draft.workflow.connections <;> rfl

private theorem linksAt_step (made : draft.document settings = .ok d) {earlier later : List (String × Part)}
    {entry : String × Part} (split : draft.steps.entries = earlier ++ entry :: later) :
    d.linksAt (stepId settings.workflow entry.1) "connection" = connectionIds settings.workflow
      (draft.workflow.connections.length + (entryConnections earlier).length) entry.2.connections := by
  have member : stepNode settings.workflow entry.1 earlier.length (connectionIds settings.workflow
      (draft.workflow.connections.length + (entryConnections earlier).length) entry.2.connections) ∈
      draft.nodes settings := entry_emitted split (by simp [entryNodes])
  refine linksAt_of_connectionLinks (Document.ofNodes_collects made) member ?_
  cases connectionIds settings.workflow _ entry.2.connections <;> rfl

/-- The connections of a site are numbered from some number on, listed by the site and
emitted with it. -/
theorem connections_numbered (made : draft.document settings = .ok d) {site : Site} (known : draft.Knows site) :
    ∃ taken, d.linksAt (partId settings.workflow site) "connection" =
        connectionIds settings.workflow taken (draft.part site).connections ∧
      connectionNodes settings.workflow taken (draft.part site).connections ⊆ draft.nodes settings := by
  cases site with
  | orchestrator =>
    refine ⟨0, linksAt_workflow made, fun node member => frame_subset ?_⟩
    simp only [frameNodes, List.mem_append, List.mem_cons]
    exact Or.inl (Or.inl (Or.inr (Or.inr member)))
  | step name =>
    obtain ⟨earlier, later, split⟩ := List.append_of_mem (entry_of_part known)
    have listed := linksAt_step made split
    refine ⟨_, listed, fun node member => entry_emitted split ?_⟩
    exact List.mem_append_left _ (List.mem_append_left _ member)

theorem connectionsAt_part (made : draft.document settings = .ok d) {site : Site} (known : draft.Knows site) :
    d.connectionsAt (partId settings.workflow site) =
      (draft.part site).connections.map (Connection.ends settings.workflow) := by
  obtain ⟨taken, listed, emitted⟩ := connections_numbered made known
  rw [Document.connectionsAt, listed]
  exact map_ends_connectionIds (Document.ofNodes_collects made) emitted

private theorem linksAt_steps (made : draft.document settings = .ok d) {earlier later : List (String × Part)}
    (split : draft.steps.entries = earlier ++ later) :
    (later.flatMap fun entry => d.linksAt (stepId settings.workflow entry.1) "connection") =
      connectionIds settings.workflow (draft.workflow.connections.length + (entryConnections earlier).length)
        (entryConnections later) := by
  induction later generalizing earlier with
  | nil => rfl
  | cons entry rest ih =>
    have behind : draft.steps.entries = (earlier ++ [entry]) ++ rest := by rw [split, List.append_cons]
    have counted : (entryConnections (earlier ++ [entry])).length =
        (entryConnections earlier).length + entry.2.connections.length := by simp [entryConnections]
    rw [List.flatMap_cons, linksAt_step made split, ih behind, counted, ← Nat.add_assoc, ← connectionIds_append]
    rfl

/-- The numbers of the connections run through the whole document. -/
theorem linksAt_sites (made : draft.document settings = .ok d) :
    (draft.sites.flatMap fun site => d.linksAt (partId settings.workflow site) "connection") =
      connectionIds settings.workflow 0 (draft.sites.flatMap fun site => (draft.part site).connections) := by
  have parts : (draft.steps.keys.flatMap fun step => (draft.part (.step step)).connections) =
      entryConnections draft.steps.entries := by
    rw [OrderedMap.keys, List.flatMap_map, entryConnections]
    exact List.flatMap_congr fun entry member => by rw [part_of_entry member]
  have steps : (draft.steps.keys.flatMap fun step => d.linksAt (stepId settings.workflow step) "connection") =
      connectionIds settings.workflow draft.workflow.connections.length (entryConnections draft.steps.entries) := by
    rw [OrderedMap.keys, List.flatMap_map]
    exact linksAt_steps made (List.nil_append _).symm
  simp only [sites, List.flatMap_cons, List.flatMap_map, partId, linksAt_workflow made, steps, parts,
    connectionIds_append, Nat.zero_add]
  rfl

private theorem id_of_connectionNodes {node : Node} (member : node ∈ connectionNodes workflow taken connections) :
    node.id ∈ connectionIds workflow taken connections := by
  obtain ⟨entry, inside, rfl⟩ := List.mem_map.1 member
  exact List.mem_map_of_mem inside

theorem connection_listed (made : draft.document settings = .ok d) {node : Node} (member : node ∈ d.nodes)
    (typed : node.hasType "ParameterConnection" = true) :
    ∃ site ∈ draft.sites, node.id ∈ d.linksAt (partId settings.workflow site) "connection" := by
  cases emitted_of_mem ((Document.ofNodes_collects made).only node member) with
  | connection listed =>
    refine ⟨.orchestrator, List.mem_cons_self, ?_⟩
    rw [partId, linksAt_workflow made]
    exact id_of_connectionNodes listed
  | @stepConnection _ entry _ _ split listed =>
    have known : entry.1 ∈ draft.steps.keys := List.mem_map_of_mem (by simp [split])
    refine ⟨.step entry.1, List.mem_cons_of_mem _ (List.mem_map_of_mem known), ?_⟩
    rw [partId, linksAt_step made split]
    exact id_of_connectionNodes listed
  | descriptor | root | workflow | language | profile _ | port _ _ | step _ | tool _ => cases typed

end Draft

variable {settings : Settings} {steps : List Step}

def flowSites (steps : List Step) : List Site :=
  .orchestrator :: (computes steps).map fun step => .step step.name

/-- The connections into a site, each at the first transfer that makes it. -/
def flowInto (settings : Settings) (steps : List Step) (site : Site) : List Connection :=
  (arrivals settings site (hops [] steps)).eraseDups

/-- The connections in a document are the data flow of the steps. -/
structure Document.Shows (d : Document) (settings : Settings) (steps : List Step) : Prop where
  attached : ∀ site ∈ flowSites steps, d.connectionsAt (partId settings.workflow site) =
    (flowInto settings steps site).map (Connection.ends settings.workflow)
  numbered : ((flowSites steps).flatMap fun site => d.linksAt (partId settings.workflow site) "connection") =
    (List.range' 1 ((flowSites steps).flatMap (flowInto settings steps)).length).map (connectionId settings.workflow)
  only : ∀ node ∈ d.nodes, node.hasType "ParameterConnection" = true →
    ∃ site ∈ flowSites steps, node.id ∈ d.linksAt (partId settings.workflow site) "connection"

private theorem Draft.document_shows {draft : Draft} {d : Document} (distinct : (steps.map Step.name).Nodup)
    (drafted : Draft.ofFlow settings steps = .ok draft) (made : draft.document settings = .ok d) :
    d.Shows settings steps := by
  have carries := Draft.ofFlow_carries drafted
  have names : ((computes steps).map ComputeStep.name).Nodup := distinct.sublist (Flow.computes_names_sublist steps)
  have sites : draft.sites = flowSites steps := by
    rw [Draft.sites, Draft.keys_ofFlow names drafted, List.map_map]
    rfl
  have known : ∀ site ∈ flowSites steps, draft.Knows site := by
    rw [← sites]
    intro site member
    rcases List.mem_cons.1 member with rfl | step
    · trivial
    · obtain ⟨name, listed, rfl⟩ := List.mem_map.1 step
      exact listed
  refine ⟨fun site member => ?_, ?_, ?_⟩
  · rw [Draft.connectionsAt_part made (known site member), carries site]
    rfl
  · have flow : (draft.sites.flatMap fun site => (draft.part site).connections) =
        draft.sites.flatMap (flowInto settings steps) := List.flatMap_congr fun site _ => carries site
    rw [← sites, Draft.linksAt_sites made, flow, connectionIds_eq]
  · rw [← sites]
    exact fun node member typed => Draft.connection_listed made member typed

theorem Document.ofPlan_eq {plan : Flow.Plan} {input : Json} (read : plan.steps input settings.marker = .ok steps) :
    Document.ofPlan plan input settings =
      (Draft.ofFlow settings steps >>= fun draft => draft.document settings) := by
  rw [ofPlan, read]
  rfl

/-- Once a plan has steps, only a transfer or two nodes of one id can be at fault. -/
theorem Document.ofPlan_error {plan : Flow.Plan} {input : Json} {fault : Failure}
    (read : plan.steps input settings.marker = .ok steps) (failed : Document.ofPlan plan input settings = .error fault) :
    (∃ state side, fault = .unattributedTransfer state side) ∨ ∃ id, fault = .graphIdCollision id := by
  rw [ofPlan_eq read] at failed
  obtain refused | ⟨draft, _, failed⟩ := Outcome.bind_eq_error.1 failed
  · obtain ⟨hop, _, blamed⟩ := List.exists_of_findSome?_eq_some (Draft.ofFlow_error_iff.1 refused)
    obtain ⟨side, _, _, same⟩ := Hop.refusal?_eq_some_iff.1 blamed
    exact Or.inl ⟨_, side, same⟩
  · exact Or.inr (ofNodes_error failed)

theorem Document.ofPlan_unattributed_iff {plan : Flow.Plan} {input : Json} {state : String} {side : TransferEnd}
    (read : plan.steps input settings.marker = .ok steps) :
    Document.ofPlan plan input settings = .error (.unattributedTransfer state side) ↔
      (hops [] steps).findSome? (Hop.refusal? settings) = some (.unattributedTransfer state side) := by
  rw [ofPlan_eq read, ← Draft.ofFlow_error_iff, Outcome.bind_eq_error]
  refine ⟨fun failed => failed.resolve_right ?_, Or.inl⟩
  rintro ⟨draft, _, failed⟩
  obtain ⟨id, impossible⟩ := ofNodes_error failed
  cases impossible

/-- A document of a plan shows exactly what the transfers of the plan move. It is
refused for the first transfer that has an end at no compute step. -/
theorem documents_show_the_flow (plan : Flow.Plan) (input : Json) (settings : Settings) (steps : List Step)
    (read : plan.steps input settings.marker = .ok steps) :
    ((∃ state side, Document.ofPlan plan input settings = .error (.unattributedTransfer state side)) ↔
      ∃ hop ∈ hops [] steps, ∃ side, hop.Unattributed settings side) ∧
    (∀ state side, Document.ofPlan plan input settings = .error (.unattributedTransfer state side) ↔
      ∃ earlier hop later, hops [] steps = earlier ++ hop :: later ∧
        (∀ other ∈ earlier, ∀ side, ¬ other.Unattributed settings side) ∧ state = hop.transfer.name ∧
        hop.Unattributed settings side ∧ (side = .destination → ¬ hop.Unattributed settings .source)) ∧
    (∀ fault, Document.ofPlan plan input settings = .error fault →
      (∃ state side, fault = .unattributedTransfer state side) ∨ ∃ id, fault = .graphIdCollision id) ∧
    ∀ d, Document.ofPlan plan input settings = .ok d → d.Shows settings steps := by
  refine ⟨?_, fun state side => ?_, fun fault failed => Document.ofPlan_error read failed, fun d made => ?_⟩
  · simp only [Document.ofPlan_unattributed_iff read]
    exact Hop.refused_iff
  · rw [Document.ofPlan_unattributed_iff read]
    exact Hop.first_refused_iff
  · rw [Document.ofPlan_eq read] at made
    obtain ⟨draft, drafted, made⟩ := Outcome.bind_eq_ok.1 made
    obtain ⟨names, completes, represents⟩ := Flow.Plan.steps_ok_iff.1 read
    exact Draft.document_shows (represents.names_nodup completes.distinct) drafted made

/-- A flow that fetches two files, passes one on twice and returns it. -/
def passPlan : Flow.Plan :=
  { start := "A"
    states := OrderedMap.ofList
      [("A", movingState "hub" "lab" [("/a", "/b"), ("c", "d")] (some "S")), ("S", idleState (some "B")),
        ("B", movingState "lab" "lab" [("e", "f"), ("/e", "f")] (some "T")), ("T", idleState (some "C")),
        ("C", movingState "lab" "hub" [("g", "h")] none)] }

theorem passing_documents_show_the_flow :
    ∃ steps d, passPlan.steps .null plainSettings.marker = .ok steps ∧
      Document.ofPlan passPlan .null plainSettings = .ok d ∧ d.Shows plainSettings steps ∧
      d.connectionsAt "wf#main/T" = [(some "wf#S/e", some "wf#T/f")] := by
  have walked : (passPlan.steps .null plainSettings.marker).toOption.isSome = true := by cbv
  have built : (Document.ofPlan passPlan .null plainSettings).toOption.isSome = true := by decide +kernel
  obtain ⟨steps, read⟩ := Outcome.ok_of_isSome walked
  obtain ⟨d, made⟩ := Outcome.ok_of_isSome built
  have passed : ((Document.ofPlan passPlan .null plainSettings).toOption.map fun d => d.connectionsAt "wf#main/T") =
      some [(some "wf#S/e", some "wf#T/f")] := by decide +kernel
  rw [made] at passed
  exact ⟨steps, d, read, made, (documents_show_the_flow _ _ _ _ read).2.2.2 d made, Option.some.inj passed⟩

end Provenance.Graph
