import Provenance.Proofs.DocumentPorts
import Provenance.Proofs.ToolConnections

/-! Where the connections of a document stand. They are numbered without gaps, each is
listed once by the node that it leads into, and both of its ends are ports of the
workflow or of a tool. -/

namespace Provenance.Graph

/-- The ids that a node links to under a key. -/
def Node.links (n : Node) (key : String) : List String := ((n.property? key).bind Property.targets?).getD []

namespace Document

/-- The targets of all links under a key. -/
def linked (d : Document) (key : String) : List String := d.nodes.flatMap fun node => node.links key

/-- Data enters a port: an output of the workflow when the workflow lists the connection,
and an input of the tool that a step works with when the step does. -/
inductive EntersAt (d : Document) (workflow : String) (owner : Node) (port : String) : Prop where
  | workflow (own : owner.id = workflow) (listed : port ∈ owner.links "output")
  | step (typed : owner.hasType "HowToStep" = true) {tool : Node} (known : tool ∈ d.nodes)
      (application : tool.hasType "SoftwareApplication" = true)
      (works : owner.property? "workExample" = some (.link tool.id)) (listed : port ∈ tool.links "input")

/-- Data leaves a port: an input of the workflow or an output of a tool. -/
inductive LeavesAt (d : Document) (workflow : String) (port : String) : Prop where
  | workflow {node : Node} (known : node ∈ d.nodes) (own : node.id = workflow) (listed : port ∈ node.links "input")
  | tool {node : Node} (known : node ∈ d.nodes) (application : node.hasType "SoftwareApplication" = true)
      (listed : port ∈ node.links "output")

/-- The connections of a document are numbered, listed once, and end in ports. -/
structure ConnectionsPlaced (d : Document) (workflow : String) : Prop where
  numbered : ∃ count, ((d.nodes.filter fun node => node.hasType "ParameterConnection").map Node.id).Perm
    ((List.range' 1 count).map (connectionId workflow))
  once : ∀ node ∈ d.nodes, node.hasType "ParameterConnection" = true → (d.linked "connection").count node.id = 1
  ends : ∀ owner ∈ d.nodes, ∀ node ∈ d.nodes, node.hasType "ParameterConnection" = true →
    node.id ∈ owner.links "connection" → ∃ source target,
      node.property? "sourceParameter" = some (.link source) ∧ node.property? "targetParameter" = some (.link target) ∧
      d.LeavesAt workflow source ∧ d.EntersAt workflow owner target

variable {d : Document} {node : Node} {key id : String}

/-- What is listed under an id is linked by the node of this id. -/
theorem mem_links (distinct : d.ids.Nodup) (member : node ∈ d.nodes) (listed : id ∈ d.linksAt node.id key) :
    id ∈ node.links key := by
  rw [linksAt, node?_of_mem distinct member] at listed
  unfold Node.links
  simp only [Option.bind_some] at listed
  split at listed
  next ids stored => simpa [stored, Property.targets?] using listed
  next => cases listed

end Document

/-- A number can be read back from its decimal digits. -/
theorem repr_injective : Function.Injective Nat.repr := by
  intro first second same
  have digits : Nat.toDigits 10 first = Nat.toDigits 10 second := by
    rw [← Nat.toList_repr, ← Nat.toList_repr, same]
  calc first
    _ = Nat.ofDigitChars 10 (Nat.toDigits 10 first) 0 := Nat.ofDigitChars_ten_toDigits.symm
    _ = Nat.ofDigitChars 10 (Nat.toDigits 10 second) 0 := by rw [digits]
    _ = second := Nat.ofDigitChars_ten_toDigits

theorem connectionId_injective (workflow : String) : Function.Injective (connectionId workflow) := by
  intro first second same
  unfold connectionId localId at same
  exact repr_injective ((String.append_right_inj _).1 ((String.append_right_inj _).1 same))

theorem connectionIds_nodup (workflow : String) (taken : Nat) (connections : List Connection) :
    (connectionIds workflow taken connections).Nodup := by
  rw [connectionIds_eq]
  exact (List.nodup_range' ..).map (connectionId_injective workflow)

namespace Draft

variable {draft : Draft} {settings : Settings} {d : Document} {node : Node} {site : Site} {id : String}

private theorem sites_known : site ∈ draft.sites ↔ draft.Knows site := by
  cases site with
  | orchestrator => simp [sites, Knows]
  | step name => simp [sites, Knows]

private theorem partIds_nodup (workflow : String) (draft : Draft) : (draft.sites.map (partId workflow)).Nodup := by
  rw [sites, List.map_cons, List.map_map, List.nodup_cons]
  refine ⟨?_, draft.steps.distinct.map fun first second => stepId_inj⟩
  intro member
  obtain ⟨step, _, same⟩ := List.mem_map.1 member
  exact stepId_ne _ _ same

theorem stepNode_emitted (settings : Settings) {step : String} (known : step ∈ draft.steps.keys) :
    ∃ position ids, stepNode settings.workflow step position ids ∈ draft.nodes settings := by
  obtain ⟨earlier, later, split⟩ := List.append_of_mem (entry_of_part known)
  exact ⟨_, _, entry_emitted split (List.mem_append_left _ (List.mem_append_right _ List.mem_cons_self))⟩

/-- The node of a site lists connections, if it has any. -/
private theorem part_emitted (settings : Settings) (known : draft.Knows site) :
    ∃ node ∈ draft.nodes settings, node.id = partId settings.workflow site ∧
      ∃ ids, node.property? "connection" = if ids.isEmpty then none else some (.links ids) := by
  cases site with
  | orchestrator =>
    refine ⟨_, workflowNode_emitted draft settings, rfl, connectionIds settings.workflow 0 draft.workflow.connections, ?_⟩
    cases connectionIds settings.workflow 0 draft.workflow.connections <;> rfl
  | step name =>
    obtain ⟨position, ids, emitted⟩ := stepNode_emitted settings known
    refine ⟨_, emitted, rfl, ids, ?_⟩
    cases ids <;> rfl

/-- What a node has under the key of connections is the list of its site. -/
private theorem attached_links (made : draft.document settings = .ok d) (member : node ∈ d.nodes) {property : Property}
    (attached : node.property? "connection" = some property) :
    ∃ site, draft.Knows site ∧ node.id = partId settings.workflow site ∧
      property = .links (d.linksAt node.id "connection") := by
  have collects := Document.ofNodes_collects made
  obtain ⟨site, known, own⟩ := attached_to_part (collects.only node member) attached
  obtain ⟨emitted, inside, same, ids, linked⟩ := part_emitted settings known
  have stored : ((d.node? emitted.id).bind fun known => known.property? "connection") = emitted.property? "connection" :=
    collects.property?_eq inside
  rw [same, ← own, Document.node?_of_mem collects.distinct member, Option.bind_some, attached, linked] at stored
  refine ⟨site, known, own, ?_⟩
  rw [Document.linksAt, Document.node?_of_mem collects.distinct member, Option.bind_some, attached]
  split at stored
  · cases stored
  · cases stored
    rfl

private theorem links_eq (made : draft.document settings = .ok d) (member : node ∈ d.nodes) :
    node.links "connection" = d.linksAt node.id "connection" := by
  have distinct := (Document.ofNodes_collects made).distinct
  cases attached : node.property? "connection" with
  | none => simp [Node.links, Document.linksAt, Document.node?_of_mem distinct member, attached]
  | some property =>
    obtain ⟨_, _, _, same⟩ := attached_links made member attached
    rw [Node.links, attached, same]
    rfl

/-- The links to connections are the numbered ids, in the order of the nodes. -/
private theorem linked_perm (made : draft.document settings = .ok d) : (d.linked "connection").Perm
    (connectionIds settings.workflow 0 (draft.sites.flatMap fun site => (draft.part site).connections)) := by
  have collects := Document.ofNodes_collects made
  have all : d.linked "connection" = d.ids.flatMap fun id => d.linksAt id "connection" := by
    rw [Document.ids, List.flatMap_map]
    exact List.flatMap_congr fun node member => links_eq made member
  have sites : (draft.sites.map (partId settings.workflow)).flatMap (fun id => d.linksAt id "connection") =
      connectionIds settings.workflow 0 (draft.sites.flatMap fun site => (draft.part site).connections) := by
    rw [List.flatMap_map, linksAt_sites made]
  rw [all, ← sites]
  refine flatMap_perm_of_count (partIds_nodup settings.workflow draft) ?_ ?_
  · intro id member
    obtain ⟨site, known, rfl⟩ := List.mem_map.1 member
    obtain ⟨node, emitted, same, _⟩ := part_emitted settings (sites_known.1 known)
    exact List.count_eq_one_of_mem collects.distinct (same ▸ collects.id_mem emitted)
  · intro id member absent
    obtain ⟨node, stored, rfl⟩ := List.mem_map.1 member
    rw [← links_eq made stored, Node.links]
    cases attached : node.property? "connection" with
    | none => rfl
    | some property =>
      obtain ⟨site, known, own, _⟩ := attached_links made stored attached
      exact absurd (List.mem_map.2 ⟨site, sites_known.2 known, own.symm⟩) absent

private theorem mem_connectionIds {workflow : String} {taken : Nat} {connections : List Connection}
    (listed : id ∈ connectionIds workflow taken connections) : ∃ number connection, connection ∈ connections ∧
      id = connectionId workflow number ∧
      connectionNode workflow number connection ∈ connectionNodes workflow taken connections := by
  obtain ⟨entry, inside, own⟩ := List.mem_map.1 listed
  have member : entry.2 ∈ (numbered taken connections).map Prod.snd := List.mem_map_of_mem inside
  rw [numbered_snd] at member
  exact ⟨entry.1, entry.2, member, own.symm, List.mem_map_of_mem inside⟩

/-- What a site lists is a connection of this site. -/
private theorem listed_emitted (made : draft.document settings = .ok d) (known : draft.Knows site)
    (listed : id ∈ d.linksAt (partId settings.workflow site) "connection") :
    ∃ number connection, connection ∈ (draft.part site).connections ∧ id = connectionId settings.workflow number ∧
      connectionNode settings.workflow number connection ∈ draft.nodes settings := by
  obtain ⟨taken, ids, emitted⟩ := connections_numbered made known
  rw [ids] at listed
  obtain ⟨number, connection, member, own, inside⟩ := mem_connectionIds listed
  exact ⟨number, connection, member, own, emitted inside⟩

/-- The nodes of connections have the numbered ids. -/
private theorem connection_ids_perm (made : draft.document settings = .ok d) :
    ((d.nodes.filter fun node => node.hasType "ParameterConnection").map Node.id).Perm
      (connectionIds settings.workflow 0 (draft.sites.flatMap fun site => (draft.part site).connections)) := by
  have collects := Document.ofNodes_collects made
  have sublist : ((d.nodes.filter fun node => node.hasType "ParameterConnection").map Node.id).Sublist d.ids :=
    List.filter_sublist.map _
  rw [List.perm_ext_iff_of_nodup (collects.distinct.sublist sublist) (connectionIds_nodup _ _ _)]
  intro id
  rw [← linksAt_sites made, List.mem_flatMap]
  constructor
  · intro member
    obtain ⟨node, inside, rfl⟩ := List.mem_map.1 member
    obtain ⟨stored, typed⟩ := List.mem_filter.1 inside
    exact connection_listed made stored typed
  · rintro ⟨site, known, listed⟩
    obtain ⟨number, connection, _, rfl, emitted⟩ := listed_emitted made (sites_known.1 known) listed
    obtain ⟨node, stored, own, same⟩ := collects.stored emitted
    refine List.mem_map.2 ⟨node, List.mem_filter.2 ⟨stored, ?_⟩, own⟩
    rw [Node.hasType, same.types]
    rfl

/-- A tool of the draft is a node of the document. -/
theorem tool_stored (made : draft.document settings = .ok d) {step : String} (known : step ∈ draft.steps.keys) :
    ∃ tool ∈ d.nodes, tool.id = localId settings.workflow step ∧ tool.hasType "SoftwareApplication" = true := by
  obtain ⟨tool, stored, own, same⟩ := (Document.ofNodes_collects made).stored (toolNode_emitted settings known)
  refine ⟨tool, stored, own, ?_⟩
  rw [Node.hasType, same.types]
  rfl

private theorem leaves_of_offered (made : draft.document settings = .ok d) {name : String}
    (offered : draft.Offers name) : d.LeavesAt settings.workflow (localId settings.workflow name) := by
  have collects := Document.ofNodes_collects made
  obtain ⟨site, feeds⟩ := offered
  have listed := mem_offersAt made feeds
  cases site with
  | orchestrator =>
    obtain ⟨node, stored, own, _⟩ := collects.stored (workflowNode_emitted draft settings)
    have own : node.id = settings.workflow := own
    exact .workflow stored own (Document.mem_links collects.distinct stored (own.symm ▸ listed))
  | step step =>
    obtain ⟨tool, stored, own, application⟩ := tool_stored made (Feeds.knows feeds)
    exact .tool stored application (Document.mem_links collects.distinct stored (own.symm ▸ listed))

private theorem enters_of_taken (made : draft.document settings = .ok d) {name : String} (taken : draft.Takes site name)
    (member : node ∈ d.nodes) (own : node.id = partId settings.workflow site) :
    d.EntersAt settings.workflow node (localId settings.workflow name) := by
  have collects := Document.ofNodes_collects made
  have listed := mem_takesAt made taken
  cases site with
  | orchestrator => exact .workflow own (Document.mem_links collects.distinct member (own.symm ▸ listed))
  | step step =>
    obtain ⟨position, ids, emitted⟩ := stepNode_emitted settings (Takes.knows taken)
    obtain ⟨known, found, same⟩ := collects.every _ emitted
    have own : node.id = (stepNode settings.workflow step position ids).id := own
    rw [← own, Document.node?_of_mem collects.distinct member] at found
    cases found
    obtain ⟨tool, stored, toolId, application⟩ := tool_stored made (Takes.knows taken)
    refine .step ?_ stored application ?_ (Document.mem_links collects.distinct stored (toolId.symm ▸ listed))
    · rw [Node.hasType, same.types]
      rfl
    · rw [same.property, toolId]
      cases ids <;> rfl

/-- The document of a wired draft has its connections in their places. -/
private theorem document_placed (wired : draft.Wired) (made : draft.document settings = .ok d) :
    d.ConnectionsPlaced settings.workflow := by
  have collects := Document.ofNodes_collects made
  refine ⟨?_, fun node member typed => ?_, fun owner member node stored typed linked => ?_⟩
  · refine ⟨(draft.sites.flatMap fun site => (draft.part site).connections).length, ?_⟩
    have ids := connection_ids_perm made
    rwa [connectionIds_eq] at ids
  · have listed := (connection_ids_perm made).subset (List.mem_map_of_mem (List.mem_filter.2 ⟨member, typed⟩))
    rw [(linked_perm made).count_eq]
    exact List.count_eq_one_of_mem (connectionIds_nodup _ _ _) listed
  · rw [links_eq made member] at linked
    cases attached : owner.property? "connection" with
    | none => simp [Document.linksAt, Document.node?_of_mem collects.distinct member, attached] at linked
    | some property =>
      obtain ⟨site, known, own, _⟩ := attached_links made member attached
      rw [own] at linked
      obtain ⟨number, connection, inside, same, emitted⟩ := listed_emitted made known linked
      obtain ⟨known, found, content⟩ := collects.every _ emitted
      have same : node.id = (connectionNode settings.workflow number connection).id := same
      rw [← same, Document.node?_of_mem collects.distinct stored] at found
      cases found
      refine ⟨_, _, content.property "sourceParameter", content.property "targetParameter", ?_, ?_⟩
      · exact leaves_of_offered made (wired.source site connection inside)
      · exact enters_of_taken made (wired.target site connection inside) member own

end Draft

/-- In every built document the connections stand in their places. -/
theorem built_documents_place_connections :
    (∀ plan input settings d, Document.ofPlan plan input settings = .ok d → d.ConnectionsPlaced settings.workflow) ∧
    (∀ registry settings d, Document.ofRegistry registry settings = .ok d →
      d.ConnectionsPlaced settings.workflow) := by
  constructor
  · intro plan input settings d made
    obtain ⟨draft, wired, emitted⟩ := Document.ofPlan_drafts made
    exact Draft.document_placed wired emitted
  · intro registry settings d made
    obtain ⟨draft, wired, emitted⟩ := Document.ofRegistry_drafts made
    exact Draft.document_placed wired emitted

theorem passing_and_sorting_place_connections :
    (∃ d, Document.ofPlan passPlan .null plainSettings = .ok d ∧ d.ConnectionsPlaced plainSettings.workflow ∧
      (d.linked "connection").length = 4) ∧
    (∃ d, Document.ofRegistry sortRegistry plainSettings = .ok d ∧ d.ConnectionsPlaced plainSettings.workflow ∧
      (d.linked "connection").length = 1) := by
  have planned : ((Document.ofPlan passPlan .null plainSettings).toOption.map fun d =>
      (d.linked "connection").length) = some 4 := by decide +kernel
  have declared : ((Document.ofRegistry sortRegistry plainSettings).toOption.map fun d =>
      (d.linked "connection").length) = some 1 := by decide
  obtain ⟨first, made, four⟩ := Option.map_eq_some_iff.1 planned
  obtain ⟨second, built, one⟩ := Option.map_eq_some_iff.1 declared
  have made := Outcome.toOption_eq_some.1 made
  have built := Outcome.toOption_eq_some.1 built
  exact ⟨⟨first, made, built_documents_place_connections.1 _ _ _ _ made, four⟩,
    ⟨second, built, built_documents_place_connections.2 _ _ _ built, one⟩⟩

end Provenance.Graph
