import Provenance.Proofs.DraftNodes
import Provenance.Proofs.DraftWiring

/-! The nodes of a whole draft. A wired draft refers only to what it emits itself,
so all of its nodes keep to the schema in any document that has their ids. -/

namespace Provenance.Graph

open Schema (Table)

variable {workflow : String} {position taken : Nat} {ids : List String}

def connectionIds (workflow : String) (taken : Nat) (connections : List Connection) : List String :=
  (numbered taken connections).map fun (number, _) => connectionId workflow number

def connectionNodes (workflow : String) (taken : Nat) (connections : List Connection) : List Node :=
  (numbered taken connections).map fun (number, connection) => connectionNode workflow number connection

def entryNodes (workflow : String) (position taken : Nat) (entry : String × Part) : List Node :=
  connectionNodes workflow taken entry.2.connections ++
    [stepNode workflow entry.1 position (connectionIds workflow taken entry.2.connections),
      toolNode workflow entry.1 entry.2] ++ (entry.2.inputs ++ entry.2.outputs).map (portNode workflow)

def entryConnections (entries : List (String × Part)) : List Connection :=
  entries.flatMap fun entry => entry.2.connections

private theorem stepNodes_cons (entry : String × Part) (rest : List (String × Part)) :
    stepNodes workflow position taken (entry :: rest) = entryNodes workflow position taken entry ++
      stepNodes workflow (position + 1) (taken + entry.2.connections.length) rest := by
  simp [stepNodes, entryNodes, connectionNodes, connectionIds]

/-- The nodes of the later steps count on from those of the earlier ones. -/
private theorem stepNodes_append (earlier later : List (String × Part)) :
    stepNodes workflow position taken (earlier ++ later) = stepNodes workflow position taken earlier ++
      stepNodes workflow (position + earlier.length) (taken + (entryConnections earlier).length) later := by
  induction earlier generalizing position taken with
  | nil => rfl
  | cons entry rest ih =>
    simp [stepNodes_cons, ih, entryConnections, Nat.add_assoc, Nat.add_comm, Nat.add_left_comm]

private theorem mem_stepNodes_iff {entries : List (String × Part)} {node : Node} :
    node ∈ stepNodes workflow position taken entries ↔ ∃ earlier entry later, entries = earlier ++ entry :: later ∧
      node ∈ entryNodes workflow (position + earlier.length) (taken + (entryConnections earlier).length) entry := by
  constructor
  · intro member
    induction entries generalizing position taken with
    | nil => simp [stepNodes] at member
    | cons entry rest ih =>
      rw [stepNodes_cons, List.mem_append] at member
      rcases member with own | behind
      · exact ⟨[], entry, rest, rfl, by simpa [entryConnections] using own⟩
      · obtain ⟨earlier, other, later, rfl, inside⟩ := ih behind
        refine ⟨entry :: earlier, other, later, rfl, ?_⟩
        simpa [entryConnections, Nat.add_assoc, Nat.add_comm, Nat.add_left_comm] using inside
  · rintro ⟨earlier, entry, later, rfl, inside⟩
    rw [stepNodes_append, stepNodes_cons]
    exact List.mem_append_right _ (List.mem_append_left _ inside)

namespace Draft

/-- The nodes around the steps: the workflow and what it refers to. -/
def frameNodes (d : Draft) (settings : Settings) : List Node :=
  descriptorNode :: rootNode settings :: connectionNodes settings.workflow 0 d.workflow.connections ++
    workflowNode settings d (connectionIds settings.workflow 0 d.workflow.connections) ::
    languageNode settings.language :: settings.profiles.map profileNode ++
    (d.workflow.inputs ++ d.workflow.outputs).map (portNode settings.workflow)

private theorem nodes_eq (d : Draft) (settings : Settings) :
    d.nodes settings = d.frameNodes settings ++
      stepNodes settings.workflow 0 d.workflow.connections.length d.steps.entries := rfl

theorem part_of_entry {d : Draft} {step : String} {part : Part} (member : (step, part) ∈ d.steps.entries) :
    d.part (.step step) = part := by
  simp [Draft.part, OrderedMap.get?_eq_some_iff.2 member]

theorem entry_of_part {d : Draft} {step : String} (known : step ∈ d.steps.keys) :
    (step, d.part (.step step)) ∈ d.steps.entries := by
  obtain ⟨⟨_, part⟩, member, rfl⟩ := List.mem_map.1 known
  rwa [part_of_entry member]

/-- A node of a draft, by what it is made from. -/
inductive Emitted (d : Draft) (settings : Settings) : Node → Prop where
  | descriptor : d.Emitted settings descriptorNode
  | root : d.Emitted settings (rootNode settings)
  | workflow : d.Emitted settings
    (workflowNode settings d (connectionIds settings.workflow 0 d.workflow.connections))
  | language : d.Emitted settings (languageNode settings.language)
  | profile {profile : Profile} (listed : profile ∈ settings.profiles) : d.Emitted settings (profileNode profile)
  | port (site : Site) {port : Port} (owned : port ∈ (d.part site).inputs ++ (d.part site).outputs) :
    d.Emitted settings (portNode settings.workflow port)
  | connection {node : Node} (listed : node ∈ connectionNodes settings.workflow 0 d.workflow.connections) :
    d.Emitted settings node
  | stepConnection {node : Node} {entry : String × Part} {earlier later : List (String × Part)}
    (split : d.steps.entries = earlier ++ entry :: later)
    (listed : node ∈ connectionNodes settings.workflow
      (d.workflow.connections.length + (entryConnections earlier).length) entry.2.connections) :
    d.Emitted settings node
  | step {entry : String × Part} {earlier later : List (String × Part)}
    (split : d.steps.entries = earlier ++ entry :: later) :
    d.Emitted settings (stepNode settings.workflow entry.1 earlier.length (connectionIds settings.workflow
      (d.workflow.connections.length + (entryConnections earlier).length) entry.2.connections))
  | tool {entry : String × Part} (stored : entry ∈ d.steps.entries) :
    d.Emitted settings (toolNode settings.workflow entry.1 entry.2)

theorem emitted_of_mem {d : Draft} {settings : Settings} {node : Node} (member : node ∈ d.nodes settings) :
    d.Emitted settings node := by
  rw [nodes_eq] at member
  rcases List.mem_append.1 member with around | inside
  · simp only [frameNodes, List.mem_append, List.mem_cons, List.mem_map] at around
    rcases around with (((rfl | rfl | own) | rfl | rfl | ⟨_, listed, rfl⟩) | ⟨_, owned, rfl⟩)
    · exact .descriptor
    · exact .root
    · exact .connection own
    · exact .workflow
    · exact .language
    · exact .profile listed
    · exact .port .orchestrator (List.mem_append.2 owned)
  · obtain ⟨earlier, ⟨step, part⟩, later, split, own⟩ := mem_stepNodes_iff.1 inside
    have stored : (step, part) ∈ d.steps.entries := by simp [split]
    rw [Nat.zero_add] at own
    simp only [entryNodes, List.mem_append, List.mem_cons, List.mem_map, List.not_mem_nil, or_false] at own
    rcases own with ((own | rfl | rfl) | ⟨_, owned, rfl⟩)
    · exact .stepConnection split own
    · exact .step split
    · exact .tool stored
    · rw [← part_of_entry stored] at owned
      exact .port (.step step) (List.mem_append.2 owned)

end Draft

private theorem connectionNodes_conform {connections : List Connection}
    (ends : ∀ connection ∈ connections,
      localId workflow connection.source ∈ ids ∧ localId workflow connection.target ∈ ids) :
    ∀ node ∈ connectionNodes workflow taken connections, node.Conforms Table.draft ids := by
  intro node listed
  obtain ⟨⟨number, connection⟩, member, rfl⟩ := List.mem_map.1 listed
  obtain ⟨⟨_, _⟩, indexed, same⟩ := List.mem_map.1 member
  cases same
  obtain ⟨source, target⟩ := ends connection (List.fst_mem_of_mem_zipIdx indexed)
  exact connectionNode_conforms source target

private theorem connectionIds_known {connections : List Connection}
    (emitted : ∀ node ∈ connectionNodes workflow taken connections, node.id ∈ ids) :
    ∀ id ∈ connectionIds workflow taken connections, id ∈ ids := by
  intro id listed
  obtain ⟨⟨number, connection⟩, member, rfl⟩ := List.mem_map.1 listed
  exact emitted _ (List.mem_map_of_mem member)

private theorem entryNodes_conform {entry : String × Part}
    (emitted : ∀ node ∈ entryNodes workflow position taken entry, node.id ∈ ids)
    (ends : ∀ connection ∈ entry.2.connections,
      localId workflow connection.source ∈ ids ∧ localId workflow connection.target ∈ ids) :
    ∀ node ∈ entryNodes workflow position taken entry, node.Conforms Table.draft ids := by
  simp only [entryNodes, List.forall_mem_append, List.forall_mem_cons, List.forall_mem_map] at emitted ⊢
  obtain ⟨⟨connections, _, tool, _⟩, inputs, outputs⟩ := emitted
  refine ⟨⟨connectionNodes_conform ends, ?_, ?_, by simp⟩, ?_⟩
  · exact stepNode_conforms tool (connectionIds_known connections)
  · exact toolNode_conforms (List.forall_mem_append.2 ⟨inputs, outputs⟩)
  · exact ⟨fun port _ => portNode_conforms workflow port, fun port _ => portNode_conforms workflow port⟩

namespace Draft

variable {d : Draft} {settings : Settings}

theorem frame_subset : d.frameNodes settings ⊆ d.nodes settings := by
  rw [nodes_eq]
  exact List.subset_append_left _ _

/-- A step has a node with its connections, a tool, and the ports of the tool. -/
theorem entry_emitted {earlier later : List (String × Part)} {entry : String × Part}
    (split : d.steps.entries = earlier ++ entry :: later) :
    entryNodes settings.workflow earlier.length
      (d.workflow.connections.length + (entryConnections earlier).length) entry ⊆ d.nodes settings := by
  intro node inside
  rw [nodes_eq]
  refine List.mem_append_right _ (mem_stepNodes_iff.2 ⟨earlier, entry, later, split, ?_⟩)
  rwa [Nat.zero_add]

theorem port_emitted (site : Site) {port : Port} (owned : port ∈ (d.part site).inputs ++ (d.part site).outputs) :
    portNode settings.workflow port ∈ d.nodes settings := by
  cases site with
  | orchestrator => exact frame_subset (List.mem_append_right _ (List.mem_map_of_mem owned))
  | step name =>
    cases found : d.steps.get? name with
    | none => simp [part, found] at owned
    | some part =>
      have member := OrderedMap.get?_eq_some_iff.1 found
      obtain ⟨earlier, later, split⟩ := List.append_of_mem member
      rw [part_of_entry member] at owned
      exact entry_emitted split (List.mem_append_right _ (List.mem_map_of_mem owned))

private theorem offered_emitted (settings : Settings) {name : String} (offered : d.Offers name) :
    ∃ node ∈ d.nodes settings, node.id = localId settings.workflow name := by
  obtain ⟨site, member⟩ := offered
  obtain ⟨port, owned, rfl⟩ := List.mem_map.1 member
  refine ⟨portNode settings.workflow port, port_emitted site (List.mem_append.2 ?_), rfl⟩
  cases site with
  | orchestrator => exact Or.inl owned
  | step _ => exact Or.inr owned

private theorem taken_emitted (settings : Settings) {site : Site} {name : String} (taken : d.Takes site name) :
    ∃ node ∈ d.nodes settings, node.id = localId settings.workflow name := by
  obtain ⟨port, owned, rfl⟩ := List.mem_map.1 taken
  refine ⟨portNode settings.workflow port, port_emitted site (List.mem_append.2 ?_), rfl⟩
  cases site with
  | orchestrator => exact Or.inr owned
  | step _ => exact Or.inl owned

/-- Every link of a wired draft leads to a node of the draft, except for profiles
and web addresses, which the schema does not follow. -/
theorem nodes_conform (wired : d.Wired) (emitted : ∀ node ∈ d.nodes settings, node.id ∈ ids) :
    ∀ node ∈ d.nodes settings, node.Conforms Table.draft ids := by
  have ends : ∀ site, ∀ connection ∈ (d.part site).connections,
      localId settings.workflow connection.source ∈ ids ∧ localId settings.workflow connection.target ∈ ids := by
    intro site connection member
    obtain ⟨source, first, sourceId⟩ := offered_emitted settings (wired.source site connection member)
    obtain ⟨target, second, targetId⟩ := taken_emitted settings (wired.target site connection member)
    exact ⟨sourceId ▸ emitted source first, targetId ▸ emitted target second⟩
  have steps : ∀ step ∈ d.steps.keys,
      stepId settings.workflow step ∈ ids ∧ localId settings.workflow step ∈ ids := by
    intro step known
    obtain ⟨earlier, later, split⟩ := List.append_of_mem (entry_of_part known)
    have own := fun node member => emitted node (entry_emitted split member)
    simp only [entryNodes, List.forall_mem_append, List.forall_mem_cons] at own
    exact ⟨own.1.2.1, own.1.2.2.1⟩
  have frame : ∀ node ∈ d.frameNodes settings, node.Conforms Table.draft ids := by
    have known := fun node member => emitted node (frame_subset member)
    simp only [frameNodes, List.forall_mem_append, List.forall_mem_cons, List.forall_mem_map] at known ⊢
    obtain ⟨⟨⟨_, root, connections⟩, workflow, language, _⟩, inputs, outputs⟩ := known
    refine ⟨⟨⟨descriptorNode_conforms root, rootNode_conforms workflow, connectionNodes_conform (ends .orchestrator)⟩,
      workflowNode_conforms language (List.forall_mem_append.2 ⟨inputs, outputs⟩)
        (fun step member => (steps step member).1) (fun step member => (steps step member).2)
        (connectionIds_known connections),
      languageNode_conforms _, fun profile _ => profileNode_conforms profile⟩,
      fun port _ => portNode_conforms _ port, fun port _ => portNode_conforms _ port⟩
  intro node member
  rw [nodes_eq] at member
  rcases List.mem_append.1 member with around | inside
  · exact frame node around
  · obtain ⟨earlier, ⟨step, part⟩, later, split, inside⟩ := mem_stepNodes_iff.1 inside
    have stored : (step, part) ∈ d.steps.entries := by simp [split]
    refine entryNodes_conform (fun other own => emitted other ?_) (part_of_entry stored ▸ ends (.step step)) node inside
    rw [nodes_eq]
    exact List.mem_append_right _ (mem_stepNodes_iff.2 ⟨earlier, _, later, split, own⟩)

end Draft

end Provenance.Graph
