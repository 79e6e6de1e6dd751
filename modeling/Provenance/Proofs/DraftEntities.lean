import Provenance.Proofs.ConnectionPlaces
import Provenance.Proofs.FlowPorts

/-! What the nodes inside a workflow stand for: the steps, tools, connections and
parameters of a flow. The draft of a flow has one node for each of them, and besides
these only the nodes around the workflow. -/

namespace Provenance

/-- The ids that settings give. -/
def Settings.ids (settings : Settings) : List String :=
  settings.workflow :: settings.language.id :: settings.profiles.map Profile.id

/-- The ids of settings belong to different things, none of them inside the workflow. -/
structure Settings.Apart (settings : Settings) : Prop where
  distinct : settings.ids.Nodup
  metadata : Graph.metadataId ∉ settings.ids
  root : Graph.rootId ∉ settings.ids
  outside : ∀ id ∈ settings.ids, ¬ (settings.workflow ++ "#").toList <+: id.toList

namespace Graph

open Provenance.Flow (ComputeStep Step computes)

/-- What the nodes inside a workflow stand for. A parameter is a path that a site owns. -/
inductive Entity where
  | step (name : String)
  | tool (name : String)
  | connection (number : Nat)
  | parameter (owner : Site) (path : String)
  deriving DecidableEq

namespace Entity

def type : Entity → String
  | .step _ => "HowToStep"
  | .tool _ => "SoftwareApplication"
  | .connection _ => "ParameterConnection"
  | .parameter _ _ => "FormalParameter"

def allTypes : List String := ["HowToStep", "SoftwareApplication", "ParameterConnection", "FormalParameter"]

def localName : Entity → String
  | .step name => "main/" ++ name
  | .tool name => name
  | .connection number => "connection/" ++ toString number
  | .parameter owner path => owner.name ++ "/" ++ path

def id (workflow : String) (entity : Entity) : String := localId workflow entity.localName

def isParameter : Entity → Bool
  | .parameter _ _ => true
  | _ => false

/-- Two entities need one id, but cannot share a node. -/
structure Clash (a b : Entity) : Prop where
  different : a ≠ b
  name : a.localName = b.localName
  unshared : ¬ (a.isParameter = true ∧ b.isParameter = true)

/-- Entities of one kind are named apart, except for parameters. -/
theorem Clash.types {a b : Entity} (clash : a.Clash b) : a.type ≠ b.type := by
  intro same
  obtain ⟨different, name, unshared⟩ := clash
  cases a with
  | step first =>
    cases b with
    | step second => exact different (congrArg Entity.step ((String.append_right_inj _).1 name))
    | tool _ | connection _ | parameter _ _ => simp [type] at same
  | tool first =>
    cases b with
    | tool second => exact different (congrArg Entity.tool name)
    | step _ | connection _ | parameter _ _ => simp [type] at same
  | connection first =>
    cases b with
    | connection second =>
      have ids : connectionId "" first = connectionId "" second := congrArg (localId "") name
      exact different (congrArg Entity.connection (connectionId_injective "" ids))
    | step _ | tool _ | parameter _ _ => simp [type] at same
  | parameter _ _ =>
    cases b with
    | parameter _ _ => exact unshared ⟨rfl, rfl⟩
    | step _ | tool _ | connection _ => simp [type] at same

end Entity

/-- The entities of a flow, as its steps tell them. -/
def entities (settings : Settings) (steps : List Step) : List Entity :=
  (computes steps).map (fun step => .step step.name) ++ (computes steps).map (fun step => .tool step.name) ++
    (List.range' 1 ((flowSites steps).flatMap (flowInto settings steps)).length).map .connection ++
    (usedPaths settings [] steps).map fun (site, path) => .parameter site (trimmed path)

private theorem numbered_append (taken : Nat) (earlier later : List Connection) :
    numbered taken (earlier ++ later) = numbered taken earlier ++ numbered (taken + earlier.length) later := by
  have count : taken + 1 + earlier.length = taken + earlier.length + 1 := by omega
  rw [numbered, List.zipIdx_append, List.map_append, count]
  rfl

private theorem mem_numbered_entries {taken : Nat} {entries : List (String × Part)} {item : Nat × Connection} :
    item ∈ numbered taken (entryConnections entries) ↔ ∃ earlier entry later, entries = earlier ++ entry :: later ∧
      item ∈ numbered (taken + (entryConnections earlier).length) entry.2.connections := by
  have cons : ∀ (entry : String × Part) rest,
      entryConnections (entry :: rest) = entry.2.connections ++ entryConnections rest := fun _ _ => rfl
  constructor
  · intro member
    induction entries generalizing taken with
    | nil => cases member
    | cons entry rest ih =>
      rw [cons, numbered_append] at member
      rcases List.mem_append.1 member with own | behind
      · exact ⟨[], entry, rest, rfl, own⟩
      · obtain ⟨earlier, other, later, rfl, inside⟩ := ih behind
        refine ⟨entry :: earlier, other, later, rfl, ?_⟩
        rwa [cons, List.length_append, ← Nat.add_assoc]
  · intro ⟨earlier, entry, later, split, inside⟩
    have parts : entryConnections entries =
        entryConnections earlier ++ (entry.2.connections ++ entryConnections later) := by
      rw [split, entryConnections, List.flatMap_append]
      rfl
    rw [parts, numbered_append, numbered_append]
    exact List.mem_append_right _ (List.mem_append_left _ inside)

private theorem mem_numbered {taken number : Nat} {connection other : Connection} {connections : List Connection}
    (first : (number, connection) ∈ numbered taken connections)
    (second : (number, other) ∈ numbered taken connections) : connection = other := by
  have distinct : ((numbered taken connections).map Prod.fst).Nodup := by
    rw [numbered_fst]
    exact List.nodup_range' ..
  exact congrArg Prod.snd (List.inj_on_of_nodup_map distinct first second rfl)

private theorem mem_connectionNodes_of (workflow : String) {taken number : Nat} {connection : Connection}
    {connections : List Connection} (listed : (number, connection) ∈ numbered taken connections) :
    connectionNode workflow number connection ∈ connectionNodes workflow taken connections :=
  List.mem_map.2 ⟨(number, connection), listed, rfl⟩

namespace Draft

variable {draft : Draft} {settings : Settings} {workflow : String} {entity other : Entity} {node : Node}
  {used : List (Site × String)} {steps : List Step} {d : Document}

private theorem connections_eq (draft : Draft) :
    draft.connections = draft.workflow.connections ++ entryConnections draft.steps.entries := by
  simp [connections, entryConnections, OrderedMap.values, List.flatMap_map]

/-- The node that a draft has for an entity. -/
inductive Emits (draft : Draft) (workflow : String) : Entity → Node → Prop
  | step {step : String} {part : Part} {earlier later : List (String × Part)}
    (split : draft.steps.entries = earlier ++ (step, part) :: later) :
    draft.Emits workflow (.step step) (stepNode workflow step earlier.length (connectionIds workflow
      (draft.workflow.connections.length + (entryConnections earlier).length) part.connections))
  | tool {step : String} (known : step ∈ draft.steps.keys) :
    draft.Emits workflow (.tool step) (toolNode workflow step (draft.part (.step step)))
  | connection {number : Nat} {connection : Connection} (listed : (number, connection) ∈ numbered 0 draft.connections) :
    draft.Emits workflow (.connection number) (connectionNode workflow number connection)
  | parameter {site : Site} {path : String} (owned : draft.Owns site { name := site.name ++ "/" ++ path }) :
    draft.Emits workflow (.parameter site path) (portNode workflow { name := site.name ++ "/" ++ path })

theorem Emits.id (emits : draft.Emits workflow entity node) : node.id = entity.id workflow := by
  cases emits <;> rfl

theorem Emits.types (emits : draft.Emits workflow entity node) : node.types = [entity.type] := by
  cases emits <;> rfl

private theorem Emits.unique {node' : Node} (emits : draft.Emits workflow entity node)
    (again : draft.Emits workflow entity node') : node = node' := by
  cases emits with
  | @step step part earlier later split =>
    cases again with
    | @step _ part' earlier' later' split' =>
      have distinct := draft.steps.distinct
      rw [split, List.map_append, List.map_cons, List.nodup_append, List.nodup_cons] at distinct
      have first : (step, part') ∉ earlier := fun member =>
        distinct.2.2 step (List.mem_map_of_mem member) step List.mem_cons_self rfl
      have last : (step, part') ∉ later := fun member => distinct.2.1.1 (List.mem_map.2 ⟨_, member, rfl⟩)
      obtain ⟨rfl, same, _⟩ := (List.append_cons_inj_of_notMem first last).1 (split.symm.trans split')
      cases same
      rfl
  | tool known => cases again; rfl
  | connection listed =>
    cases again with
    | connection listed' => rw [mem_numbered listed listed']
  | parameter owned => cases again; rfl

theorem Emits.emitted (settings : Settings) (emits : draft.Emits settings.workflow entity node) :
    node ∈ draft.nodes settings := by
  cases emits with
  | step split => exact entry_emitted split (by simp [entryNodes])
  | tool known => exact toolNode_emitted settings known
  | @connection number connection listed =>
    rw [connections_eq, numbered_append, Nat.zero_add] at listed
    rcases List.mem_append.1 listed with around | inside
    · apply frame_subset
      have emitted := mem_connectionNodes_of settings.workflow around
      simp [frameNodes, emitted]
    · obtain ⟨earlier, entry, later, split, inside⟩ := mem_numbered_entries.1 inside
      apply entry_emitted split
      exact List.mem_append_left _ (List.mem_append_left _ (mem_connectionNodes_of _ inside))
  | parameter owned => exact port_emitted _ (owns_iff.1 owned)

/-- The nodes of a draft that stand for nothing inside the workflow. -/
def aroundNodes (draft : Draft) (settings : Settings) : List Node :=
  descriptorNode :: rootNode settings ::
    workflowNode settings draft (connectionIds settings.workflow 0 draft.workflow.connections) ::
    languageNode settings.language :: settings.profiles.map profileNode

private theorem emits_of_connectionNodes {taken : Nat} {connections : List Connection}
    (listed : ∀ item ∈ numbered taken connections, item ∈ numbered 0 draft.connections)
    (member : node ∈ connectionNodes workflow taken connections) : ∃ entity, draft.Emits workflow entity node := by
  obtain ⟨item, inside, rfl⟩ := List.mem_map.1 member
  exact ⟨.connection item.1, .connection (listed item inside)⟩

private theorem Holds.emits (holds : draft.Holds used) {site : Site} {port : Port}
    (member : port ∈ (draft.part site).inputs ++ (draft.part site).outputs) :
    ∃ entity, draft.Emits workflow entity (portNode workflow port) := by
  have owned := owns_iff.2 member
  obtain ⟨path, _, rfl⟩ := (holds site port).1 owned
  exact ⟨.parameter site (trimmed path), .parameter owned⟩

/-- Every node of a draft is one of those around the workflow or stands for an entity. -/
theorem Holds.around_or_emits (holds : draft.Holds used) (member : node ∈ draft.nodes settings) :
    node ∈ draft.aroundNodes settings ∨ ∃ entity, draft.Emits settings.workflow entity node := by
  cases emitted_of_mem member with
  | descriptor | root | workflow | language => exact Or.inl (by simp [aroundNodes])
  | profile listed =>
    have profiles : _ ∈ settings.profiles.map profileNode := List.mem_map_of_mem listed
    exact Or.inl (by simp [aroundNodes, profiles])
  | port site owned => exact Or.inr (holds.emits owned)
  | connection own =>
    refine Or.inr (emits_of_connectionNodes (fun item listed => ?_) own)
    rw [connections_eq, numbered_append]
    exact List.mem_append_left _ listed
  | stepConnection split own =>
    refine Or.inr (emits_of_connectionNodes (fun item listed => ?_) own)
    rw [connections_eq, numbered_append, Nat.zero_add]
    exact List.mem_append_right _ (mem_numbered_entries.2 ⟨_, _, _, split, listed⟩)
  | @step entry _ _ split => exact Or.inr ⟨.step entry.1, .step split⟩
  | @tool entry stored =>
    rw [← part_of_entry stored]
    exact Or.inr ⟨.tool entry.1, .tool (List.mem_map_of_mem stored)⟩

theorem aroundNodes_ids (draft : Draft) (settings : Settings) :
    (draft.aroundNodes settings).map Node.id = metadataId :: rootId :: settings.ids := by
  simp [aroundNodes, Settings.ids, descriptorNode, rootNode, workflowNode, languageNode, profileNode,
    Function.comp_def]

private theorem around_ids_nodup (apart : settings.Apart) (draft : Draft) :
    ((draft.aroundNodes settings).map Node.id).Nodup := by
  rw [aroundNodes_ids, List.nodup_cons, List.nodup_cons, List.mem_cons, not_or]
  exact ⟨⟨by decide, apart.metadata⟩, apart.root, apart.distinct⟩

/-- What stands around the workflow has no id inside it. -/
private theorem around_outside (apart : settings.Apart) (member : node ∈ draft.aroundNodes settings) (name : String) :
    node.id ≠ localId settings.workflow name := by
  intro same
  have listed : node.id ∈ (draft.aroundNodes settings).map Node.id := List.mem_map_of_mem member
  have mark : '#' ∈ (localId settings.workflow name).toList := by simp [localId]
  rw [aroundNodes_ids, List.mem_cons, List.mem_cons] at listed
  rcases listed with metadata | root | given
  · rw [← same, metadata] at mark
    exact absurd mark (by decide)
  · rw [← same, root] at mark
    exact absurd mark (by decide)
  · apply apart.outside node.id given
    have letters : (localId settings.workflow name).toList = (settings.workflow ++ "#").toList ++ name.toList :=
      String.toList_append
    rw [same, letters]
    exact List.prefix_append _ _

theorem around_untyped {type : String} (member : node ∈ draft.aroundNodes settings) (listed : type ∈ Entity.allTypes) :
    ¬ node.hasType type = true := by
  have apart : ∀ types ∈ [["CreativeWork"], ["Dataset"], workflowTypes, ["ComputerLanguage"]],
      ∀ type ∈ Entity.allTypes, types.contains type = false := by decide
  have own : node.types ∈ [["CreativeWork"], ["Dataset"], workflowTypes, ["ComputerLanguage"]] := by
    simp only [aroundNodes, List.mem_cons, List.mem_map] at member
    rcases member with rfl | rfl | rfl | rfl | ⟨profile, _, rfl⟩ <;>
      simp [descriptorNode, rootNode, workflowNode, languageNode, profileNode]
  rw [Node.hasType, apart _ own _ listed]
  exact Bool.false_ne_true

/-- Nodes of one id are one node, unless they are nodes of two entities that clash. -/
private theorem eq_or_clash (apart : settings.Apart) (holds : draft.Holds used) {x y : Node}
    (first : x ∈ draft.nodes settings) (second : y ∈ draft.nodes settings) (same : x.id = y.id) : x = y ∨
      ∃ a b, draft.Emits settings.workflow a x ∧ draft.Emits settings.workflow b y ∧ a.Clash b := by
  rcases holds.around_or_emits first with around | ⟨a, emits⟩
  · rcases holds.around_or_emits second with around' | ⟨b, emits'⟩
    · exact Or.inl (List.inj_on_of_nodup_map (around_ids_nodup apart draft) around around' same)
    · exact absurd (same.trans emits'.id) (around_outside apart around _)
  · rcases holds.around_or_emits second with around' | ⟨b, emits'⟩
    · exact absurd (same.symm.trans emits.id) (around_outside apart around' _)
    · have names : a.localName = b.localName := localId_inj (emits.id.symm.trans (same.trans emits'.id))
      by_cases one : a = b
      · subst one
        exact Or.inl (emits.unique emits')
      · by_cases shared : a.isParameter = true ∧ b.isParameter = true
        · left
          cases emits with
          | parameter _ =>
            cases emits' with
            | parameter _ => exact congrArg (fun name => portNode settings.workflow { name }) names
            | step _ | tool _ | connection _ => cases shared.2
          | step _ | tool _ | connection _ => cases shared.1
        · exact Or.inr ⟨a, b, emits, emits', one, names, shared⟩

/-- A draft is refused for the id of two entities that clash, and for nothing else. -/
theorem clash_of_refused (apart : settings.Apart) (holds : draft.Holds used) {fault : Failure}
    (failed : draft.document settings = .error fault) : ∃ a b x y, draft.Emits settings.workflow a x ∧
      draft.Emits settings.workflow b y ∧ a.Clash b ∧ fault = .graphIdCollision (a.id settings.workflow) := by
  obtain ⟨x, first, y, second, same, differ, collision⟩ := Document.ofNodes_collision failed
  rcases eq_or_clash apart holds first second same with equal | ⟨a, b, emits, emits', clash⟩
  · exact absurd (equal ▸ Node.Same.refl x) differ
  · exact ⟨a, b, x, y, emits, emits', clash, emits.id ▸ collision⟩

theorem not_clash (made : draft.document settings = .ok d) {a b : Entity} {x y : Node}
    (first : draft.Emits settings.workflow a x) (second : draft.Emits settings.workflow b y) : ¬ a.Clash b := by
  intro clash
  have ids : x.id = y.id := by rw [first.id, second.id, Entity.id, Entity.id, clash.name]
  have same := (Document.ofNodes_collects made).same (first.emitted settings) (second.emitted settings) ids
  have types := same.types
  rw [first.types, second.types] at types
  exact clash.types (List.singleton_inj.1 types)

private theorem connections_sites (draft : Draft) :
    draft.connections = draft.sites.flatMap fun site => (draft.part site).connections := by
  rw [connections_eq, sites, List.flatMap_cons, List.flatMap_map, OrderedMap.keys, List.flatMap_map, entryConnections]
  congr 1
  exact List.flatMap_congr fun entry member => by rw [part_of_entry member]

private theorem ofFlow_connections (distinct : ((computes steps).map ComputeStep.name).Nodup)
    (made : ofFlow settings steps = .ok draft) :
    draft.connections = (flowSites steps).flatMap (flowInto settings steps) := by
  have sites : draft.sites = flowSites steps := by
    rw [Draft.sites, keys_ofFlow distinct made, List.map_map]
    rfl
  rw [connections_sites, sites]
  exact List.flatMap_congr fun site _ => ofFlow_carries made site

private theorem emits_step {step : String} :
    (∃ node, draft.Emits workflow (.step step) node) ↔ step ∈ draft.steps.keys := by
  constructor
  · intro ⟨node, emits⟩
    cases emits with
    | step split =>
      rw [OrderedMap.keys, split]
      simp
  · intro known
    obtain ⟨earlier, later, split⟩ := List.append_of_mem (entry_of_part known)
    exact ⟨_, .step split⟩

private theorem emits_tool {step : String} :
    (∃ node, draft.Emits workflow (.tool step) node) ↔ step ∈ draft.steps.keys := by
  constructor
  · intro ⟨node, emits⟩
    cases emits with
    | tool known => exact known
  · intro known
    exact ⟨_, .tool known⟩

private theorem emits_connection {number : Nat} : (∃ node, draft.Emits workflow (.connection number) node) ↔
    number ∈ List.range' 1 draft.connections.length := by
  rw [← numbered_fst 0 draft.connections, List.mem_map]
  constructor
  · intro ⟨node, emits⟩
    cases emits with
    | connection listed => exact ⟨_, listed, rfl⟩
  · intro ⟨⟨_, connection⟩, listed, same⟩
    subst same
    exact ⟨_, .connection listed⟩

private theorem emits_parameter {site : Site} {path : String} :
    (∃ node, draft.Emits workflow (.parameter site path) node) ↔
    draft.Owns site { name := site.name ++ "/" ++ path } := by
  constructor
  · intro ⟨node, emits⟩
    cases emits with
    | parameter owned => exact owned
  · intro owned
    exact ⟨_, .parameter owned⟩

/-- The draft of a flow has nodes for the entities of the flow. -/
theorem emits_iff (distinct : ((computes steps).map ComputeStep.name).Nodup)
    (made : ofFlow settings steps = .ok draft) :
    (∃ node, draft.Emits workflow entity node) ↔ entity ∈ entities settings steps := by
  have keys := keys_ofFlow distinct made
  have holds := ofFlow_holds made
  have flow := ofFlow_connections distinct made
  simp only [entities, List.mem_append, List.mem_map]
  cases entity with
  | step name => simp [emits_step, keys]
  | tool name => simp [emits_tool, keys]
  | connection number => simp [emits_connection, flow]
  | parameter owner path =>
    rw [emits_parameter, holds owner]
    simp [Site.portName_eq, eq_comm]

end Draft

end Graph

end Provenance
