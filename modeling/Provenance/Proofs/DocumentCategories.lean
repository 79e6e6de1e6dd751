import Provenance.Comparison.Category
import Provenance.Proofs.DocumentValidity
import Provenance.Proofs.DraftEntities

/-! The parts of a crate that the nodes of a built document belong to. A node is sorted by its id
before its types, and ids are made from settings, names of states and paths. An id that would put a
node into the wrong part belongs to the descriptor or to the root, so no document has both. -/

namespace Provenance.Graph

/-- What a node is built for, and the part of a crate that it should be in. -/
inductive Node.Role (settings : Settings) : Node → Category → Prop where
  | descriptor : Node.Role settings descriptorNode .metadata
  | root : Node.Role settings (rootNode settings) .orchestration
  | workflow {node : Node} (id : node.id = settings.workflow) (types : node.types = workflowTypes) :
    Node.Role settings node .prospective
  | entity {node : Node} {name type : String} (id : node.id = localId settings.workflow name)
    (listed : type ∈ Entity.allTypes) (types : node.types = [type]) : Node.Role settings node .prospective
  | language : Node.Role settings (languageNode settings.language) .other
  | profile {profile : Profile} (listed : profile ∈ settings.profiles) : Node.Role settings (profileNode profile) .other

/-- The nodes that settings ask for are there, and every node is in the part that it was built for.
Only the descriptor is metadata and only the root orchestrates. Prospective are the workflow and what
is inside it, and all the rest are the language and the profiles. -/
structure Document.Categorized (d : Document) (settings : Settings) : Prop where
  present : ∀ id ∈ metadataId :: rootId :: settings.ids, id ∈ d.ids
  metadata : ∀ node ∈ d.nodes, Category.ofNode node.toJson = .metadata ↔ node.id = metadataId
  orchestration : ∀ node ∈ d.nodes, Category.ofNode node.toJson = .orchestration ↔ node.id = rootId
  prospective : ∀ node ∈ d.nodes, Category.ofNode node.toJson = .prospective ↔
    node.id = settings.workflow ∨ ∃ type ∈ Entity.allTypes, node.hasType type = true
  retrospective : ∀ node ∈ d.nodes, Category.ofNode node.toJson ≠ .retrospective
  other : ∀ node ∈ d.nodes, Category.ofNode node.toJson = .other ↔
    node.id = settings.language.id ∨ ∃ profile ∈ settings.profiles, node.id = profile.id

variable {node : Node} {settings : Settings} {category : Category} {draft : Draft} {d : Document}

/-- The part that types stand for, under an id that says nothing. -/
def partOfTypes (types : List String) : Category :=
  if (Category.TypePattern.exactly "Dataset").fits types then .orchestration
  else if Category.prospectivePatterns.any (Category.TypePattern.fits types) then .prospective
  else if Category.retrospectivePatterns.any (Category.TypePattern.fits types) then .retrospective
  else .other

namespace Node

theorem typesOf_toJson (plain : node.Plain) : Category.typesOf node.toJson = node.types := by
  rw [toJson_of_plain plain]
  obtain ⟨id, types, properties⟩ := node
  match types with
  | [] => rfl
  | [single] => rfl
  | first :: second :: rest =>
    have texts : (List.map Json.string (first :: second :: rest)).filterMap Json.text? = first :: second :: rest := by
      simp [List.filterMap_map, Function.comp_def, Json.text?]
    exact texts

theorem ofNode_toJson (plain : node.Plain) : Category.ofNode node.toJson =
    if node.id = metadataId then .metadata
    else if node.id = rootId then .orchestration
    else partOfTypes node.types := by
  have id : node.toJson.textAt? "@id" = some node.id := by
    rw [toJson_of_plain plain, textAt_id]
  unfold Category.ofNode
  simp only [id, Option.getD_some, typesOf_toJson plain, partOfTypes, Bool.or_eq_true, decide_eq_true_eq]
  split
  · rfl
  · by_cases root : node.id = rootId
    · simp [root]
    · simp [root]

private theorem ofNode_apart (plain : node.Plain) (apart : node.id ≠ metadataId ∧ node.id ≠ rootId) :
    Category.ofNode node.toJson = partOfTypes node.types := by
  rw [ofNode_toJson plain, if_neg apart.1, if_neg apart.2]

private theorem ofNode_congr {other : Node} (plain : node.Plain) (read : other.Plain) (id : node.id = other.id)
    (types : node.types = other.types) : Category.ofNode node.toJson = Category.ofNode other.toJson := by
  rw [ofNode_toJson plain, ofNode_toJson read, id, types]

end Node

namespace Node.Role

private theorem metadata_id (role : node.Role settings .metadata) : node.id = metadataId := by
  cases role
  rfl

private theorem orchestration_id (role : node.Role settings .orchestration) : node.id = rootId := by
  cases role
  rfl

private theorem prospective_inside (role : node.Role settings .prospective) :
    node.id = settings.workflow ∨ ∃ type ∈ Entity.allTypes, node.hasType type = true := by
  cases role with
  | workflow id _ => exact Or.inl id
  | entity _ listed types => exact Or.inr ⟨_, listed, by simp [hasType, types]⟩

private theorem other_given (role : node.Role settings .other) :
    node.id = settings.language.id ∨ ∃ profile ∈ settings.profiles, node.id = profile.id := by
  cases role with
  | language => exact Or.inl rfl
  | profile listed => exact Or.inr ⟨_, listed, rfl⟩

private theorem not_retrospective : ¬ node.Role settings .retrospective := nofun

private theorem of_type {type : String} (role : node.Role settings category) (listed : type ∈ Entity.allTypes)
    (typed : node.hasType type = true) : category = .prospective := by
  have around : node ∉ ({} : Draft).aroundNodes settings := fun around => Draft.around_untyped around listed typed
  cases role with
  | workflow | entity => rfl
  | descriptor | root | language => exact absurd (by simp [Draft.aroundNodes]) around
  | profile known =>
    have profiles : _ ∈ settings.profiles.map profileNode := List.mem_map_of_mem known
    exact absurd (by simp [Draft.aroundNodes, profiles]) around

end Node.Role

namespace Draft

private theorem emitted_role (emitted : draft.Emitted settings node) : ∃ category, node.Role settings category := by
  cases emitted with
  | descriptor => exact ⟨_, .descriptor⟩
  | root => exact ⟨_, .root⟩
  | workflow => exact ⟨_, .workflow rfl rfl⟩
  | language => exact ⟨_, .language⟩
  | profile listed => exact ⟨_, .profile listed⟩
  | port site owned => exact ⟨_, .entity rfl (by decide) rfl⟩
  | connection listed | stepConnection _ listed =>
    obtain ⟨_, _, rfl⟩ := List.mem_map.1 listed
    exact ⟨_, .entity rfl (by decide) rfl⟩
  | step split => exact ⟨_, .entity rfl (by decide) rfl⟩
  | tool stored => exact ⟨_, .entity rfl (by decide) rfl⟩

private theorem around_subset : draft.aroundNodes settings ⊆ draft.nodes settings := by
  intro node around
  apply frame_subset
  simp only [aroundNodes, List.mem_cons] at around
  rcases around with rfl | rfl | rfl | rfl | profile <;> simp [frameNodes, *]

end Draft

/-- A profile has the types of the descriptor, but it is not about the root. -/
private theorem profileNode_unlike (profile : Profile) : ¬ (profileNode profile).Same descriptorNode := by
  intro same
  have unsaid : (profileNode profile).property? "about" = none := rfl
  have said : descriptorNode.property? "about" = some (.link rootId) := rfl
  cases unsaid.symm.trans ((same.property "about").trans said)

namespace Document

/-- Only a node that says the same has the id of the descriptor or of the root. -/
private theorem Collects.id_apart (collects : d.Collects (draft.nodes settings)) (member : node ∈ draft.nodes settings)
    (unlike : ¬ node.Same descriptorNode) (unrooted : ¬ node.Same (rootNode settings)) :
    node.id ≠ metadataId ∧ node.id ≠ rootId := by
  have descriptor : descriptorNode ∈ draft.nodes settings := Draft.around_subset (by simp [Draft.aroundNodes])
  have root : rootNode settings ∈ draft.nodes settings := Draft.around_subset (by simp [Draft.aroundNodes])
  exact ⟨fun same => unlike (collects.same member descriptor same), fun same => unrooted (collects.same member root same)⟩

/-- A node with other types than the descriptor and the root is sorted by its types. -/
private theorem Collects.ofNode_types (collects : d.Collects (draft.nodes settings)) (plain : node.Plain)
    (member : node ∈ draft.nodes settings) (unlike : node.types ≠ ["CreativeWork"])
    (unrooted : node.types ≠ ["Dataset"]) : Category.ofNode node.toJson = partOfTypes node.types :=
  Node.ofNode_apart plain (collects.id_apart member (fun same => unlike same.types) fun same => unrooted same.types)

private theorem Collects.ofNode_role (collects : d.Collects (draft.nodes settings)) (plain : node.Plain)
    (member : node ∈ draft.nodes settings) (role : node.Role settings category) :
    Category.ofNode node.toJson = category := by
  cases role with
  | descriptor | root =>
    rw [Node.ofNode_toJson plain]
    rfl
  | workflow id types =>
    have part : workflowTypes ≠ ["CreativeWork"] ∧ workflowTypes ≠ ["Dataset"] ∧
        partOfTypes workflowTypes = .prospective := by decide
    rw [← types] at part
    exact (collects.ofNode_types plain member part.1 part.2.1).trans part.2.2
  | @entity _ name type id listed types =>
    have part : ∀ type ∈ Entity.allTypes, [type] ≠ ["CreativeWork"] ∧ [type] ≠ ["Dataset"] ∧
        partOfTypes [type] = .prospective := by decide
    obtain ⟨unlike, unrooted, prospective⟩ := types ▸ part type listed
    exact (collects.ofNode_types plain member unlike unrooted).trans prospective
  | language =>
    have part : ["ComputerLanguage"] ≠ ["CreativeWork"] ∧ ["ComputerLanguage"] ≠ ["Dataset"] ∧
        partOfTypes ["ComputerLanguage"] = .other := by decide
    exact (collects.ofNode_types plain member part.1 part.2.1).trans part.2.2
  | @profile profile listed =>
    have part : ["CreativeWork"] ≠ ["Dataset"] ∧ partOfTypes ["CreativeWork"] = .other := by decide
    have apart := collects.id_apart member (profileNode_unlike profile) fun same => part.1 same.types
    exact (Node.ofNode_apart plain apart).trans part.2

/-- A node with the id of another one is in the same part. -/
private theorem Collects.ofNode_shared (collects : d.Collects (draft.nodes settings))
    (plain : ∀ node ∈ draft.nodes settings, node.Plain) {known : Node} (around : known ∈ draft.aroundNodes settings)
    (role : known.Role settings category) (member : node ∈ draft.nodes settings) (same : node.id = known.id) :
    Category.ofNode node.toJson = category := by
  have emitted := Draft.around_subset around
  rw [← collects.ofNode_role (plain known emitted) emitted role]
  exact Node.ofNode_congr (plain node member) (plain known emitted) same (collects.same member emitted same).types

end Document

private theorem Draft.document_categorized (wired : draft.Wired) (made : draft.document settings = .ok d) :
    d.Categorized settings := by
  have collects := Document.ofNodes_collects made
  have plain : ∀ node ∈ draft.nodes settings, node.Plain := fun node member =>
    (Draft.nodes_conform wired (fun _ emitted => collects.id_mem emitted) node member).1
  have own : ∀ node ∈ d.nodes, node.Role settings (Category.ofNode node.toJson) := by
    intro node member
    have emitted := collects.only node member
    obtain ⟨category, role⟩ := Draft.emitted_role (Draft.emitted_of_mem emitted)
    rwa [collects.ofNode_role (plain node emitted) emitted role]
  have shared : ∀ known ∈ draft.aroundNodes settings, ∀ category, known.Role settings category →
      ∀ node ∈ d.nodes, node.id = known.id → Category.ofNode node.toJson = category :=
    fun known around category role node member => collects.ofNode_shared plain around role (collects.only node member)
  simp only [aroundNodes, List.forall_mem_cons, List.forall_mem_map] at shared
  obtain ⟨descriptor, root, workflow, language, profile⟩ := shared
  constructor
  case present =>
    intro id listed
    rw [← aroundNodes_ids draft settings] at listed
    obtain ⟨node, around, rfl⟩ := List.mem_map.1 listed
    exact collects.id_mem (around_subset around)
  case metadata =>
    intro node member
    exact ⟨fun part => Node.Role.metadata_id (part ▸ own node member), descriptor _ .descriptor node member⟩
  case orchestration =>
    intro node member
    exact ⟨fun part => Node.Role.orchestration_id (part ▸ own node member), root _ .root node member⟩
  case prospective =>
    intro node member
    refine ⟨fun part => Node.Role.prospective_inside (part ▸ own node member), ?_⟩
    rintro (given | ⟨type, listed, typed⟩)
    · exact workflow _ (.workflow rfl rfl) node member given
    · exact (own node member).of_type listed typed
  case retrospective =>
    intro node member part
    exact Node.Role.not_retrospective (part ▸ own node member)
  case other =>
    intro node member
    refine ⟨fun part => Node.Role.other_given (part ▸ own node member), ?_⟩
    rintro (given | ⟨asked, listed, given⟩)
    · exact language _ .language node member given
    · exact profile asked listed _ (.profile listed) node member given

/-- Both ways of building a document put every node into the part that it was built for, whatever ids
the settings give and however states and files are named. -/
theorem built_documents_are_categorized :
    (∀ plan input settings d, Document.ofPlan plan input settings = .ok d → d.Categorized settings) ∧
    ∀ registry settings d, Document.ofRegistry registry settings = .ok d → d.Categorized settings := by
  constructor
  · intro plan input settings d made
    obtain ⟨draft, wired, emitted⟩ := Document.ofPlan_drafts made
    exact Draft.document_categorized wired emitted
  · intro registry settings d made
    obtain ⟨draft, wired, emitted⟩ := Document.ofRegistry_drafts made
    exact Draft.document_categorized wired emitted

theorem fetching_documents_are_categorized :
    (∃ d, Document.ofPlan fetchPlan .null plainSettings = .ok d ∧ d.Categorized plainSettings) ∧
    ∃ d, Document.ofRegistry sortRegistry plainSettings = .ok d ∧ d.Categorized plainSettings := by
  have planned : (Document.ofPlan fetchPlan .null plainSettings).toOption.isSome = true := by decide +kernel
  have declared : (Document.ofRegistry sortRegistry plainSettings).toOption.isSome = true := by decide
  obtain ⟨first, made⟩ := Outcome.ok_of_isSome planned
  obtain ⟨second, built⟩ := Outcome.ok_of_isSome declared
  exact ⟨⟨first, made, built_documents_are_categorized.1 _ _ _ _ made⟩,
    ⟨second, built, built_documents_are_categorized.2 _ _ _ built⟩⟩

/-- A workflow cannot have the id of the root. -/
example : (Document.ofPlan fetchPlan .null { plainSettings with workflow := rootId }).toOption.isNone = true := by
  decide +kernel

end Provenance.Graph
