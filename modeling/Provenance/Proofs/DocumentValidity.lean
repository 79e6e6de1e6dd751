import Provenance.Proofs.BuiltDrafts
import Provenance.Proofs.DocumentGrowth
import Provenance.Proofs.DraftEmission

/-! Documents that are built are valid. Whatever a plan, a registry or the settings
hold, building either refuses it or makes a document that keeps to the draft schema. -/

namespace Provenance.Graph

open Schema (Table)

/-- The ids are distinct, and every node keeps to the schema, where every link
that the schema follows leads to a node of the document. -/
structure Document.Sound (d : Document) : Prop where
  distinct : d.ids.Nodup
  conforms : ∀ node ∈ d.nodes, node.Conforms Table.draft d.ids

theorem Document.Sound.validates {d : Document} (sound : d.Sound) :
    Schema.validate Table.draft d.toJson = .ok () :=
  (Document.validate_toJson sound.distinct fun node member => (sound.conforms node member).1).2
    fun node member => (sound.conforms node member).2

theorem Draft.document_sound {draft : Draft} {settings : Settings} {d : Document} (wired : draft.Wired)
    (made : draft.document settings = .ok d) : d.Sound := by
  have collects := Document.ofNodes_collects made
  have conforms := Draft.nodes_conform wired fun node member => collects.id_mem member
  exact ⟨collects.distinct, fun node member => conforms node (collects.only node member)⟩

/-- A document of a plan comes from a wired draft. -/
theorem Document.ofPlan_drafts {plan : Flow.Plan} {input : Json} {settings : Settings} {d : Document}
    (made : Document.ofPlan plan input settings = .ok d) :
    ∃ draft : Draft, draft.Wired ∧ draft.document settings = .ok d := by
  obtain ⟨steps, _, rest⟩ := Outcome.bind_eq_ok.1 made
  obtain ⟨draft, drafted, emitted⟩ := Outcome.bind_eq_ok.1 rest
  exact ⟨draft, Draft.ofFlow_wired drafted, emitted⟩

/-- A document of a registry comes from a wired draft. -/
theorem Document.ofRegistry_drafts {registry : Registry} {settings : Settings} {d : Document}
    (made : Document.ofRegistry registry settings = .ok d) :
    ∃ draft : Draft, draft.Wired ∧ draft.document settings = .ok d := by
  obtain ⟨_, _, draft, _, _, drafted, emitted⟩ := Document.ofRegistry_eq_ok.1 made
  refine ⟨draft, Outcome.foldlM_keeps (fun _ _ _ wired added => wired.addParameter added) ?_ drafted, emitted⟩
  exact .of_unconnected (Draft.ofSequence_unconnected _)

theorem Document.ofPlan_sound {plan : Flow.Plan} {input : Json} {settings : Settings} {d : Document}
    (made : Document.ofPlan plan input settings = .ok d) : d.Sound := by
  obtain ⟨draft, wired, emitted⟩ := Document.ofPlan_drafts made
  exact Draft.document_sound wired emitted

theorem Document.ofRegistry_sound {registry : Registry} {settings : Settings} {d : Document}
    (made : Document.ofRegistry registry settings = .ok d) : d.Sound := by
  obtain ⟨draft, wired, emitted⟩ := Document.ofRegistry_drafts made
  exact Draft.document_sound wired emitted

/-- Both ways of building a document give valid documents only. -/
theorem built_documents_are_valid :
    (∀ plan input settings d, Document.ofPlan plan input settings = .ok d →
      d.Sound ∧ Schema.validate Table.draft d.toJson = .ok ()) ∧
    (∀ registry settings d, Document.ofRegistry registry settings = .ok d →
      d.Sound ∧ Schema.validate Table.draft d.toJson = .ok ()) :=
  ⟨fun _ _ _ _ made => ⟨Document.ofPlan_sound made, (Document.ofPlan_sound made).validates⟩,
    fun _ _ _ made => ⟨Document.ofRegistry_sound made, (Document.ofRegistry_sound made).validates⟩⟩

/-- A state that moves files from one endpoint to another. -/
def movingState (source destination : String) (files : List (String × String)) (next : Option String) : Flow.State :=
  { action := Flow.transferAction, next
    parameters := OrderedMap.ofList
      [("source_endpoint", .string source), ("destination_endpoint", .string destination),
        ("transfer_items", .array (files.map fun (path, target) => .object
          [("source_path", .string path), ("destination_path", .string target), ("recursive", .bool false)]))] }

/-- A compute state without tasks. -/
def idleState (next : Option String) : Flow.State :=
  { action := Flow.computeAction, next, parameters := OrderedMap.ofList [("tasks", .array [])] }

/-- A flow that fetches a file for the only step it has. -/
def fetchPlan : Flow.Plan :=
  { start := "Fetch"
    states := OrderedMap.ofList
      [("Fetch", movingState "hub" "lab" [("/a", "/b")] (some "Sort")),
        ("Sort", { idleState none with resultPath := some "$.Sort" })] }

/-- The same flow, declared through the parameter that its step reads. -/
def sortRegistry : Registry :=
  { parameters := [⟨"text", .file none⟩]
    tools := [.provenance
      { name := "Sorter", endpoint := "lab"
        functions := OrderedMap.ofList
          [("Sort", { args := [{ parameter := ⟨"text", .file none⟩, direction := .input }] })] }]
    distinct := by decide
    declared := by decide }

def plainSettings : Settings :=
  { workflow := "wf", orchestrator := "hub", marker := none, language := ⟨"js", "js", none, none⟩, profiles := [] }

theorem fetching_documents_are_valid :
    (∃ d, Document.ofPlan fetchPlan .null plainSettings = .ok d ∧
      d.Sound ∧ Schema.validate Table.draft d.toJson = .ok ()) ∧
    (∃ d, Document.ofRegistry sortRegistry plainSettings = .ok d ∧
      d.Sound ∧ Schema.validate Table.draft d.toJson = .ok ()) := by
  have planned : (Document.ofPlan fetchPlan .null plainSettings).toOption.isSome = true := by decide +kernel
  have declared : (Document.ofRegistry sortRegistry plainSettings).toOption.isSome = true := by decide
  obtain ⟨first, made⟩ := Outcome.ok_of_isSome planned
  obtain ⟨second, built⟩ := Outcome.ok_of_isSome declared
  exact ⟨⟨first, made, built_documents_are_valid.1 _ _ _ _ made⟩,
    ⟨second, built, built_documents_are_valid.2 _ _ _ built⟩⟩

end Provenance.Graph
