import Provenance.Graph.OfPlan
import Provenance.Graph.OfTools
import Provenance.Log.Flow
import Provenance.Log.Tool

/-! What is logged while a provenance graph is built. -/

namespace Provenance.Log

open Provenance.Graph (Draft Document Node Site)
open Provenance.Flow (Step)

/-- A line for each node that is added again, up to the first collision. -/
def ofNodes (document : Document) : List Node → List Line
  | [] => []
  | node :: rest =>
    match document.add node with
    | .error _ => []
    | .ok next =>
      let id := node.id
      if document.contains id then
        debug s!"Node '{id}' already present" :: ofNodes next rest
      else ofNodes next rest

def ofDraft (draft : Draft) (settings : Settings) : List Line :=
  ofNodes { context := settings.context } (draft.nodes settings) ++
    match draft.document settings with
    | .error _ => []
    | .ok document =>
      let workflow := settings.workflow
      let steps := draft.steps.size
      let connections := draft.connections.length
      let nodes := document.size
      let counts := s!"{steps} steps, {connections} connections, {nodes} nodes"
      [info s!"Built graph for '{workflow}': {counts}"]

/-- A line for each item that is transferred, up to the first transfer with an
end that belongs to no compute step. -/
def ofItems (settings : Settings) (previous : Option String) : List Step → List Line
  | [] => []
  | .compute step :: rest => ofItems settings (some step.name) rest
  | .transfer step :: rest =>
    let source := Graph.siteOf settings step.name .source step.sourceEndpoint previous
    let destination := Graph.siteOf settings step.name .destination step.destinationEndpoint
      (Graph.nextCompute? rest)
    match source, destination with
    | .ok source, .ok destination =>
      let line (item : Flow.TransferItem) : Line :=
        let name := step.name
        let read := source.portName item.sourcePath.text
        let written := destination.portName item.destinationPath.text
        debug s!"Transfer '{name}' links '{read}' -> '{written}'"
      step.items.map line ++ ofItems settings previous rest
    | _, _ => []

def ofPlan (plan : Flow.Plan) (input : Json) (settings : Settings) : List Line :=
  ofFlow plan input settings.marker ++
    match plan.steps input settings.marker with
    | .error _ => []
    | .ok steps =>
      ofItems settings none steps ++
        match Draft.ofFlow settings steps with
        | .error _ => []
        | .ok draft => ofDraft draft settings

def ofRegistry (registry : Registry) (settings : Settings) : List Line :=
  ofInference registry.tools settings ++
    match TransferPlan.infer registry.tools settings with
    | .error _ => []
    | .ok plan =>
      let entries := plan.sequence registry.tools
      let draft : Except Failure Draft := do
        (← registry.summaries).foldlM (Draft.addParameter settings) (Draft.ofSequence entries)
      ofSequence entries ::
        match draft with
        | .error _ => []
        | .ok draft => ofDraft draft settings

end Provenance.Log
