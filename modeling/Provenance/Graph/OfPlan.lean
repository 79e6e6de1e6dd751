import Provenance.Graph.Draft

/-! The provenance graph of a flow plan. A transfer reads from the orchestrator
or the latest compute step, and writes to the orchestrator or the next one. -/

namespace Provenance.Graph

open Provenance.Flow (ComputeStep TransferStep TransferItem Step)

def nextCompute? (steps : List Step) : Option String :=
  (steps.findSome? Step.compute?).map ComputeStep.name

/-- The site at one end of a transfer, given the compute step on that side. -/
def siteOf (settings : Settings) (transfer : String) (side : TransferEnd) (endpoint : Flow.Field)
    (compute : Option String) : Except Failure Site :=
  if endpoint.text = settings.orchestrator then .ok .orchestrator
  else match compute with
    | some step => .ok (.step step)
    | none => .error (.unattributedTransfer transfer side)

namespace Draft

def ofSteps (steps : List Step) : Draft :=
  (steps.filterMap Step.compute?).foldl
    (fun draft step => draft.alter (.step step.name) fun part =>
      { part with description := step.comment })
    {}

/-- The place a step writes its result to is an output of the step. -/
def addResult (d : Draft) (step : ComputeStep) : Draft :=
  match step.resultPath with
  | none => d
  | some path =>
    let site := Site.step step.name
    let inner := String.ofList (Text.dropLeadingPairs '$' '.' path.toList)
    d.addSource site { name := site.portName inner }

def addItem (source destination : Site) (d : Draft) (item : TransferItem) : Draft :=
  let sourceName := source.portName item.sourcePath.text
  let targetName := destination.portName item.destinationPath.text
  (d.addSource source { name := sourceName }).connectTo destination sourceName
    { name := targetName }

def addSteps (settings : Settings) (previous : Option String) (d : Draft) :
    List Step → Except Failure Draft
  | [] => .ok d
  | .compute step :: rest => addSteps settings (some step.name) (d.addResult step) rest
  | .transfer step :: rest => do
    let source ← siteOf settings step.name .source step.sourceEndpoint previous
    let destination ←
      siteOf settings step.name .destination step.destinationEndpoint (nextCompute? rest)
    addSteps settings previous (step.items.foldl (addItem source destination) d) rest

def ofFlow (settings : Settings) (steps : List Step) : Except Failure Draft :=
  addSteps settings none (ofSteps steps) steps

end Draft

def Document.ofPlan (plan : Flow.Plan) (input : Json) (settings : Settings) :
    Except Failure Document := do
  let steps ← plan.steps input settings.marker
  let draft ← Draft.ofFlow settings steps
  draft.document settings

end Provenance.Graph
