import Provenance.Graph.Draft
import Provenance.Transfer.Sequence

/-! The provenance graph of a registry. A parameter that nobody writes is an
input of the workflow, and one that nobody reads is an output of it. -/

namespace Provenance.Graph

/-- The function a parameter comes from, if any function writes it. -/
def producerOf (policy : ProducerPolicy) (summary : Summary) : Except Failure (Option String) :=
  match summary.output, policy with
  | first :: second :: _, .reject => .error (.multipleProducers summary.name first second)
  | functions, _ => .ok functions.getLast?

def portOf (summary : Summary) (site : Site) : Port :=
  { name := site.name ++ "/" ++ summary.name
    type := if summary.type = "file" then "File" else summary.type
    format := summary.format }

namespace Draft

def ofSequence (entries : List SequenceEntry) : Draft :=
  (entries.filterMap SequenceEntry.compute?).foldl
    (fun draft (tool, function) => draft.alter (.step function) fun part =>
      { part with description := some (function ++ " function of " ++ tool) })
    {}

def addParameter (settings : Settings) (d : Draft) (summary : Summary) : Except Failure Draft := do
  let producer ← producerOf settings.producerPolicy summary
  let written := summary.output.foldl
    (fun draft function => draft.addSource (.step function) (portOf summary (.step function))) d
  let (sourced, source) := match producer with
    | some function => (written, Site.step function)
    | none => (written.addSource .orchestrator (portOf summary .orchestrator), .orchestrator)
  let sourceName := (portOf summary source).name
  let targets := if summary.input.isEmpty then [Site.orchestrator] else summary.input.map Site.step
  return targets.foldl
    (fun draft site => draft.connectTo site sourceName (portOf summary site)) sourced

end Draft

def Document.ofRegistry (registry : Registry) (settings : Settings) : Except Failure Document := do
  let plan ← TransferPlan.infer registry.tools settings
  let summaries ← registry.summaries
  let draft ← summaries.foldlM (Draft.addParameter settings)
    (Draft.ofSequence (plan.sequence registry.tools))
  draft.document settings

end Provenance.Graph
