import Provenance.Graph.Store
import Provenance.Settings

/-! Drafts of a provenance graph: the workflow and its steps, each with the
parameters and connections that end in it. A draft becomes nodes in a fixed
order, so equal drafts make equal documents. -/

namespace Provenance.Graph

structure Port where
  name : String
  type : String := "File"
  format : Option String := none
  deriving DecidableEq

/-- Data that flows from one parameter to another. -/
structure Connection where
  source : String
  target : String
  deriving DecidableEq

/-- The workflow itself or one of its steps. -/
structure Part where
  description : Option String := none
  inputs : List Port := []
  outputs : List Port := []
  connections : List Connection := []

def addPort (ports : List Port) (port : Port) : List Port :=
  if ports.any fun known => known.name = port.name then ports else ports ++ [port]

namespace Part

def addInput (p : Part) (port : Port) : Part := { p with inputs := addPort p.inputs port }

def addOutput (p : Part) (port : Port) : Part := { p with outputs := addPort p.outputs port }

def connect (p : Part) (source target : String) : Part :=
  let connection := Connection.mk source target
  if p.connections.contains connection then p
  else { p with connections := p.connections ++ [connection] }

end Part

/-- What owns a port: the orchestrator, for whom the workflow stands, or a step. -/
inductive Site where
  | orchestrator
  | step (name : String)
  deriving DecidableEq

def Site.name : Site → String
  | .orchestrator => "main"
  | .step name => name

/-- The name of a port at a site, for a path without its leading slashes. -/
def Site.portName (site : Site) (path : String) : String :=
  site.name ++ "/" ++ String.ofList (path.toList.dropWhile (· = '/'))

structure Draft where
  workflow : Part := {}
  steps : OrderedMap Part := {}

namespace Draft

def alter (d : Draft) (site : Site) (change : Part → Part) : Draft :=
  match site with
  | .orchestrator => { d with workflow := change d.workflow }
  | .step name => { d with steps := d.steps.alter name fun part => change (part.getD {}) }

/-- Where data comes from: an input of the workflow or an output of a step. -/
def addSource (d : Draft) (site : Site) (port : Port) : Draft :=
  d.alter site fun part =>
    match site with
    | .orchestrator => part.addInput port
    | .step _ => part.addOutput port

/-- Where data goes to: an output of the workflow or an input of a step. -/
def addTarget (d : Draft) (site : Site) (port : Port) : Draft :=
  d.alter site fun part =>
    match site with
    | .orchestrator => part.addOutput port
    | .step _ => part.addInput port

/-- Every connection in the order of its number, those of the workflow first. -/
def connections (d : Draft) : List Connection :=
  (d.workflow :: d.steps.values).flatMap Part.connections

/-- Connects a port to one that is new or known at its site. -/
def connectTo (d : Draft) (site : Site) (source : String) (port : Port) : Draft :=
  (d.addTarget site port).alter site fun part => part.connect source port.name

end Draft

def metadataId : String := "ro-crate-metadata.json"

def rootId : String := "./"

def specification : String := "https://w3id.org/ro/crate/1.1"

def workflowTypes : List String :=
  ["File", "SoftwareSourceCode", "ComputationalWorkflow", "HowTo"]

/-- The id of something inside a workflow. -/
def localId (workflow name : String) : String := workflow ++ "#" ++ name

def stepId (workflow step : String) : String := localId workflow ("main/" ++ step)

def connectionId (workflow : String) (number : Nat) : String :=
  localId workflow ("connection/" ++ toString number)

def optionalText (key : String) (text : Option String) : List (String × Property) :=
  text.toList.map fun text => (key, .text text)

/-- The property that lists connections, left out when there are none. -/
def connectionLinks (ids : List String) : List (String × Property) :=
  if ids.isEmpty then [] else [("connection", .links ids)]

def portLinks (workflow : String) (ports : List Port) : Property :=
  .links (ports.map fun port => localId workflow port.name)

def descriptorNode : Node :=
  { id := metadataId, types := ["CreativeWork"]
    properties := OrderedMap.ofList [("about", .link rootId), ("conformsTo", .link specification)] }

def rootNode (settings : Settings) : Node :=
  { id := rootId, types := ["Dataset"]
    properties := OrderedMap.ofList
      [("conformsTo", .links (settings.profiles.map Profile.id)),
        ("hasPart", .links [settings.workflow]), ("mainEntity", .link settings.workflow)] }

def languageNode (language : Language) : Node :=
  { id := language.id, types := ["ComputerLanguage"]
    properties := OrderedMap.ofList
      ([("name", .text language.name)] ++ language.url.toList.map (fun url => ("url", .link url)) ++
        optionalText "version" language.version) }

def profileNode (profile : Profile) : Node :=
  { id := profile.id, types := ["CreativeWork"]
    properties := OrderedMap.ofList
      [("name", .text profile.name), ("version", .text profile.version)] }

def portNode (workflow : String) (port : Port) : Node :=
  { id := localId workflow port.name, types := ["FormalParameter"]
    properties := OrderedMap.ofList
      ([("name", .text port.name), ("additionalType", .text port.type)] ++
        optionalText "encodingFormat" port.format) }

def connectionNode (workflow : String) (number : Nat) (connection : Connection) : Node :=
  { id := connectionId workflow number, types := ["ParameterConnection"]
    properties := OrderedMap.ofList
      [("sourceParameter", .link (localId workflow connection.source)),
        ("targetParameter", .link (localId workflow connection.target))] }

def stepNode (workflow step : String) (position : Nat) (connections : List String) : Node :=
  { id := stepId workflow step, types := ["HowToStep"]
    properties := OrderedMap.ofList
      ([("position", .text (toString position)), ("workExample", .link (localId workflow step))] ++
        connectionLinks connections) }

def toolNode (workflow step : String) (part : Part) : Node :=
  { id := localId workflow step, types := ["SoftwareApplication"]
    properties := OrderedMap.ofList
      ([("name", .text step)] ++ optionalText "description" part.description ++
        [("input", portLinks workflow part.inputs), ("output", portLinks workflow part.outputs)]) }

def workflowNode (settings : Settings) (draft : Draft) (connections : List String) : Node :=
  let workflow := settings.workflow
  let steps := draft.steps.keys
  { id := workflow, types := workflowTypes
    properties := OrderedMap.ofList
      ([("name", .text workflow), ("programmingLanguage", .link settings.language.id),
          ("input", portLinks workflow draft.workflow.inputs),
          ("output", portLinks workflow draft.workflow.outputs),
          ("step", .links (steps.map (stepId workflow))),
          ("hasPart", .links (steps.map (localId workflow)))] ++
        connectionLinks connections) }

/-- Connections with their numbers, of which so many are taken already. -/
def numbered (taken : Nat) (connections : List Connection) : List (Nat × Connection) :=
  (connections.zipIdx (taken + 1)).map fun (connection, number) => (number, connection)

def stepNodes (workflow : String) (position taken : Nat) : List (String × Part) → List Node
  | [] => []
  | (step, part) :: rest =>
    let connections := numbered taken part.connections
    let ids := connections.map fun (number, _) => connectionId workflow number
    connections.map (fun (number, connection) => connectionNode workflow number connection) ++
      stepNode workflow step position ids :: toolNode workflow step part ::
      (part.inputs ++ part.outputs).map (portNode workflow) ++
      stepNodes workflow (position + 1) (taken + part.connections.length) rest

namespace Draft

/-- The nodes of a draft. Connections of the workflow have the first numbers. -/
def nodes (d : Draft) (settings : Settings) : List Node :=
  let workflow := settings.workflow
  let connections := numbered 0 d.workflow.connections
  let ids := connections.map fun (number, _) => connectionId workflow number
  descriptorNode :: rootNode settings ::
    connections.map (fun (number, connection) => connectionNode workflow number connection) ++
    workflowNode settings d ids :: languageNode settings.language ::
    settings.profiles.map profileNode ++
    (d.workflow.inputs ++ d.workflow.outputs).map (portNode workflow) ++
    stepNodes workflow 0 d.workflow.connections.length d.steps.entries

def document (d : Draft) (settings : Settings) : Except Failure Document :=
  Document.ofNodes settings.context (d.nodes settings)

end Draft

end Provenance.Graph
