import Provenance.Flow.Trail
import Provenance.Yaml.Record

/-! Settings shared by inference and graph building. Every one has a default,
so an empty text is a complete set of settings. -/

namespace Provenance

/-- Where an inbound transfer reads from on the orchestration endpoint. -/
inductive InboundSource where
  | declared
  | localized
  deriving DecidableEq

def InboundSource.name : InboundSource → String
  | .declared => "declared"
  | .localized => "localized"

/-- What happens when several functions produce the same parameter. -/
inductive ProducerPolicy where
  | reject
  | lastWriterWins
  deriving DecidableEq

def ProducerPolicy.name : ProducerPolicy → String
  | .reject => "reject"
  | .lastWriterWins => "last_writer_wins"

structure Profile where
  id : String
  name : String
  version : String
  deriving DecidableEq

structure Language where
  id : String
  name : String
  url : Option String := none
  version : Option String := none
  deriving DecidableEq

def Language.standard : Language :=
  { id := "#globus-flows", name := "Globus Flows"
    url := some "https://www.globus.org/platform/services/flows" }

def Profile.standard : List Profile :=
  [{ id := "https://w3id.org/ro/wfrun/process/0.1", name := "Process Run Crate", version := "0.1" },
    { id := "https://w3id.org/ro/wfrun/workflow/0.1", name := "Workflow Run Crate",
      version := "0.1" },
    { id := "https://w3id.org/ro/wfrun/provenance/0.1", name := "Provenance Run Crate",
      version := "0.1" },
    { id := "https://w3id.org/workflowhub/workflow-ro-crate/1.0", name := "Workflow RO-Crate",
      version := "1.0" }]

structure Settings where
  /-- The id of the workflow node, which starts every local id. -/
  workflow : String := "flow.json"
  orchestrator : String := ""
  inboundSource : InboundSource := .declared
  producerPolicy : ProducerPolicy := .reject
  /-- What the names of provenance captures contain. -/
  marker : Option String := some Flow.defaultMarker
  context : String := "https://w3id.org/ro/crate/1.1/context"
  language : Language := Language.standard
  profiles : List Profile := Profile.standard

open Yaml (Decoder Fields)

def Profile.decoder : Decoder Profile := fun d node => do
  let f ← Fields.ofNode ["id", "name", "version"] d node
  return { id := ← f.required "id" Decoder.text
           name := ← f.required "name" Decoder.text
           version := ← f.required "version" Decoder.text }

def Language.decoder : Decoder Language := fun d node => do
  let f ← Fields.ofNode ["id", "name", "url", "version"] d node
  return { id := ← f.required "id" Decoder.text
           name := ← f.required "name" Decoder.text
           url := ← f.getD "url" Decoder.optionalText none
           version := ← f.getD "version" Decoder.optionalText none }

namespace Settings

def names : List String :=
  ["workflow_id", "orchestration_endpoint_id", "inbound_source", "producer_policy",
    "provenance_marker", "context", "language", "profiles"]

def decoder : Decoder Settings := fun d node => do
  let f ← Fields.ofNode names d node
  let inbound := Decoder.choice [("declared", InboundSource.declared), ("localized", .localized)]
  let policy := Decoder.choice
    [("reject", ProducerPolicy.reject), ("last_writer_wins", .lastWriterWins)]
  return { workflow := ← f.getD "workflow_id" Decoder.text "flow.json"
           orchestrator := ← f.getD "orchestration_endpoint_id" Decoder.text ""
           inboundSource := ← f.getD "inbound_source" inbound .declared
           producerPolicy := ← f.getD "producer_policy" policy .reject
           marker := ← f.getD "provenance_marker" Decoder.optionalText (some Flow.defaultMarker)
           context := ← f.getD "context" Decoder.text ({} : Settings).context
           language := ← f.getD "language" Language.decoder Language.standard
           profiles := ← f.getD "profiles" (Decoder.list Profile.decoder) Profile.standard }

def ofText (text : String) : Except Failure Settings :=
  (Decoder.ofText decoder text).mapError .undecodableYaml

def toJson (s : Settings) : Json :=
  let profile (p : Profile) : Json :=
    .object [("id", .string p.id), ("name", .string p.name), ("version", .string p.version)]
  .object [("workflow_id", .string s.workflow),
    ("orchestration_endpoint_id", .string s.orchestrator),
    ("inbound_source", .string s.inboundSource.name),
    ("producer_policy", .string s.producerPolicy.name),
    ("provenance_marker", .textOrNull s.marker),
    ("context", .string s.context),
    ("language", .object ([("id", .string s.language.id), ("name", .string s.language.name)] ++
      Json.present "url" (s.language.url.map .string) ++
      Json.present "version" (s.language.version.map .string))),
    ("profiles", .array (s.profiles.map profile))]

end Settings

end Provenance
