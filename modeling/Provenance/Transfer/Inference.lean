import Provenance.Settings
import Provenance.Tool.Registry

/-! The transfers nobody declared: from the producer of a file to each consumer,
from the orchestrator to the consumers of a file without a producer, and back
to it from the producer of a file that nobody consumes. -/

namespace Provenance

inductive TransferKind where
  | peerToPeer
  | inbound
  | outbound
  deriving DecidableEq

namespace TransferKind

def name : TransferKind → String
  | .peerToPeer => "peer_to_peer"
  | .inbound => "inbound"
  | .outbound => "outbound"

def phrase : TransferKind → String
  | .peerToPeer => "peer-to-peer"
  | .inbound => "inbound"
  | .outbound => "outbound"

end TransferKind

structure Location where
  endpoint : String
  path : String
  deriving DecidableEq

/-- One inferred transfer. Its label is made from the parameter and the
functions at its ends. -/
structure Transfer where
  label : String
  kind : TransferKind
  parameter : String
  source : Location
  destination : Location
  recursive : Bool := false
  syncLevel : String := "checksum"
  deriving DecidableEq

def Transfer.stateName (t : Transfer) : String := "Transfer" ++ t.label

/-- Inferred transfers, those into a tool grouped by its name. -/
structure TransferPlan where
  byTool : OrderedMap (List Transfer) := {}
  trailing : List Transfer := []

namespace TransferPlan

def forTool (p : TransferPlan) (tool : String) : List Transfer := (p.byTool.get? tool).getD []

def toList (p : TransferPlan) : List Transfer := p.byTool.values.flatten ++ p.trailing

def size (p : TransferPlan) : Nat := p.toList.length

end TransferPlan

namespace FileUsage

def declared (u : FileUsage) : Location := ⟨u.endpoint, u.declaredPath⟩

def localized (u : FileUsage) : Location := ⟨u.endpoint, u.localizedPath⟩

def transferIn (settings : Settings) (producer : Option FileUsage) (consumer : FileUsage) :
    Transfer :=
  let parameter := consumer.parameter
  match producer with
  | some producer =>
    { label := "_auto_FP_" ++ parameter ++ "_" ++ producer.function ++ "_" ++ consumer.function
      kind := .peerToPeer, parameter, source := producer.localized
      destination := consumer.localized }
  | none =>
    let path := match settings.inboundSource with
      | .declared => consumer.declaredPath
      | .localized => consumer.localizedPath
    { label := "_auto_FP_" ++ parameter ++ "_in_" ++ consumer.function
      kind := .inbound, parameter, source := ⟨settings.orchestrator, path⟩
      destination := consumer.localized }

def transferOut (settings : Settings) (producer : FileUsage) : Transfer :=
  { label := "_auto_FP_" ++ producer.parameter ++ "_" ++ producer.function ++ "_out"
    kind := .outbound, parameter := producer.parameter, source := producer.localized
    destination := ⟨settings.orchestrator, producer.declaredPath⟩ }

end FileUsage

/-- The producer of each parameter. A later producer takes the place of an
earlier one, unless that is refused. -/
def producers (policy : ProducerPolicy) (known : OrderedMap FileUsage) :
    List FileUsage → Except Failure (OrderedMap FileUsage)
  | [] => .ok known
  | usage :: rest =>
    match policy, known.get? usage.parameter with
    | .reject, some first =>
      .error (.multipleProducers usage.parameter first.function usage.function)
    | _, _ => producers policy (known.insert usage.parameter usage) rest

namespace TransferPlan

def steps (tools : List Tool) : List ProvenanceTool := tools.filterMap Tool.provenance?

def inputs (tools : List Tool) : OrderedMap (List FileUsage) :=
  OrderedMap.groups
    (((steps tools).flatMap ProvenanceTool.fileInputs).map fun usage => (usage.parameter, usage))

def outputs (tools : List Tool) (settings : Settings) : Except Failure (OrderedMap FileUsage) :=
  producers settings.producerPolicy {} ((steps tools).flatMap ProvenanceTool.fileOutputs)

def incoming (inputs : OrderedMap (List FileUsage)) (outputs : OrderedMap FileUsage)
    (settings : Settings) : List (String × Transfer) :=
  inputs.values.flatten.map fun consumer =>
    (consumer.tool, consumer.transferIn settings (outputs.get? consumer.parameter))

def outgoing (inputs : OrderedMap (List FileUsage)) (outputs : OrderedMap FileUsage)
    (settings : Settings) : List Transfer :=
  (outputs.values.filter fun producer => !inputs.contains producer.parameter).map
    (FileUsage.transferOut settings)

def infer (tools : List Tool) (settings : Settings) : Except Failure TransferPlan := do
  let inputs := inputs tools
  let outputs ← outputs tools settings
  return { byTool := OrderedMap.groups (incoming inputs outputs settings)
           trailing := outgoing inputs outputs settings }

end TransferPlan

end Provenance
