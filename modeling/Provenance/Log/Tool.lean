import Provenance.Log.Line
import Provenance.Tool.Manifest
import Provenance.Transfer.Sequence

/-! What is logged about manifests, registries and inferred transfers. -/

namespace Provenance.Log

def kindName : ToolKind → String
  | .provenance => "Provenance"
  | .closed => "Opaque"

/-- A line for each tool up to the first with an undeclared parameter. -/
def ofToolEntries (parameters : List Parameter) : List ToolEntry → List Line
  | [] => []
  | entry :: rest =>
    match Manifest.tool parameters entry with
    | .error _ => []
    | .ok tool =>
      let name := tool.name
      let kind := kindName entry.kind
      debug s!"Declared tool '{name}' ({kind})" :: ofToolEntries parameters rest

def ofManifest (manifest : Manifest) : List Line :=
  ofToolEntries (manifest.parameters.map ParameterEntry.parameter) manifest.tools ++
    match manifest.registry with
    | .error _ => []
    | .ok registry =>
      let parameters := registry.parameters.length
      let tools := registry.tools.length
      [info s!"Registry created: {parameters} parameters, {tools} tools"]

/-- A warning for each producer that takes the place of another. -/
def ofProducers (known : OrderedMap FileUsage) : List FileUsage → List Line
  | [] => []
  | usage :: rest =>
    let rest := ofProducers (known.insert usage.parameter usage) rest
    match known.get? usage.parameter with
    | none => rest
    | some earlier =>
      let parameter := usage.parameter
      let new := usage.function
      let old := earlier.function
      warning s!"Parameter '{parameter}' produced by '{new}' replaces producer '{old}'" :: rest

def ofTransfer (transfer : Transfer) : Line :=
  let kind := transfer.kind.phrase
  let label := transfer.label
  let place (location : Location) : String := location.endpoint ++ ":" ++ location.path
  let source := place transfer.source
  let destination := place transfer.destination
  debug s!"Inferred {kind} transfer '{label}': {source} -> {destination}"

def withoutOrchestrator : Line :=
  warning "Inbound or outbound transfers inferred but no orchestration endpoint is configured"

def ofInference (tools : List Tool) (settings : Settings) : List Line :=
  match TransferPlan.outputs tools settings with
  | .error _ => []
  | .ok outputs =>
    let inputs := TransferPlan.inputs tools
    let incoming := (TransferPlan.incoming inputs outputs settings).map Prod.snd
    let outgoing := TransferPlan.outgoing inputs outputs settings
    let transfers := incoming ++ outgoing
    let exposed := transfers.any fun transfer => transfer.kind != .peerToPeer
    let total := transfers.length
    let outbound := outgoing.length
    ofProducers {} ((TransferPlan.steps tools).flatMap ProvenanceTool.fileOutputs) ++
      transfers.map ofTransfer ++
      (if exposed && settings.orchestrator = "" then [withoutOrchestrator] else []) ++
      [info s!"Inferred {total} transfers ({outbound} outbound)"]

def ofSequence (entries : List SequenceEntry) : Line :=
  let count := entries.length
  debug s!"Augmented sequence has {count} entries"

end Provenance.Log
