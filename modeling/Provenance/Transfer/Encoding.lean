import Provenance.Transfer.Sequence

/-! Transfers and sequences as JSON. -/

namespace Provenance

def Transfer.members (t : Transfer) : List (String × Json) :=
  [("alias", .string t.label), ("kind", .string t.kind.name), ("parameter", .string t.parameter),
    ("source_endpoint", .string t.source.endpoint), ("source_path", .string t.source.path),
    ("destination_endpoint", .string t.destination.endpoint),
    ("destination_path", .string t.destination.path), ("recursive", .bool t.recursive),
    ("sync_level", .string t.syncLevel)]

def Transfer.toJson (t : Transfer) : Json := .object t.members

def TransferPlan.toJson (p : TransferPlan) : Json :=
  let group (transfers : List Transfer) : Json := .array (transfers.map Transfer.toJson)
  let byTool := p.byTool.entries.map fun (tool, transfers) => (tool, group transfers)
  .object [("by_tool", .object byTool), ("trailing", group p.trailing)]

/-- An entry as an object. The kind of a transfer replaces the kind of entry. -/
def SequenceEntry.toJson : SequenceEntry → Json
  | .transfer moved => Json.ofMembers (("kind", .string "transfer") :: moved.members)
  | .compute tool function =>
    .object [("kind", .string "compute"), ("tool", .string tool), ("function", .string function)]
  | .capture function endpoint =>
    .object [("kind", .string "provenance_capture"), ("function", .string function),
      ("source_endpoint", .string endpoint)]

end Provenance
