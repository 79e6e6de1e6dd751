import Provenance.Tool.Registry
import Provenance.Yaml.Record

/-! Manifests: parameters and tools as they are declared in YAML. Usages name
their parameters, and making a registry looks the names up. -/

namespace Provenance

structure ParameterEntry where
  name : String
  type : String
  format : Option String := none

def ParameterEntry.parameter (e : ParameterEntry) : Parameter :=
  Parameter.ofType e.name e.type e.format

structure UsageEntry where
  parameter : String
  direction : Direction
  value : Option String := none

structure FunctionEntry where
  name : String
  signature : List String := []
  args : List UsageEntry := []
  returns : List UsageEntry := []

inductive ToolKind where
  | provenance
  | closed
  deriving DecidableEq

def ToolKind.name : ToolKind → String
  | .provenance => "provenance"
  | .closed => "opaque"

structure ToolEntry where
  kind : ToolKind := .provenance
  name : String
  endpoint : String := ""
  requiredInputs : List String := []
  functions : List FunctionEntry := []

structure Manifest where
  parameters : List ParameterEntry := []
  tools : List ToolEntry := []

open Yaml (Decoder Fields)

def ParameterEntry.decoder : Decoder ParameterEntry := fun d node => do
  let f ← Fields.ofNode ["name", "type", "format"] d node
  return { name := ← f.required "name" Decoder.text
           type := ← f.required "type" Decoder.text
           format := ← f.getD "format" Decoder.optionalText none }

def Direction.choices : List (String × Direction) := [("input", .input), ("output", .output)]

def UsageEntry.decoder : Decoder UsageEntry := fun d node => do
  let f ← Fields.ofNode ["parameter", "direction", "value"] d node
  return { parameter := ← f.required "parameter" Decoder.text
           direction := ← f.required "direction" (Decoder.choice Direction.choices)
           value := ← f.getD "value" Decoder.optionalText none }

def FunctionEntry.decoder : Decoder FunctionEntry := fun d node => do
  let f ← Fields.ofNode ["name", "signature", "args", "returns"] d node
  return { name := ← f.required "name" Decoder.text
           signature := ← f.getD "signature" (Decoder.list Decoder.text) []
           args := ← f.getD "args" (Decoder.list UsageEntry.decoder) []
           returns := ← f.getD "returns" (Decoder.list UsageEntry.decoder) [] }

def ToolKind.choices : List (String × ToolKind) :=
  [("provenance", .provenance), ("opaque", .closed)]

def ToolEntry.decoder : Decoder ToolEntry := fun d node => do
  let names := ["kind", "name", "storage_endpoint_id", "required_inputs", "functions"]
  let f ← Fields.ofNode names d node
  return { kind := ← f.getD "kind" (Decoder.choice ToolKind.choices) .provenance
           name := ← f.required "name" Decoder.text
           endpoint := ← f.getD "storage_endpoint_id" Decoder.text ""
           requiredInputs := ← f.getD "required_inputs" (Decoder.list Decoder.text) []
           functions := ← f.getD "functions" (Decoder.list FunctionEntry.decoder) [] }

def Manifest.decoder : Decoder Manifest := fun d node => do
  let f ← Fields.ofNode ["parameters", "tools"] d node
  return { parameters := ← f.getD "parameters" (Decoder.list ParameterEntry.decoder) []
           tools := ← f.getD "tools" (Decoder.list ToolEntry.decoder) [] }

namespace Manifest

def ofText (text : String) : Except Failure Manifest :=
  (Decoder.ofText Manifest.decoder text).mapError .undecodableYaml

def usage (parameters : List Parameter) (function : String) (entry : UsageEntry) :
    Except Failure Usage :=
  match parameters.find? fun parameter => parameter.name = entry.parameter with
  | some parameter =>
    .ok { parameter, direction := entry.direction, localValue := entry.value }
  | none => .error (.unknownParameter function entry.parameter)

def functionUse (parameters : List Parameter) (entry : FunctionEntry) :
    Except Failure (String × FunctionUse) := do
  let args ← entry.args.mapM (usage parameters entry.name)
  let returns ← entry.returns.mapM (usage parameters entry.name)
  return (entry.name, { signature := entry.signature, args, returns })

def tool (parameters : List Parameter) (entry : ToolEntry) : Except Failure Tool :=
  match entry.kind with
  | .closed => .ok (.closed entry.name (entry.functions.map FunctionEntry.name))
  | .provenance => do
    let functions ← entry.functions.mapM (functionUse parameters)
    return .provenance
      { name := entry.name, endpoint := entry.endpoint, requiredInputs := entry.requiredInputs
        functions := OrderedMap.ofList functions }

def registry (m : Manifest) : Except Failure Registry := do
  let parameters := m.parameters.map ParameterEntry.parameter
  let tools ← m.tools.mapM (tool parameters)
  Registry.create parameters tools

end Manifest

end Provenance
