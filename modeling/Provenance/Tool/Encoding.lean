import Provenance.Json.Reader
import Provenance.Tool.Manifest

/-! Parameters, usages, tools and summaries as JSON, and reading a usage back. -/

namespace Provenance

open Json (Source field?)

def ParameterKind.toJson : ParameterKind → Json
  | .scalar type => .object [("type", .string "scalar"), ("type_name", .string type)]
  | .file format => .object [("type", .string "file"), ("format", .textOrNull format)]

def Parameter.toJson (p : Parameter) : Json :=
  .object [("name", .string p.name), ("kind", p.kind.toJson)]

def Usage.toJson (u : Usage) : Json :=
  .object [("parameter", u.parameter.toJson), ("direction", .string u.direction.name),
    ("local_value", .textOrNull u.localValue)]

def FunctionUse.toJson (f : FunctionUse) : Json :=
  .object [("signature", .texts f.signature), ("args", .array (f.args.map Usage.toJson)),
    ("returns", .array (f.returns.map Usage.toJson))]

def Tool.toJson : Tool → Json
  | .provenance tool =>
    .object [("kind", .string "provenance"), ("name", .string tool.name),
      ("storage_endpoint_id", .string tool.endpoint),
      ("required_inputs", .texts tool.requiredInputs),
      ("functions", .object (tool.functions.entries.map fun (name, use) => (name, use.toJson)))]
  | .closed name functions =>
    .object [("kind", .string "opaque"), ("name", .string name), ("functions", .texts functions)]

def FileUsage.toJson (u : FileUsage) : Json :=
  .object [("parameter", .string u.parameter), ("tool", .string u.tool),
    ("function", .string u.function), ("endpoint", .string u.endpoint),
    ("declared_path", .string u.declaredPath), ("localized_path", .string u.localizedPath)]

def Json.nonempty (name : String) (texts : List String) : List (String × Json) :=
  if texts.isEmpty then [] else [(name, .texts texts)]

def Summary.toJson (s : Summary) : Json :=
  .object ([("name", .string s.name), ("type", .string s.type)] ++
    Json.present "format" (s.format.map .string) ++ Json.nonempty "input" s.input ++
    Json.nonempty "output" s.output)

def ParameterEntry.toJson (e : ParameterEntry) : Json :=
  .object ([("name", .string e.name), ("type", .string e.type)] ++
    Json.present "format" (e.format.map .string))

def UsageEntry.toJson (e : UsageEntry) : Json :=
  .object ([("parameter", .string e.parameter), ("direction", .string e.direction.name)] ++
    Json.present "value" (e.value.map .string))

def FunctionEntry.toJson (e : FunctionEntry) : Json :=
  .object [("name", .string e.name), ("signature", .texts e.signature),
    ("args", .array (e.args.map UsageEntry.toJson)),
    ("returns", .array (e.returns.map UsageEntry.toJson))]

def ToolEntry.toJson (e : ToolEntry) : Json :=
  .object [("kind", .string e.kind.name), ("name", .string e.name),
    ("storage_endpoint_id", .string e.endpoint), ("required_inputs", .texts e.requiredInputs),
    ("functions", .array (e.functions.map FunctionEntry.toJson))]

def Manifest.toJson (m : Manifest) : Json :=
  .object [("parameters", .array (m.parameters.map ParameterEntry.toJson)),
    ("tools", .array (m.tools.map ToolEntry.toJson))]

/-- The kind is told by its tag, before or among its other members, so all of
them have to be readable. As a list it is the tag and one more value. -/
def ParameterKind.ofSource? : Source → Option ParameterKind
  | .object members => do
    let members ← (Source.object members).named?
    guard (members.all fun member => member.2.value?.isSome)
    let tag ← (← field? ["type"] members).bind Source.text?
    if tag = "scalar" then
      let type ← (← field? ["type_name"] members).bind Source.text?
      return .scalar type
    else
      guard (tag = "file")
      match ← field? ["format"] members with
      | none => return .file none
      | some source => return .file (← source.optionalText?)
  | .array [tag, value] => do
    let tag ← tag.text?
    if tag = "scalar" then return .scalar (← value.text?)
    else
      guard (tag = "file")
      return .file (← value.optionalText?)
  | _ => none

def Parameter.ofSource? : Source → Option Parameter
  | .object members => do
    let members ← (Source.object members).named?
    let name ← (← field? ["name"] members).bind Source.text?
    let kind ← (← field? ["kind"] members).bind ParameterKind.ofSource?
    return { name, kind }
  | .array [name, kind] => do
    return { name := ← name.text?, kind := ← ParameterKind.ofSource? kind }
  | _ => none

def Direction.ofName? (name : String) : Option Direction := Entries.get? name Direction.choices

/-- A direction is its name, or the name as the only member of an object. -/
def Direction.ofSource? : Source → Option Direction
  | .object [(some name, value)] => if value.isNull then Direction.ofName? name else none
  | source => source.text?.bind Direction.ofName?

def Usage.ofSource? : Source → Option Usage
  | .object members => do
    let members ← (Source.object members).named?
    let parameter ← (← field? ["parameter"] members).bind Parameter.ofSource?
    let direction ← (← field? ["direction"] members).bind Direction.ofSource?
    let localValue ← match ← field? ["local_value"] members with
      | none => some none
      | some source => source.optionalText?
    return { parameter, direction, localValue }
  | .array [parameter, direction, localValue] => do
    return { parameter := ← Parameter.ofSource? parameter
             direction := ← Direction.ofSource? direction
             localValue := ← localValue.optionalText? }
  | _ => none

def Usage.ofText (text : String) : Except Failure Usage :=
  match Source.ofText text with
  | .error detail => .error (.undecodableJson detail)
  | .ok source =>
    match Usage.ofSource? source with
    | some usage => .ok usage
    | none => .error (.undecodableJson "not a parameter usage")

end Provenance
