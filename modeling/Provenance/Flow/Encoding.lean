import Provenance.Flow.Step
import Provenance.Json.Reader

/-! Flow plans and their steps as JSON. Most members have a second spelling for reading; on
writing, the first one is used and optional members that are null are left out. -/

namespace Provenance.Flow

open Json (Source field?)

namespace State

/-- The spellings of the members that are not kept as extra ones. -/
def memberNames : List String :=
  ["Comment", "Type", "ActionUrl", "actionId", "Parameters", "parameters", "ResultPath",
    "resultPath", "Next", "next", "End", "end"]

/-- Reads the value of an optional member: none where it is missing or null. -/
def optional? {α : Type} (read : Source → Option (Option α)) (member : Option Source) :
    Option (Option α) :=
  match member with
  | none => some none
  | some source => read source

def ofSource? (source : Source) : Option State := do
  let members ← source.named?
  let comment ← optional? Source.optionalText? (← field? ["Comment"] members)
  let type ← match ← field? ["Type"] members with
    | none => some "Action"
    | some source => source.text?
  let action ← (← field? ["ActionUrl", "actionId"] members).bind Source.text?
  let parameters ← match ← field? ["Parameters", "parameters"] members with
    | none => some {}
    | some source => source.map?
  let resultPath ← optional? Source.optionalText? (← field? ["ResultPath", "resultPath"] members)
  let next ← optional? Source.optionalText? (← field? ["Next", "next"] members)
  let ending ← optional? Source.optionalBool? (← field? ["End", "end"] members)
  let others := members.filter fun member => !memberNames.contains member.1
  let extra ← others.mapM fun (name, source) => source.value?.map (name, ·)
  return { comment, type, action, parameters, resultPath, next, ending,
           extra := OrderedMap.ofList extra }

def toJson (s : State) : Json :=
  .object ([("Comment", .textOrNull s.comment), ("Type", .string s.type),
      ("ActionUrl", .string s.action), ("Parameters", .object s.parameters.entries)] ++
    Json.present "ResultPath" (s.resultPath.map .string) ++
    Json.present "Next" (s.next.map .string) ++
    Json.present "End" (s.ending.map .bool) ++
    s.extra.entries)

def ofText (text : String) : Except Failure State :=
  match Source.ofText text with
  | .error detail => .error (.undecodableJson detail)
  | .ok source =>
    match ofSource? source with
    | some state => .ok state
    | none => .error (.undecodableJson "not a flow state")

end State

namespace Plan

def states? (source : Source) : Option (OrderedMap State) := do
  let members ← source.named?
  let states ← members.mapM fun (name, source) => (State.ofSource? source).map (name, ·)
  return OrderedMap.ofList states

/-- A plan is an object, or a list of comment, start and states. -/
def ofSource? : Source → Option Plan
  | .object members => do
    let members ← (Source.object members).named?
    let comment ← State.optional? Source.optionalText? (← field? ["Comment"] members)
    let start ← (← field? ["StartAt", "startState"] members).bind Source.text?
    let states ← (← field? ["States", "states"] members).bind states?
    return { comment, start, states }
  | .array [comment, start, states] => do
    return { comment := ← comment.optionalText?, start := ← start.text?
             states := ← states? states }
  | _ => none

def toJson (p : Plan) : Json :=
  .object (Json.present "Comment" (p.comment.map .string) ++
    [("StartAt", .string p.start),
      ("States", .object (p.states.entries.map fun (name, state) => (name, state.toJson)))])

def ofText (text : String) : Except Failure Plan :=
  match Source.ofText text with
  | .error detail => .error (.undecodableJson detail)
  | .ok source =>
    match ofSource? source with
    | some plan => .ok plan
    | none => .error (.undecodableJson "not a flow plan")

end Plan

def Task.toJson (t : Task) : Json :=
  .object [("endpoint", t.endpoint.toJson), ("function", t.function.toJson),
    ("payload", t.payload.toJson)]

def TransferItem.toJson (i : TransferItem) : Json :=
  .object [("source_path", i.sourcePath.toJson), ("destination_path", i.destinationPath.toJson),
    ("recursive", i.recursive.toJson)]

def ComputeStep.members (s : ComputeStep) : List (String × Json) :=
  [("name", .string s.name), ("comment", .textOrNull s.comment),
    ("tasks", .array (s.tasks.map Task.toJson)), ("result_path", .textOrNull s.resultPath),
    ("position", .nat s.position)]

def TransferStep.members (s : TransferStep) : List (String × Json) :=
  [("name", .string s.name), ("source_endpoint", s.sourceEndpoint.toJson),
    ("destination_endpoint", s.destinationEndpoint.toJson),
    ("items", .array (s.items.map TransferItem.toJson))]

def Step.toJson : Step → Json
  | .compute step => .object (("kind", .string "compute") :: step.members)
  | .transfer step => .object (("kind", .string "transfer") :: step.members)

end Provenance.Flow
