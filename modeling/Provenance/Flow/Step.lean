import Provenance.Flow.Field
import Provenance.Flow.Plan

/-! The steps a flow takes, with every field resolved against the flow input. -/

namespace Provenance.Flow

structure Task where
  endpoint : Field
  function : Field
  payload : Field

structure TransferItem where
  sourcePath : Field
  destinationPath : Field
  recursive : Field

structure ComputeStep where
  name : String
  comment : Option String
  tasks : List Task
  resultPath : Option String
  /-- The number of compute steps before this one. -/
  position : Nat

structure TransferStep where
  name : String
  sourceEndpoint : Field
  destinationEndpoint : Field
  items : List TransferItem

inductive Step where
  | compute (step : ComputeStep)
  | transfer (step : TransferStep)

namespace Step

def name : Step → String
  | .compute step => step.name
  | .transfer step => step.name

def compute? : Step → Option ComputeStep
  | .compute step => some step
  | .transfer _ => none

def transfer? : Step → Option TransferStep
  | .compute _ => none
  | .transfer step => some step

end Step

/-- A field that holds a list of objects, each read in the same way. -/
def objectList {α : Type} (state : String) (fields : List (String × Json)) (key : String)
    (input : Json) (read : List (String × Json) → Except Failure α) : Except Failure (List α) := do
  let field ← Field.resolve state fields key input
  match field.value with
  | .array entries =>
    entries.mapM fun
      | .object members => read members
      | _ => .error (.malformedState state (.objectsExpected key))
  | found => .error (.malformedState state (.listExpected key found))

def ComputeStep.ofState (name : String) (state : State) (input : Json) (position : Nat) :
    Except Failure ComputeStep := do
  let tasks ← objectList name state.parameters.entries "tasks" input fun fields => do
    return { endpoint := ← Field.resolve name fields "endpoint" input
             function := ← Field.resolve name fields "function" input
             payload := ← Field.resolve name fields "payload" input }
  return { name, comment := state.comment, tasks, resultPath := state.resultPath, position }

def TransferStep.ofState (name : String) (state : State) (input : Json) :
    Except Failure TransferStep := do
  let parameters := state.parameters.entries
  let sourceEndpoint ← Field.resolve name parameters "source_endpoint" input
  let destinationEndpoint ← Field.resolve name parameters "destination_endpoint" input
  let items ← objectList name parameters "transfer_items" input fun fields => do
    return { sourcePath := ← Field.resolve name fields "source_path" input
             destinationPath := ← Field.resolve name fields "destination_path" input
             recursive := ← Field.resolve name fields "recursive" input }
  return { name, sourceEndpoint, destinationEndpoint, items }

end Provenance.Flow
