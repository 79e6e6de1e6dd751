import Provenance.Transfer.Inference

/-! The order of a flow's steps with its inferred transfers, and the flow plan
that runs them in this order. -/

namespace Provenance

inductive SequenceEntry where
  | transfer (transfer : Transfer)
  | compute (tool function : String)
  /-- Ships the provenance record of a function to the orchestrator. -/
  | capture (function endpoint : String)
  deriving DecidableEq

namespace SequenceEntry

def stateName : SequenceEntry → String
  | .transfer moved => moved.stateName
  | .compute _ function => function
  | .capture function _ => "Transfer_provenance_" ++ function

def transfer? : SequenceEntry → Option Transfer
  | .transfer moved => some moved
  | _ => none

def compute? : SequenceEntry → Option (String × String)
  | .compute tool function => some (tool, function)
  | _ => none

end SequenceEntry

/-- The entries of one tool: the transfers into it, then its functions. Only
tools with a storage endpoint have provenance records to ship. -/
def TransferPlan.entriesFor (plan : TransferPlan) (tool : Tool) : List SequenceEntry :=
  let functions := tool.functionNames.flatMap fun function =>
    SequenceEntry.compute tool.name function ::
      (tool.provenance?.toList.map fun step => .capture function step.endpoint)
  (plan.forTool tool.name).map .transfer ++ functions

/-- The whole sequence. Transfers back to the orchestrator close it. -/
def TransferPlan.sequence (plan : TransferPlan) (tools : List Tool) : List SequenceEntry :=
  tools.flatMap plan.entriesFor ++ plan.trailing.map .transfer

namespace SequenceEntry

open Provenance.Flow (State)

def transferState (transfer : Transfer) : State :=
  let phrase := transfer.kind.phrase
  let item := Json.object [("source_path", .string transfer.source.path),
    ("destination_path", .string transfer.destination.path),
    ("recursive", .bool transfer.recursive)]
  { action := Flow.transferAction
    comment := some ("Auto " ++ phrase ++ " transfer of '" ++ transfer.parameter ++ "'")
    parameters := OrderedMap.ofList
      [("source_endpoint", .string transfer.source.endpoint),
        ("destination_endpoint", .string transfer.destination.endpoint),
        ("transfer_items", .array [item]), ("sync_level", .string transfer.syncLevel)]
    resultPath := some ("$." ++ transfer.stateName) }

def computeState (tool function : String) : State :=
  let task := Json.object [("endpoint.$", .string "$.input.compute_endpoint"),
    ("function.$", .string ("$.input." ++ function ++ "_function_id")),
    ("payload.$", .string ("$.input." ++ function))]
  { action := Flow.computeAction
    comment := some (function ++ " from " ++ tool)
    parameters := OrderedMap.ofList [("tasks", .array [task])]
    resultPath := some ("$." ++ function) }

/-- The state of a capture. Its paths depend on the running task, so they are
expressions. -/
def captureState (settings : Settings) (function endpoint : String) : State :=
  let task := "`$." ++ function ++ ".details.results[0].task_id`"
  let folder := "`$.input._provenance_crate_destination_directory` + '/' + "
  let item := Json.object [("source_path.=", .string (task ++ " + '.crate'")),
    ("destination_path.=", .string (folder ++ task)), ("recursive", .bool true)]
  { action := Flow.transferAction
    comment := some ("Ship the provenance record of " ++ function)
    parameters := OrderedMap.ofList
      [("source_endpoint", .string endpoint),
        ("destination_endpoint", .string settings.orchestrator),
        ("transfer_items", .array [item])]
    resultPath := some ("$." ++ (SequenceEntry.capture function endpoint).stateName) }

def state (settings : Settings) : SequenceEntry → State
  | .transfer moved => transferState moved
  | .compute tool function => computeState tool function
  | .capture function endpoint => captureState settings function endpoint

end SequenceEntry

/-- Lets every state run before the one behind it. The last one ends the flow. -/
def Flow.chain : List (String × Flow.State) → List (String × Flow.State)
  | [] => []
  | [(name, state)] => [(name, state.terminal)]
  | (name, state) :: (next, following) :: rest =>
    (name, state.chainTo next) :: Flow.chain ((next, following) :: rest)

/-- The flow plan that runs a sequence. It has one state for each name, so the
entries should have different names. -/
def Flow.Plan.ofSequence (entries : List SequenceEntry) (settings : Settings) : Flow.Plan :=
  let states := entries.map fun entry => (entry.stateName, entry.state settings)
  { comment := some ("Flow for " ++ settings.workflow)
    start := (entries.head?.map SequenceEntry.stateName).getD ""
    states := OrderedMap.ofList (Flow.chain states) }

end Provenance
