import Provenance.Flow.Trail
import Provenance.Log.Line

/-! What is logged while the steps of a flow plan are read. -/

namespace Provenance.Log

open Provenance.Flow (Visit Step ComputeStep TransferStep)

/-- A line for each visited state up to the first that cannot be read. -/
def ofVisits (input : Json) (marker : Option String) (position : Nat) : List Visit → List Line
  | [] => []
  | ⟨name, state⟩ :: rest =>
    match state.kind? with
    | none => []
    | some .compute =>
      match ComputeStep.ofState name state input position with
      | .error _ => []
      | .ok step =>
        let count := step.tasks.length
        debug s!"Compute state '{name}' at position {position} with {count} tasks" ::
          ofVisits input marker (position + 1) rest
    | some .transfer =>
      if Flow.isCapture marker name then
        debug s!"Skipping provenance capture transfer '{name}'" ::
          ofVisits input marker position rest
      else
        match TransferStep.ofState name state input with
        | .error _ => []
        | .ok step =>
          let count := step.items.length
          debug s!"Transfer state '{name}' with {count} items" ::
            ofVisits input marker position rest

def ofSteps (plan : Flow.Plan) (steps : List Step) : Line :=
  let count := steps.length
  let computes := (steps.filterMap Step.compute?).length
  let states := plan.size
  info s!"Parsed {count} steps ({computes} compute) from {states} states"

def ofFlow (plan : Flow.Plan) (input : Json) (marker : Option String) : List Line :=
  ofVisits input marker 0 plan.trail.visits ++
    match plan.steps input marker with
    | .ok steps => [ofSteps plan steps]
    | .error _ => []

end Provenance.Log
