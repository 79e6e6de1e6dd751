import Provenance.Flow.Step

/-! The walk through a flow plan. The walk itself only looks at names; reading
the states along it is a separate pass, so what a walk visits does not depend
on the flow input. -/

namespace Provenance.Flow

structure Visit where
  name : String
  state : State

inductive Ending where
  | done
  | cycle (state : String)
  | unknown (state referencedBy : String)

def Ending.check : Ending → Except Failure Unit
  | .done => .ok ()
  | .cycle state => .error (.cycleDetected state)
  | .unknown state referencedBy => .error (.unknownState state referencedBy)

structure Trail where
  visits : List Visit
  ending : Ending

def Trail.before (visit : Visit) (trail : Trail) : Trail :=
  { trail with visits := visit :: trail.visits }

namespace Plan

def unseen (p : Plan) (seen : List String) : Nat :=
  p.states.keys.countP fun name => !seen.contains name

private theorem mem_keys_of_state? {p : Plan} {name : String} {state : State}
    (found : p.state? name = some state) : name ∈ p.states.keys :=
  OrderedMap.isSome_get?_iff.1 (Option.isSome_of_eq_some found)

private theorem countP_unseen_le (seen names : List String) (name : String) :
    (names.countP fun other => !(name :: seen).contains other) ≤
      names.countP fun other => !seen.contains other := by
  apply List.countP_mono_left
  simp +contextual

private theorem countP_unseen_lt {seen names : List String} {name : String} (new : name ∉ seen)
    (member : name ∈ names) :
    (names.countP fun other => !(name :: seen).contains other) <
      names.countP fun other => !seen.contains other := by
  induction names with
  | nil => cases member
  | cons head rest ih =>
    simp only [List.countP_cons]
    by_cases same : head = name
    · have gone : (!(name :: seen).contains head) = false := by simp [same]
      have kept : (!seen.contains head) = true := by simp [same, new]
      have wider := countP_unseen_le seen rest name
      simp only [gone, kept, Bool.false_eq_true, if_false, if_true]
      omega
    · have less := ih ((List.mem_cons.1 member).resolve_left (Ne.symm same))
      have alike : (!(name :: seen).contains head) = (!seen.contains head) := by simp [same]
      rw [alike]
      omega

/-- Each new state that a walk visits leaves fewer for the rest of it. -/
private theorem unseen_lt {p : Plan} {seen : List String} {name : String} {state : State}
    (new : name ∉ seen) (found : p.state? name = some state) :
    p.unseen (name :: seen) < p.unseen seen :=
  countP_unseen_lt new (mem_keys_of_state? found)

/-- Walks on from a state. Visited names are never visited again. -/
def trailFrom (p : Plan) (seen : List String) (referencedBy name : String) : Trail :=
  if _new : name ∈ seen then ⟨[], .cycle name⟩
  else
    match _found : p.state? name with
    | none => ⟨[], .unknown name referencedBy⟩
    | some state =>
      match state.following? with
      | none => ⟨[⟨name, state⟩], .done⟩
      | some next => (p.trailFrom (name :: seen) name next).before ⟨name, state⟩
termination_by p.unseen seen
decreasing_by exact unseen_lt _new _found

def trail (p : Plan) : Trail := p.trailFrom [] "StartAt" p.start

end Plan

/-- Whether a transfer only ships a provenance record. -/
def isCapture (marker : Option String) (name : String) : Bool :=
  marker.any fun marker => Text.occurs marker.toList name.toList

/-- Reads visited states in order, from a given number of compute steps on.
Provenance captures are passed over unread. -/
def readVisits (input : Json) (marker : Option String) (position : Nat) :
    List Visit → Except Failure (List Step)
  | [] => .ok []
  | ⟨name, state⟩ :: rest =>
    match state.kind? with
    | none => .error (.unknownActionType name state.action)
    | some .compute => do
      let step ← ComputeStep.ofState name state input position
      let steps ← readVisits input marker (position + 1) rest
      return .compute step :: steps
    | some .transfer =>
      if isCapture marker name then readVisits input marker position rest
      else do
        let step ← TransferStep.ofState name state input
        let steps ← readVisits input marker position rest
        return .transfer step :: steps

/-- The marker of provenance captures unless settings say otherwise. -/
def defaultMarker : String := "provenance"

/-- The steps of a flow plan. A fault in a visited state comes before a fault
in where the walk ends. -/
def Plan.steps (p : Plan) (input : Json) (marker : Option String) : Except Failure (List Step) := do
  let trail := p.trail
  let steps ← readVisits input marker 0 trail.visits
  trail.ending.check
  return steps

end Provenance.Flow
