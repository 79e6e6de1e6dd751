import Provenance.Proofs.DocumentValidity
import Provenance.Proofs.PlanReading

/-! A marker only filters. The walk through a plan does not know it, and a state is read
alike under two markers unless one of them passes over it. -/

namespace Provenance.Flow

/-- What the second marker marks the first one marks, too: it occurs in the second, or
nothing is marked there. -/
inductive Covers : Option String → Option String → Prop where
  | all (marker : Option String) : Covers marker none
  | part {short long : String} (inside : short.toList <:+: long.toList) : Covers (some short) (some long)

/-- A transfer whose name contains the marker. Compute steps are never marked. -/
def Step.marked (marker : Option String) : Step → Bool
  | .compute _ => false
  | .transfer step => marker.any fun mark => decide (mark.toList <:+: step.name.toList)

/-- The steps that a marker leaves. -/
def unmarked (marker : Option String) (steps : List Step) : List Step :=
  steps.filter fun step => !step.marked marker

variable {marker other : Option String} {input : Json} {name : String} {state : State} {position : Nat}
  {steps own : List Step} {visits : List Visit}

private theorem Covers.capture (covers : Covers marker other) (capture : isCapture other name = true) :
    isCapture marker name = true := by
  cases covers with
  | all => cases capture
  | part inside =>
    rw [isCapture_eq] at capture ⊢
    have found := of_decide_eq_true capture
    exact decide_eq_true (inside.trans found)

private theorem marked_transfer (marker : Option String) (step : TransferStep) :
    (Step.transfer step).marked marker = isCapture marker step.name :=
  (isCapture_eq marker step.name).symm

/-- Only transfers are filtered, so compute steps are counted as before. -/
theorem computes_unmarked (marker : Option String) (steps : List Step) :
    computes (unmarked marker steps) = computes steps := by
  induction steps with
  | nil => rfl
  | cons step rest ih =>
    cases step with
    | compute step => exact congrArg (step :: ·) ih
    | transfer step =>
      rw [unmarked, List.filter_cons]
      split
      · exact ih
      · exact ih

private theorem State.read_unmarked (covers : Covers marker other)
    (read : state.read input other name position = .ok own) :
    state.read input marker name position = .ok (unmarked marker own) := by
  unfold State.read at read ⊢
  cases kind : state.kind? with
  | none => simp [kind] at read
  | some action =>
    cases action with
    | compute =>
      cases outcome : ComputeStep.ofState name state input position with
      | error fault => simp [kind, outcome, Except.map] at read
      | ok step =>
        obtain rfl : [Step.compute step] = own := by simpa [kind, outcome, Except.map] using read
        rfl
    | transfer =>
      dsimp only
      by_cases passed : isCapture other name = true
      · obtain rfl : [] = own := by simpa [kind, passed] using read
        exact if_pos (covers.capture passed)
      · cases outcome : TransferStep.ofState name state input with
        | error fault => simp [kind, passed, outcome, Except.map] at read
        | ok step =>
          obtain rfl : [Step.transfer step] = own := by simpa [kind, passed, outcome, Except.map] using read
          have named := TransferStep.ofState_name outcome
          by_cases capture : isCapture marker name = true
          · simp [unmarked, marked_transfer, named, capture]
          · simp [unmarked, marked_transfer, named, capture, Except.map]

/-- Both markers count the same compute steps in a state, so the states after it are read
at the same position. -/
private theorem readVisits_unmarked (covers : Covers marker other)
    (read : readVisits input other position visits = .ok steps) :
    readVisits input marker position visits = .ok (unmarked marker steps) := by
  induction visits generalizing position steps with
  | nil =>
    cases read
    rfl
  | cons visit rest ih =>
    rw [readVisits_cons] at read ⊢
    obtain ⟨own, first, remaining⟩ := Outcome.bind_eq_ok.1 read
    obtain ⟨later, rest, same⟩ := Outcome.bind_eq_ok.1 remaining
    cases same
    refine Outcome.bind_eq_ok.2 ⟨_, State.read_unmarked covers first, ?_⟩
    rw [computes_unmarked]
    refine Outcome.bind_eq_ok.2 ⟨_, ih rest, ?_⟩
    exact congrArg Except.ok (List.filter_append _ _).symm

/-- A plan that can be read under a marker can be read under every marker that covers it. The
steps are then those read before, without the transfers whose names contain the new marker. -/
theorem covering_markers_filter (p : Plan) (input : Json) (marker other : Option String) (covers : Covers marker other)
    (steps : List Step) (read : p.steps input other = .ok steps) :
    p.steps input marker = .ok (unmarked marker steps) ∧ computes (unmarked marker steps) = computes steps := by
  refine ⟨?_, computes_unmarked marker steps⟩
  obtain ⟨visited, first, remaining⟩ := Outcome.bind_eq_ok.1 read
  obtain ⟨ended, final, same⟩ := Outcome.bind_eq_ok.1 remaining
  cases same
  exact Outcome.bind_eq_ok.2 ⟨_, readVisits_unmarked covers first, Outcome.bind_eq_ok.2 ⟨ended, final, rfl⟩⟩

/-- Two files are fetched under names that contain the default marker, one of them also a longer one. -/
def recordPlan : Plan :=
  { start := "Transfer_provenance_raw"
    states := OrderedMap.ofList
      [("Transfer_provenance_raw", Graph.movingState "hub" "lab" [("/a", "/b")] (some "Sort")),
        ("Sort", Graph.idleState (some "Transfer_provenance")),
        ("Transfer_provenance", Graph.movingState "lab" "hub" [("/c", "/d")] none)] }

theorem shorter_marker_leaves_the_sort : ∃ steps, recordPlan.steps .null (some "provenance_raw") = .ok steps ∧
    steps.map Step.name = ["Sort", "Transfer_provenance"] ∧
    recordPlan.steps .null (some defaultMarker) = .ok (unmarked (some defaultMarker) steps) ∧
    (unmarked (some defaultMarker) steps).map Step.name = ["Sort"] := by
  have covers : Covers (some defaultMarker) (some "provenance_raw") := .part (by decide)
  have names : ((recordPlan.steps .null (some "provenance_raw")).toOption.map fun steps =>
      (steps.map Step.name, (unmarked (some defaultMarker) steps).map Step.name)) =
      some (["Sort", "Transfer_provenance"], ["Sort"]) := by decide +kernel
  obtain ⟨steps, read, names⟩ := Option.map_eq_some_iff.1 names
  obtain ⟨long, short⟩ := Prod.mk.inj names
  have read := Outcome.toOption_eq_some.1 read
  exact ⟨steps, read, long, (covering_markers_filter _ _ _ _ covers steps read).1, short⟩

end Provenance.Flow
