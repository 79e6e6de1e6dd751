import Provenance.Graph.OfPlan
import Provenance.Proofs.DocumentValidity
import Provenance.Proofs.PlanReading

/-! Only the states that a walk looks up matter. Two plans that hold the same states under
those names are walked alike up to the first fault, so they come to the same outcome. -/

namespace Provenance.Flow

/-- Reads what a walk visits, from a given number of compute steps on. How the walk ends
only counts when all of it can be read. -/
def Trail.steps (input : Json) (marker : Option String) (position : Nat) (trail : Trail) :
    Except Failure (List Step) := do
  let steps ← readVisits input marker position trail.visits
  trail.ending.check
  return steps

variable {p q : Plan} {input : Json} {marker : Option String} {name : String} {seen : List String}

private theorem Trail.steps_before (visit : Visit) (trail : Trail) (position : Nat) :
    (trail.before visit).steps input marker position = (do
      let own ← visit.state.read input marker visit.name position
      let steps ← trail.steps input marker (position + (computes own).length)
      return own ++ steps) := by
  simp only [steps, before, readVisits_cons, bind_assoc, pure_bind]

namespace Plan

/-- The names that are looked up while a plan is read: its start, and behind every state that
can be read the name that this state leads to. A state that is missing or at fault is the last. -/
inductive LooksUp (p : Plan) (input : Json) (marker : Option String) : String → Prop where
  | start : p.LooksUp input marker p.start
  | next {name next : String} (found : p.LooksUp input marker name) (readable : p.Readable input marker name)
    (leads : p.Leads name next) : p.LooksUp input marker next

/-- The same state under every name that the first plan looks up, or none in both. -/
def AgreesWith (p q : Plan) (input : Json) (marker : Option String) : Prop :=
  ∀ name, p.LooksUp input marker name → q.state? name = p.state? name

/-- The two plans have the same steps or the same fault, and so have the documents made of them. -/
structure SameOutcome (p q : Plan) (input : Json) (marker : Option String) : Prop where
  steps : q.steps input marker = p.steps input marker
  documents : ∀ settings : Settings, settings.marker = marker →
    Graph.Document.ofPlan q input settings = Graph.Document.ofPlan p input settings

/-- Both walks are at the same name and look up the same state there. They part only behind a
state that cannot be read, and then neither is read any further. -/
private theorem AgreesWith.trailFrom_steps (agrees : p.AgreesWith q input marker) (referencedBy : String)
    (found : p.LooksUp input marker name) (position : Nat) :
    (q.trailFrom seen referencedBy name).steps input marker position =
      (p.trailFrom seen referencedBy name).steps input marker position := by
  induction seen, referencedBy, name using trailFrom.induct p generalizing position with
  | case1 seen referencedBy name old => rw [trailFrom_again old, trailFrom_again old]
  | case2 seen referencedBy name new absent =>
    rw [trailFrom_missing new absent, trailFrom_missing new ((agrees name found).trans absent)]
  | case3 seen referencedBy name new state stored final =>
    rw [trailFrom_final new stored final, trailFrom_final new ((agrees name found).trans stored) final]
  | case4 seen referencedBy name new state stored next follows ih =>
    rw [trailFrom_step new stored follows, trailFrom_step new ((agrees name found).trans stored) follows,
      Trail.steps_before, Trail.steps_before]
    cases read : state.read input marker name position with
    | error fault => rfl
    | ok own =>
      have readable : p.Readable input marker name :=
        ⟨state, stored, (state.fault?_read position).symm.trans (Outcome.fault?_eq_none.2 ⟨own, read⟩)⟩
      have further := found.next readable ⟨state, stored, follows⟩
      simp only [ih further]

theorem AgreesWith.same_outcome (agrees : p.AgreesWith q input marker) (start : q.start = p.start) :
    p.SameOutcome q input marker := by
  have steps : q.steps input marker = p.steps input marker := by
    change (q.trailFrom [] "StartAt" q.start).steps input marker 0 =
      (p.trailFrom [] "StartAt" p.start).steps input marker 0
    rw [start]
    exact agrees.trailFrom_steps "StartAt" .start 0
  refine ⟨steps, ?_⟩
  rintro settings rfl
  rw [Graph.Document.ofPlan, Graph.Document.ofPlan, steps]

end Plan

/-- What a plan comes to depends on its start and on the states that are looked up from there.
So neither its comment nor the order of its states matters, nor what it holds under other names. -/
theorem looked_up_states_decide (p : Plan) (input : Json) (marker : Option String) :
    (∀ q : Plan, q.start = p.start → p.AgreesWith q input marker → p.SameOutcome q input marker) ∧
    (∀ comment states, states.entries.Perm p.states.entries →
      p.SameOutcome { p with comment, states } input marker) ∧
    ∀ name state, ¬ p.LooksUp input marker name → p.SameOutcome (p.withState name state) input marker := by
  refine ⟨fun q start agrees => agrees.same_outcome start, ?_, ?_⟩
  · intro comment states reordered
    have agrees : p.AgreesWith { p with comment, states } input marker :=
      fun name _ => OrderedMap.get?_perm reordered name
    exact agrees.same_outcome rfl
  · intro name state unknown
    have agrees : p.AgreesWith (p.withState name state) input marker := by
      intro other found
      have apart : name ≠ other := fun same => unknown (same ▸ found)
      exact OrderedMap.get?_insert.trans (if_neg apart)
    exact agrees.same_outcome rfl

/-- The plan that fetches a file, written down from its end and with a state that it never comes to. -/
def backwardFetchPlan : Plan :=
  { comment := some "Fetch and sort", start := "Fetch"
    states := OrderedMap.ofList
      [("Sort", { Graph.idleState none with resultPath := some "$.Sort" }), ("Spare", Graph.idleState (some "Sort")),
        ("Fetch", Graph.movingState "hub" "lab" [("/a", "/b")] (some "Sort"))] }

theorem fetching_backwards_comes_to_the_same :
    Graph.fetchPlan.AgreesWith backwardFetchPlan .null none ∧
      Graph.fetchPlan.SameOutcome backwardFetchPlan .null none ∧
      (Graph.Document.ofPlan backwardFetchPlan .null Graph.plainSettings).toOption.isSome = true := by
  have known : ∀ name, Graph.fetchPlan.LooksUp .null none name → name = "Fetch" ∨ name = "Sort" := by
    intro name found
    induction found with
    | start => exact Or.inl rfl
    | next _ _ leads before =>
      obtain ⟨state, stored, follows⟩ := leads
      rcases before with rfl | rfl
      · cases stored
        exact Or.inr (Option.some.inj follows).symm
      · cases stored
        cases follows
  have agrees : Graph.fetchPlan.AgreesWith backwardFetchPlan .null none := by
    intro name found
    rcases known name found with rfl | rfl <;> rfl
  refine ⟨agrees, (looked_up_states_decide Graph.fetchPlan .null none).1 _ rfl agrees, ?_⟩
  decide +kernel

end Provenance.Flow
