import Mathlib.Data.List.Infix
import Provenance.Proofs.PlanWalk

/-! Reading the states of a walk, one after the other until one cannot be read. The
steps stand for the visited names in their order, without the captures. -/

namespace Provenance

theorem Text.occurs_iff {needle text : List Char} : occurs needle text = true ↔ needle <:+: text := by
  induction text with
  | nil => simp [occurs]
  | cons head rest ih => simp [occurs, ih, List.infix_cons_iff]

namespace Flow

/-- The steps that one state reads as: none for a capture, else one. -/
def State.read (state : State) (input : Json) (marker : Option String) (name : String) (position : Nat) :
    Except Failure (List Step) :=
  match state.kind? with
  | none => .error (.unknownActionType name state.action)
  | some .compute => (ComputeStep.ofState name state input position).map fun step => [.compute step]
  | some .transfer =>
    if isCapture marker name then .ok [] else (TransferStep.ofState name state input).map fun step => [.transfer step]

def State.fault? (state : State) (input : Json) (marker : Option String) (name : String) : Option Failure :=
  Outcome.fault? (state.read input marker name 0)

def computes (steps : List Step) : List ComputeStep := steps.filterMap Step.compute?

theorem computes_append (before after : List Step) : computes (before ++ after) = computes before ++ computes after :=
  List.filterMap_append

theorem computes_names_sublist (steps : List Step) :
    ((computes steps).map ComputeStep.name).Sublist (steps.map Step.name) := by
  induction steps with
  | nil => exact .slnil
  | cons step rest ih =>
    cases step with
    | compute step => exact ih.cons_cons _
    | transfer step => exact ih.cons _

namespace Plan

def Readable (p : Plan) (input : Json) (marker : Option String) (name : String) : Prop :=
  ∃ state, p.state? name = some state ∧ state.fault? input marker name = none

/-- The state of a name is missing or cannot be read, for this reason. -/
def Refuses (p : Plan) (input : Json) (marker : Option String) (referencedBy name : String) (fault : Failure) : Prop :=
  (p.state? name = none ∧ fault = .unknownState name referencedBy) ∨
    ∃ state, p.state? name = some state ∧ state.fault? input marker name = some fault

/-- A transfer is passed over when its name contains the marker. -/
def skips (p : Plan) (marker : Option String) (name : String) : Bool :=
  (p.state? name).any fun state => state.kind? = some .transfer &&
    marker.any fun mark => decide (mark.toList <:+: name.toList)

def Yields (p : Plan) (input : Json) : Step → Prop
  | .compute step => ∃ state, p.state? step.name = some state ∧ state.kind? = some .compute ∧
      ComputeStep.ofState step.name state input step.position = .ok step
  | .transfer step => ∃ state, p.state? step.name = some state ∧ state.kind? = some .transfer ∧
      TransferStep.ofState step.name state input = .ok step

/-- The steps stand for these names, and their compute steps are counted from a
first position on. -/
structure Represents (p : Plan) (input : Json) (marker : Option String) (first : Nat)
    (names : List String) (steps : List Step) : Prop where
  names : steps.map Step.name = names.filter fun name => !p.skips marker name
  positions : (computes steps).map ComputeStep.position = List.range' first (computes steps).length
  yields : ∀ step ∈ steps, p.Yields input step

end Plan

variable {p : Plan} {input : Json} {marker : Option String} {name : String} {state : State}

theorem isCapture_eq (marker : Option String) (name : String) :
    isCapture marker name = marker.any fun mark => decide (mark.toList <:+: name.toList) := by
  cases marker with
  | none => rfl
  | some mark => exact Bool.eq_iff_iff.2 (by simp [isCapture, Text.occurs_iff])

theorem ComputeStep.ofState_position (name : String) (state : State) (input : Json) (position : Nat) :
    ofState name state input position =
      (ofState name state input 0).map fun step => { step with position := position } := by
  unfold ofState
  cases objectList name state.parameters.entries "tasks" input _ <;> rfl

theorem ComputeStep.ofState_name {position : Nat} {step : ComputeStep}
    (read : ofState name state input position = .ok step) : step.name = name ∧ step.position = position := by
  obtain ⟨tasks, _, same⟩ := Outcome.bind_eq_ok.1 read
  cases same
  exact ⟨rfl, rfl⟩

theorem TransferStep.ofState_name {step : TransferStep}
    (read : ofState name state input = .ok step) : step.name = name := by
  obtain ⟨_, _, read⟩ := Outcome.bind_eq_ok.1 read
  obtain ⟨_, _, read⟩ := Outcome.bind_eq_ok.1 read
  obtain ⟨_, _, same⟩ := Outcome.bind_eq_ok.1 read
  cases same
  rfl

/-- Whether a state can be read does not depend on the steps before it. -/
theorem State.fault?_read (state : State) (position : Nat) :
    Outcome.fault? (state.read input marker name position) = state.fault? input marker name := by
  unfold fault? read
  cases state.kind? with
  | none => rfl
  | some kind =>
    cases kind with
    | transfer => rfl
    | compute =>
      simp only [ComputeStep.ofState_position name state input position]
      cases ComputeStep.ofState name state input 0 <;> rfl

private theorem State.read_represents {position : Nat} {own : List Step} (found : p.state? name = some state)
    (read : state.read input marker name position = .ok own) : p.Represents input marker position [name] own := by
  unfold State.read at read
  cases kind : state.kind? with
  | none => simp [kind] at read
  | some action =>
    cases action with
    | compute =>
      have kept : p.skips marker name = false := by simp [Plan.skips, found, kind]
      cases outcome : ComputeStep.ofState name state input position with
      | error fault => simp [kind, outcome, Except.map] at read
      | ok step =>
        obtain rfl : [Step.compute step] = own := by simpa [kind, outcome, Except.map] using read
        obtain ⟨rfl, rfl⟩ := ComputeStep.ofState_name outcome
        refine ⟨by simp [Step.name, kept], by simp [computes, Step.compute?], ?_⟩
        simpa using ⟨state, found, kind, outcome⟩
    | transfer =>
      have same : p.skips marker name = isCapture marker name := by simp [Plan.skips, found, kind, isCapture_eq]
      by_cases capture : isCapture marker name = true
      · obtain rfl : [] = own := by simpa [kind, capture] using read
        exact ⟨by simp [same, capture], by simp [computes], by simp⟩
      · cases outcome : TransferStep.ofState name state input with
        | error fault => simp [kind, capture, outcome, Except.map] at read
        | ok step =>
          obtain rfl : [Step.transfer step] = own := by simpa [kind, capture, outcome, Except.map] using read
          obtain rfl := TransferStep.ofState_name outcome
          refine ⟨by simp [Step.name, same, capture], rfl, ?_⟩
          simpa using ⟨state, found, kind, outcome⟩

variable {position : Nat} {names others : List String} {steps later own : List Step} {visits before : List Visit}

namespace Plan

theorem Represents.append (represents : p.Represents input marker position names steps)
    (rest : p.Represents input marker (position + (computes steps).length) others later) :
    p.Represents input marker position (names ++ others) (steps ++ later) := by
  refine ⟨?_, ?_, ?_⟩
  · rw [List.map_append, List.filter_append, represents.names, rest.names]
  · rw [computes_append, List.map_append, represents.positions, rest.positions, List.range'_append_1, List.length_append]
  · exact List.forall_mem_append.2 ⟨represents.yields, rest.yields⟩

theorem Yields.unique {step other : Step} (yields : p.Yields input step) (others : p.Yields input other)
    (named : step.name = other.name)
    (placed : step.compute?.map ComputeStep.position = other.compute?.map ComputeStep.position) : step = other := by
  cases step with
  | compute step =>
    cases other with
    | transfer other => cases placed
    | compute other =>
      obtain ⟨state, found, _, read⟩ := yields
      obtain ⟨same, stored, _, reread⟩ := others
      change step.name = other.name at named
      have placed : step.position = other.position := by simpa [Step.compute?] using placed
      rw [named] at found read
      rw [placed] at read
      cases found.symm.trans stored
      cases read.symm.trans reread
      rfl
  | transfer step =>
    cases other with
    | compute other => cases placed
    | transfer other =>
      obtain ⟨state, found, _, read⟩ := yields
      obtain ⟨same, stored, _, reread⟩ := others
      change step.name = other.name at named
      rw [named] at found read
      cases found.symm.trans stored
      cases read.symm.trans reread
      rfl

private theorem Yields.compute?_isSome {step other : Step} (yields : p.Yields input step)
    (others : p.Yields input other)
    (named : step.name = other.name) : step.compute?.isSome = other.compute?.isSome := by
  have action : ∀ {step : Step}, p.Yields input step →
      step.compute?.isSome = ((p.state? step.name).bind State.kind? == some .compute) := by
    intro step yields
    cases step with
    | compute step =>
      obtain ⟨state, found, kind, _⟩ := yields
      simp [Step.compute?, Step.name, found, kind]
    | transfer step =>
      obtain ⟨state, found, kind, _⟩ := yields
      simp [Step.compute?, Step.name, found, kind]
  rw [action yields, action others, named]

theorem Represents.unique (represents : p.Represents input marker position names steps)
    (represented : p.Represents input marker position names later) : steps = later := by
  -- Names fix the steps but for the positions, and those are counted along both lists at once.
  have named := represents.names.trans represented.names.symm
  obtain ⟨-, counted, yields⟩ := represents
  obtain ⟨-, recounted, others⟩ := represented
  induction steps generalizing later position with
  | nil => exact (List.map_eq_nil_iff.1 named.symm).symm
  | cons step rest ih =>
    cases later with
    | nil => cases named
    | cons other more =>
      obtain ⟨same, named⟩ := List.cons.inj named
      obtain ⟨first, yields⟩ := List.forall_mem_cons.1 yields
      obtain ⟨second, others⟩ := List.forall_mem_cons.1 others
      have kind := first.compute?_isSome second same
      cases mine : step.compute? with
      | none =>
        have theirs : other.compute? = none := by simpa [mine] using kind
        have equal := first.unique second same (by rw [mine, theirs])
        simp only [computes, List.filterMap_cons, mine, theirs] at counted recounted
        rw [equal, ih named counted yields recounted others]
      | some one =>
        obtain ⟨another, theirs⟩ := Option.isSome_iff_exists.1 (kind.symm.trans (by rw [mine]; rfl))
        simp only [computes, List.filterMap_cons, mine, theirs, List.map_cons, List.length_cons, List.range'_succ,
          List.cons.injEq] at counted recounted
        have equal := first.unique second same (by simp [mine, theirs, counted.1, recounted.1])
        rw [equal, ih named counted.2 yields recounted.2 others]

end Plan

theorem readVisits_cons (visit : Visit) (visits : List Visit) :
    readVisits input marker position (visit :: visits) = (do
      let own ← visit.state.read input marker visit.name position
      let steps ← readVisits input marker (position + (computes own).length) visits
      return own ++ steps) := by
  obtain ⟨name, state⟩ := visit
  rw [readVisits]
  unfold State.read
  cases state.kind? with
  | none => rfl
  | some kind =>
    cases kind with
    | compute => cases ComputeStep.ofState name state input position <;> rfl
    | transfer =>
      by_cases capture : isCapture marker name = true
      · simp only [capture, if_true]
        cases outcome : readVisits input marker position visits <;>
          simp [bind, Except.bind, pure, Except.pure, computes, outcome]
      · simp only [capture]
        cases TransferStep.ofState name state input <;> rfl

def Visit.fault? (input : Json) (marker : Option String) (visit : Visit) : Option Failure :=
  visit.state.fault? input marker visit.name

/-- Every state visited is readable, or one is the first that is not. -/
theorem readable_or_first_fault (input : Json) (marker : Option String) (visits : List Visit) :
    (∀ visit ∈ visits, visit.fault? input marker = none) ∨ ∃ before visit after fault,
      visits = before ++ visit :: after ∧ (∀ other ∈ before, other.fault? input marker = none) ∧
      visit.fault? input marker = some fault := by
  cases found : visits.find? fun visit => (visit.fault? input marker).isSome with
  | none => exact Or.inl fun visit member => by simpa using List.find?_eq_none.1 found visit member
  | some visit =>
    obtain ⟨faulty, before, after, split, readable⟩ := List.find?_eq_some_iff_append.1 found
    obtain ⟨fault, faulty⟩ := Option.isSome_iff_exists.1 faulty
    exact Or.inr ⟨before, visit, after, fault, split, fun other member => by simpa using readable other member, faulty⟩

theorem readVisits_readable (position : Nat) (readable : ∀ visit ∈ visits, visit.fault? input marker = none) :
    ∃ steps, readVisits input marker position visits = .ok steps := by
  induction visits generalizing position with
  | nil => exact ⟨[], rfl⟩
  | cons visit rest ih =>
    obtain ⟨first, others⟩ := List.forall_mem_cons.1 readable
    obtain ⟨own, read⟩ := Outcome.fault?_eq_none.1 ((visit.state.fault?_read position).trans first)
    obtain ⟨steps, later⟩ := ih (position + (computes own).length) others
    refine ⟨own ++ steps, ?_⟩
    rw [readVisits_cons]
    exact Outcome.bind_eq_ok.2 ⟨own, read, Outcome.bind_eq_ok.2 ⟨steps, later, rfl⟩⟩

theorem readVisits_first_fault {visit : Visit} {after : List Visit} {fault : Failure} (position : Nat)
    (readable : ∀ other ∈ before, other.fault? input marker = none) (faulty : visit.fault? input marker = some fault) :
    readVisits input marker position (before ++ visit :: after) = .error fault := by
  induction before generalizing position with
  | nil =>
    have read := Outcome.fault?_eq_some.1 ((visit.state.fault?_read position).trans faulty)
    rw [List.nil_append, readVisits_cons, read]
    rfl
  | cons first rest ih =>
    obtain ⟨fine, others⟩ := List.forall_mem_cons.1 readable
    obtain ⟨own, read⟩ := Outcome.fault?_eq_none.1 ((first.state.fault?_read position).trans fine)
    rw [List.cons_append, readVisits_cons]
    exact Outcome.bind_eq_error.2 (Or.inr ⟨own, read, Outcome.bind_eq_error.2 (Or.inl (ih _ others))⟩)

theorem readVisits_represents (stored : ∀ visit ∈ visits, p.state? visit.name = some visit.state)
    (read : readVisits input marker position visits = .ok steps) :
    p.Represents input marker position (visits.map Visit.name) steps := by
  induction visits generalizing position steps with
  | nil =>
    cases read
    exact ⟨rfl, rfl, by simp⟩
  | cons visit rest ih =>
    obtain ⟨found, others⟩ := List.forall_mem_cons.1 stored
    rw [readVisits_cons] at read
    obtain ⟨own, first, remaining⟩ := Outcome.bind_eq_ok.1 read
    obtain ⟨later, rest, same⟩ := Outcome.bind_eq_ok.1 remaining
    cases same
    exact (State.read_represents found first).append (ih others rest)

end Flow

end Provenance
