import Provenance.Proofs.PlanReading

/-! The steps of a flow plan are its walk. Every plan has a walk that is read to its
end, comes back to a state, or has a first state that cannot be read, and the outcome
tells which. -/

namespace Provenance.Flow

variable {α β : Type} {p : Plan} {input : Json} {marker : Option String} {name : String} {names : List String}

def Acyclic (outcome : Except Failure α) : Prop := ∀ state, outcome ≠ .error (.cycleDetected state)

private theorem Acyclic.ok (value : α) : Acyclic (.ok value) := fun _ => nofun

private theorem Acyclic.bind {first : Except Failure α} {next : α → Except Failure β} (start : Acyclic first)
    (rest : ∀ value, Acyclic (next value)) : Acyclic (first >>= next) := by
  intro state failed
  obtain failed | ⟨value, _, failed⟩ := Outcome.bind_eq_error.1 failed
  · exact start state failed
  · exact rest value state failed

private theorem Acyclic.map {outcome : Except Failure α} (start : Acyclic outcome) (change : α → β) :
    Acyclic (outcome.map change) := by
  intro state failed
  cases outcome with
  | ok value => cases failed
  | error fault => exact start state (by simpa [Except.map] using failed)

private theorem Acyclic.mapM {items : List α} {read : α → Except Failure β} (each : ∀ item, Acyclic (read item)) :
    Acyclic (items.mapM read) := by
  intro state failed
  obtain ⟨item, _, failed⟩ := Outcome.mapM_eq_error.1 failed
  exact each item state failed

namespace Plan

/-- A walk to a terminal state, every state of which can be read. -/
structure Completes (p : Plan) (input : Json) (marker : Option String) (names : List String) : Prop where
  path : p.FullPathFrom p.start names
  distinct : names.Nodup
  readable : ∀ name ∈ names, p.Readable input marker name

/-- A walk of readable states that comes back to one of them, for the first time. -/
def Cycles (p : Plan) (input : Json) (marker : Option String) (state : String) : Prop :=
  ∃ names, p.PathFrom p.start (names ++ [state]) ∧ names.Nodup ∧ state ∈ names ∧
    ∀ name ∈ names, p.Readable input marker name

/-- A walk of readable states up to a new one that is missing or cannot be read. -/
def Fails (p : Plan) (input : Json) (marker : Option String) (fault : Failure) : Prop :=
  ∃ names name, p.PathFrom p.start (names ++ [name]) ∧ (names ++ [name]).Nodup ∧
    (∀ other ∈ names, p.Readable input marker other) ∧
    p.Refuses input marker (names.getLast?.getD "StartAt") name fault

variable {next : String} {before after : List Visit} {trail : Trail}

/-- What a walk visits is a path, also when the walk goes no further. -/
theorem Traced.path_to {seen : List String} {referencedBy : String} {visit : Visit}
    (traced : p.Traced seen referencedBy name trail) (split : trail.visits = before ++ visit :: after) :
    p.PathFrom name (before.map Visit.name ++ [visit.name]) := by
  obtain ⟨later, path⟩ := traced.stops.path
  have visited : trail.visits.map Visit.name ++ later =
      (before.map Visit.name ++ [visit.name]) ++ (after.map Visit.name ++ later) := by simp [split]
  rw [visited] at path
  exact path.of_append (by simp)

private theorem readable_of_visits {visits : List Visit}
    (stored : ∀ visit ∈ visits, p.state? visit.name = some visit.state)
    (readable : ∀ visit ∈ visits, visit.fault? input marker = none) :
    ∀ name ∈ visits.map Visit.name, p.Readable input marker name :=
  List.forall_mem_map.2 fun visit member => ⟨visit.state, stored visit member, readable visit member⟩

/-- Every plan completes its walk, goes round in a cycle or fails. -/
theorem walk_cases (p : Plan) (input : Json) (marker : Option String) :
    (∃ names, p.Completes input marker names) ∨ (∃ state, p.Cycles input marker state) ∨
      ∃ fault, p.Fails input marker fault := by
  have traced := p.trailFrom_traced [] "StartAt" p.start
  change p.Traced [] "StartAt" p.start p.trail at traced
  obtain readable | ⟨before, visit, after, fault, split, readable, faulty⟩ :=
    readable_or_first_fault input marker p.trail.visits
  · have readable := readable_of_visits traced.stored readable
    have stops := traced.stops
    cases ending : p.trail.ending with
    | done =>
      rw [ending] at stops
      exact Or.inl ⟨_, stops, traced.distinct, readable⟩
    | cycle state =>
      rw [ending] at stops
      exact Or.inr (Or.inl ⟨state, _, stops.1, traced.distinct, stops.2.resolve_left List.not_mem_nil, readable⟩)
    | unknown state reference =>
      rw [ending] at stops
      obtain ⟨path, ⟨_, unvisited⟩, absent, rfl⟩ := stops
      exact Or.inr (Or.inr ⟨_, _, state, path, by simpa using traced.distinct.concat unvisited, readable, Or.inl ⟨absent, rfl⟩⟩)
  · -- The walk went on behind the fault, which does not matter for what comes before it.
    have stored := traced.stored
    have distinct := traced.distinct
    rw [split] at stored distinct
    obtain ⟨stored, later⟩ := List.forall_mem_append.1 stored
    refine Or.inr (Or.inr ⟨fault, before.map Visit.name, visit.name, traced.path_to split, ?_,
      readable_of_visits stored readable, Or.inr ⟨visit.state, later visit List.mem_cons_self, faulty⟩⟩)
    exact distinct.sublist (by simp)

private theorem steps_eq (p : Plan) (input : Json) (marker : Option String) :
    p.steps input marker = (do
      let steps ← readVisits input marker 0 p.trail.visits
      p.trail.ending.check
      return steps) := rfl

private theorem trail_along (path : p.PathFrom p.start (names ++ [next])) (distinct : names.Nodup) :
    p.trail = Trail.after (p.visitsTo names) (p.trailFrom names.reverse (names.getLast?.getD "StartAt") next) := by
  have along : p.trailFrom [] "StartAt" p.start = _ := trailFrom_along path distinct fun _ _ => List.not_mem_nil
  rwa [List.append_nil] at along

/-- A name at the end of a walk without repeats is a new one there. -/
private theorem new_at_end (distinct : (names ++ [next]).Nodup) : names.Nodup ∧ next ∉ names.reverse := by
  obtain ⟨distinct, _, apart⟩ := List.nodup_append.1 distinct
  exact ⟨distinct, fun old => apart next (List.mem_reverse.1 old) next (List.mem_singleton_self next) rfl⟩

private theorem stored_visitsTo (p : Plan) (names : List String) :
    ∀ visit ∈ p.visitsTo names, p.state? visit.name = some visit.state := by
  intro visit member
  obtain ⟨name, _, found⟩ := List.mem_filterMap.1 member
  obtain ⟨state, stored, rfl⟩ := Option.map_eq_some_iff.1 found
  exact stored

private theorem readable_visitsTo (readable : ∀ name ∈ names, p.Readable input marker name) :
    ∀ visit ∈ p.visitsTo names, visit.fault? input marker = none := by
  intro visit member
  obtain ⟨name, inside, found⟩ := List.mem_filterMap.1 member
  obtain ⟨state, fine, readable⟩ := readable name inside
  rw [fine] at found
  obtain rfl := Option.some.inj found
  exact readable

private theorem names_visitsTo (readable : ∀ name ∈ names, p.Readable input marker name) :
    (p.visitsTo names).map Visit.name = names := by
  induction names with
  | nil => rfl
  | cons name rest ih =>
    obtain ⟨⟨state, found, _⟩, others⟩ := List.forall_mem_cons.1 readable
    simpa [visitsTo, found] using ih others

theorem Cycles.error {state : String} (cycles : p.Cycles input marker state) :
    p.steps input marker = .error (.cycleDetected state) := by
  obtain ⟨names, path, distinct, again, readable⟩ := cycles
  have trail := trail_along path distinct
  rw [trailFrom_again (List.mem_reverse.2 again)] at trail
  obtain ⟨steps, read⟩ := readVisits_readable 0 (readable_visitsTo readable)
  rw [steps_eq, trail]
  exact Outcome.bind_eq_error.2 (Or.inr ⟨steps, by simpa [Trail.after] using read, rfl⟩)

theorem Fails.error {fault : Failure} (fails : p.Fails input marker fault) :
    p.steps input marker = .error fault := by
  obtain ⟨names, name, path, distinct, readable, refuses⟩ := fails
  obtain ⟨distinct, new⟩ := new_at_end distinct
  have trail := trail_along path distinct
  have readable := readable_visitsTo readable
  obtain ⟨absent, rfl⟩ | ⟨state, found, faulty⟩ := refuses
  · rw [trailFrom_missing new absent] at trail
    obtain ⟨steps, read⟩ := readVisits_readable 0 readable
    rw [steps_eq, trail]
    exact Outcome.bind_eq_error.2 (Or.inr ⟨steps, by simpa [Trail.after] using read, rfl⟩)
  · obtain ⟨after, visited⟩ : ∃ after, p.trail.visits = p.visitsTo names ++ ⟨name, state⟩ :: after := by
      cases follows : state.following? with
      | none =>
        rw [trailFrom_final new found follows] at trail
        exact ⟨[], by rw [trail]; rfl⟩
      | some next =>
        rw [trailFrom_step new found follows] at trail
        exact ⟨_, by rw [trail]; rfl⟩
    have failed : readVisits input marker 0 (p.visitsTo names ++ ⟨name, state⟩ :: after) = .error fault :=
      readVisits_first_fault 0 readable faulty
    rw [steps_eq, visited, failed]
    rfl

private theorem Completes.trail_eq (completes : p.Completes input marker names) :
    p.trail = ⟨p.visitsTo names, .done⟩ := by
  obtain ⟨last, state, final, found, terminal⟩ := completes.path.ends
  obtain ⟨before, rfl⟩ := List.getLast?_eq_some_iff.1 final
  obtain ⟨distinct, new⟩ := new_at_end completes.distinct
  have follows : state.following? = none := by simpa [State.isTerminal] using terminal
  rw [trail_along completes.path.toPathFrom distinct, trailFrom_final new found follows]
  simp [Trail.after, visitsTo, found]

theorem Completes.ok (completes : p.Completes input marker names) :
    ∃ steps, p.steps input marker = .ok steps ∧ p.Represents input marker 0 names steps := by
  obtain ⟨steps, read⟩ := readVisits_readable 0 (readable_visitsTo completes.readable)
  have represents := readVisits_represents (p.stored_visitsTo names) read
  rw [names_visitsTo completes.readable] at represents
  refine ⟨steps, ?_, represents⟩
  rw [steps_eq, completes.trail_eq]
  exact Outcome.bind_eq_ok.2 ⟨steps, read, rfl⟩

theorem steps_ok_iff {steps : List Step} : p.steps input marker = .ok steps ↔
    ∃ names, p.Completes input marker names ∧ p.Represents input marker 0 names steps := by
  constructor
  · intro read
    obtain ⟨names, completes⟩ | ⟨state, cycles⟩ | ⟨fault, fails⟩ := walk_cases p input marker
    · obtain ⟨same, reread, represents⟩ := completes.ok
      cases reread.symm.trans read
      exact ⟨names, completes, represents⟩
    · cases cycles.error.symm.trans read
    · cases fails.error.symm.trans read
  · rintro ⟨names, completes, represents⟩
    obtain ⟨same, read, represented⟩ := completes.ok
    rw [represents.unique represented, read]

theorem Represents.names_nodup {steps : List Step} {first : Nat} (distinct : names.Nodup)
    (represents : p.Represents input marker first names steps) : (steps.map Step.name).Nodup := by
  rw [represents.names]
  exact distinct.filter _

end Plan

end Provenance.Flow
