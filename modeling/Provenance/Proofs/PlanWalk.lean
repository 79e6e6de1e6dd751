import Mathlib.Data.List.Chain
import Provenance.Flow.Trail
import Provenance.Proofs.MapEntries
import Provenance.Proofs.Outcomes

/-! The walk through a flow plan, said without the walk's own bookkeeping: a list
of names that starts at the start and goes from each state to the following one. -/

namespace Provenance.Flow

def Trail.after (visits : List Visit) (trail : Trail) : Trail :=
  { trail with visits := visits ++ trail.visits }

namespace Plan

def Leads (p : Plan) (name next : String) : Prop :=
  ∃ state, p.state? name = some state ∧ state.following? = some next

/-- A path from one name on, each name leading to the next. -/
structure PathFrom (p : Plan) (name : String) (names : List String) : Prop where
  starts : names.head? = some name
  leads : names.IsChain p.Leads

structure FullPathFrom (p : Plan) (name : String) (names : List String) : Prop extends p.PathFrom name names where
  ends : ∃ last state, names.getLast? = some last ∧ p.state? last = some state ∧ state.isTerminal = true

variable {p : Plan} {name next : String} {names seen : List String}

theorem PathFrom.single (p : Plan) (name : String) : p.PathFrom name [name] := ⟨rfl, .singleton name⟩

theorem PathFrom.cons (leads : p.Leads name next) (path : p.PathFrom next names) : p.PathFrom name (name :: names) := by
  refine ⟨rfl, List.isChain_cons.2 ⟨fun head first => ?_, path.leads⟩⟩
  rw [path.starts] at first
  obtain rfl := Option.some.inj first
  exact leads

theorem PathFrom.of_append {later : List String} (path : p.PathFrom name (names ++ later)) (some : names ≠ []) :
    p.PathFrom name names := by
  refine ⟨?_, path.leads.left_of_append⟩
  rw [← path.starts, List.head?_append_of_ne_nil _ some]

theorem FullPathFrom.cons (leads : p.Leads name next) (path : p.FullPathFrom next names) :
    p.FullPathFrom name (name :: names) := by
  refine ⟨path.toPathFrom.cons leads, ?_⟩
  obtain ⟨last, state, final, found⟩ := path.ends
  exact ⟨last, state, by rw [List.getLast?_cons, final]; rfl, found⟩

/-- A path to the end is at its end, or goes on to the next name. -/
theorem FullPathFrom.ends_or_leads (path : p.FullPathFrom name names) :
    (names = [name] ∧ ∀ next, ¬ p.Leads name next) ∨
      ∃ next rest, names = name :: rest ∧ p.Leads name next ∧ p.FullPathFrom next rest := by
  obtain ⟨⟨starts, leads⟩, last, state, final, found, terminal⟩ := path
  cases names with
  | nil => cases starts
  | cons head rest =>
    obtain rfl := Option.some.inj starts
    cases rest with
    | nil =>
      obtain rfl := Option.some.inj final
      left
      refine ⟨rfl, ?_⟩
      intro next ⟨other, stored, follows⟩
      cases found.symm.trans stored
      rw [State.isTerminal, follows] at terminal
      cases terminal
    | cons next rest =>
      rw [List.isChain_cons_cons] at leads
      rw [List.getLast?_cons_cons] at final
      exact Or.inr ⟨next, next :: rest, rfl, leads.1, ⟨rfl, leads.2⟩, last, state, final, found, terminal⟩

/-- A state leads to one name at most, so there is only one path to the end. -/
theorem FullPathFrom.unique {others : List String} (path : p.FullPathFrom name names)
    (other : p.FullPathFrom name others) : names = others := by
  induction names generalizing name others with
  | nil => cases path.starts
  | cons head rest ih =>
    rcases path.ends_or_leads with ⟨single, final⟩ | ⟨next, later, same, leads, onward⟩
    · rcases other.ends_or_leads with ⟨alone, _⟩ | ⟨next, _, _, leads, _⟩
      · exact single.trans alone.symm
      · exact absurd leads (final next)
    · rcases other.ends_or_leads with ⟨_, final⟩ | ⟨again, more, split, leads', onward'⟩
      · exact absurd leads (final next)
      · obtain ⟨state, stored, follows⟩ := leads
        obtain ⟨found, known, goes⟩ := leads'
        cases stored.symm.trans known
        cases follows.symm.trans goes
        obtain ⟨rfl, rfl⟩ := List.cons.inj same
        rw [split, ih onward onward']

/-- How a walk along these names ends, when it has been at others before. -/
def Stops (p : Plan) (seen : List String) (referencedBy name : String) (names : List String) : Ending → Prop
  | .done => p.FullPathFrom name names
  | .cycle state => p.PathFrom name (names ++ [state]) ∧ (state ∈ seen ∨ state ∈ names)
  | .unknown state reference => p.PathFrom name (names ++ [state]) ∧ (state ∉ seen ∧ state ∉ names) ∧
      p.state? state = none ∧ names.getLast?.getD referencedBy = reference

theorem Stops.path {ending : Ending} {referencedBy : String} (stops : p.Stops seen referencedBy name names ending) :
    ∃ later, p.PathFrom name (names ++ later) := by
  cases ending with
  | done => exact ⟨[], by simpa using stops.toPathFrom⟩
  | cycle state => exact ⟨[state], stops.1⟩
  | unknown state reference => exact ⟨[state], stops.1⟩

structure Traced (p : Plan) (seen : List String) (referencedBy name : String) (trail : Trail) : Prop where
  distinct : (trail.visits.map Visit.name).Nodup
  fresh : ∀ visit ∈ trail.visits, visit.name ∉ seen
  stored : ∀ visit ∈ trail.visits, p.state? visit.name = some visit.state
  stops : p.Stops seen referencedBy name (trail.visits.map Visit.name) trail.ending

theorem Stops.cons {ending : Ending} {referencedBy : String} (leads : p.Leads name next)
    (stops : p.Stops (name :: seen) name next names ending) :
    p.Stops seen referencedBy name (name :: names) ending := by
  cases ending with
  | done => exact FullPathFrom.cons leads stops
  | cycle state =>
    obtain ⟨path, old⟩ := stops
    refine ⟨path.cons leads, ?_⟩
    rcases old with before | along
    · exact (List.mem_cons.1 before).elim (fun same => Or.inr (same ▸ List.mem_cons_self)) Or.inl
    · exact Or.inr (List.mem_cons_of_mem _ along)
  | unknown state reference =>
    obtain ⟨path, ⟨unseen, unvisited⟩, absent, last⟩ := stops
    simp only [List.mem_cons, not_or] at unseen
    refine ⟨path.cons leads, ⟨unseen.2, ?_⟩, absent, ?_⟩
    · simp only [List.mem_cons, not_or]
      exact ⟨unseen.1, unvisited⟩
    · rw [List.getLast?_cons]
      exact last

private theorem Traced.before {state : State} {trail : Trail} {referencedBy : String} (new : name ∉ seen)
    (found : p.state? name = some state) (follows : state.following? = some next)
    (traced : p.Traced (name :: seen) name next trail) :
    p.Traced seen referencedBy name (trail.before ⟨name, state⟩) := by
  refine ⟨List.nodup_cons.2 ⟨fun member => ?_, traced.distinct⟩, ?_, ?_, traced.stops.cons ⟨state, found, follows⟩⟩
  · obtain ⟨visit, inside, same⟩ := List.mem_map.1 member
    exact traced.fresh visit inside (same ▸ List.mem_cons_self)
  · exact List.forall_mem_cons.2 ⟨new, fun visit later old => traced.fresh visit later (List.mem_cons_of_mem _ old)⟩
  · exact List.forall_mem_cons.2 ⟨found, traced.stored⟩

theorem trailFrom_again {referencedBy : String} (old : name ∈ seen) :
    p.trailFrom seen referencedBy name = ⟨[], .cycle name⟩ := by
  rw [trailFrom, dif_pos old]

theorem trailFrom_missing {referencedBy : String} (new : name ∉ seen) (absent : p.state? name = none) :
    p.trailFrom seen referencedBy name = ⟨[], .unknown name referencedBy⟩ := by
  rw [trailFrom, dif_neg new]
  split
  · rfl
  next found => simp [absent] at found

theorem trailFrom_final {referencedBy : String} {state : State} (new : name ∉ seen)
    (found : p.state? name = some state) (final : state.following? = none) :
    p.trailFrom seen referencedBy name = ⟨[⟨name, state⟩], .done⟩ := by
  rw [trailFrom, dif_neg new]
  split
  next absent => simp [found] at absent
  next stored =>
    obtain rfl := Option.some.inj (found.symm.trans stored)
    simp [final]

theorem trailFrom_step {referencedBy : String} {state : State} (new : name ∉ seen)
    (found : p.state? name = some state) (follows : state.following? = some next) :
    p.trailFrom seen referencedBy name = (p.trailFrom (name :: seen) name next).before ⟨name, state⟩ := by
  rw [trailFrom, dif_neg new]
  split
  next absent => simp [found] at absent
  next stored =>
    obtain rfl := Option.some.inj (found.symm.trans stored)
    simp [follows]

theorem trailFrom_traced (p : Plan) (seen : List String) (referencedBy name : String) :
    p.Traced seen referencedBy name (p.trailFrom seen referencedBy name) := by
  induction seen, referencedBy, name using trailFrom.induct p with
  | case1 seen referencedBy name old =>
    rw [trailFrom_again old]
    exact ⟨List.nodup_nil, by simp, by simp, PathFrom.single p name, Or.inl old⟩
  | case2 seen referencedBy name new absent =>
    rw [trailFrom_missing new absent]
    exact ⟨List.nodup_nil, by simp, by simp, PathFrom.single p name, ⟨new, by simp⟩, absent, rfl⟩
  | case3 seen referencedBy name new state found final =>
    rw [trailFrom_final new found final]
    refine ⟨List.nodup_singleton _, by simpa using new, by simpa using found, PathFrom.single p name, ?_⟩
    exact ⟨name, state, rfl, found, by simp [State.isTerminal, final]⟩
  | case4 seen referencedBy name new state found next follows ih =>
    rw [trailFrom_step new found follows]
    exact ih.before new found follows

def visitsTo (p : Plan) (names : List String) : List Visit :=
  names.filterMap fun name => (p.state? name).map (Visit.mk name)

/-- A walk takes every path of new names that is open to it. -/
theorem trailFrom_along {referencedBy : String} (path : p.PathFrom name (names ++ [next])) (distinct : names.Nodup)
    (fresh : ∀ other ∈ names, other ∉ seen) :
    p.trailFrom seen referencedBy name = Trail.after (p.visitsTo names)
      (p.trailFrom (names.reverse ++ seen) (names.getLast?.getD referencedBy) next) := by
  induction names generalizing seen referencedBy name with
  | nil =>
    obtain rfl : next = name := by simpa using path.starts
    rfl
  | cons head rest ih =>
    obtain rfl : head = name := by simpa using path.starts
    obtain ⟨leads, chain⟩ := List.isChain_cons.1 path.leads
    obtain ⟨new, others⟩ := List.forall_mem_cons.1 fresh
    obtain ⟨apart, distinct⟩ := List.nodup_cons.1 distinct
    obtain ⟨second, first⟩ : ∃ second, (rest ++ [next]).head? = some second := by
      cases rest <;> simp
    obtain ⟨state, found, follows⟩ := leads second first
    have fresh : ∀ other ∈ rest, other ∉ head :: seen := by
      intro other member
      simp only [List.mem_cons, not_or]
      exact ⟨fun same => apart (same ▸ member), others other member⟩
    rw [trailFrom_step new found follows, ih ⟨first, chain⟩ distinct fresh]
    simp [Trail.before, Trail.after, visitsTo, found, List.getLast?_cons]

end Plan

end Provenance.Flow
