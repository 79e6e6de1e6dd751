import Provenance.Graph.Draft
import Provenance.Proofs.MapEntries

/-! Drafts site by site. Changing one site leaves the others alone, and every way
of extending a draft keeps it wired: a connection ends in a port of the site it
is attached to, and starts in a port from which data leaves. -/

namespace Provenance.Graph

/-- The ports through which data enters the rest of the flow from a site. -/
def Site.sources : Site → Part → List Port
  | .orchestrator, part => part.inputs
  | .step _, part => part.outputs

/-- The ports through which a site takes data from the rest of the flow. -/
def Site.targets : Site → Part → List Port
  | .orchestrator, part => part.outputs
  | .step _, part => part.inputs

theorem names_addPort (ports : List Port) (port : Port) : (addPort ports port).map Port.name =
    if port.name ∈ ports.map Port.name then ports.map Port.name else ports.map Port.name ++ [port.name] := by
  have known : (ports.any fun known => known.name = port.name) = true ↔ port.name ∈ ports.map Port.name := by
    simp only [List.any_eq_true, decide_eq_true_eq, List.mem_map]
  simp only [addPort, known]
  split
  · rfl
  · exact List.map_append

theorem mem_names_addPort {ports : List Port} {port : Port} {name : String} :
    name ∈ (addPort ports port).map Port.name ↔ name ∈ ports.map Port.name ∨ name = port.name := by
  rw [names_addPort]
  split
  next known =>
    constructor
    · exact Or.inl
    · intro either
      exact either.elim id fun same => same ▸ known
  next => rw [List.mem_append, List.mem_singleton]

private theorem Part.connections_connect (p : Part) (source target : String) :
    (p.connect source target).connections =
      if Connection.mk source target ∈ p.connections then p.connections
      else p.connections ++ [Connection.mk source target] := by
  simp only [Part.connect, List.contains_eq_mem, decide_eq_true_eq]
  split <;> rfl

namespace Draft

/-- The part at a site. A step that the draft does not have yet has nothing. -/
def part (d : Draft) : Site → Part
  | .orchestrator => d.workflow
  | .step name => (d.steps.get? name).getD {}

theorem part_alter {d : Draft} {site other : Site} {change : Part → Part} :
    (d.alter site change).part other = if site = other then change (d.part site) else d.part other := by
  cases site with
  | orchestrator => cases other <;> simp [alter, part]
  | step name =>
    cases other with
    | orchestrator => simp [alter, part]
    | step asked =>
      simp only [alter, part, OrderedMap.get?_alter, Site.step.injEq]
      split <;> rfl

/-- Data can leave some site under this name. -/
def Offers (d : Draft) (name : String) : Prop :=
  ∃ site : Site, name ∈ (site.sources (d.part site)).map Port.name

def Takes (d : Draft) (site : Site) (name : String) : Prop :=
  name ∈ (site.targets (d.part site)).map Port.name

structure Wired (d : Draft) : Prop where
  target : ∀ site, ∀ connection ∈ (d.part site).connections, d.Takes site connection.target
  source : ∀ site, ∀ connection ∈ (d.part site).connections, d.Offers connection.source

variable {d : Draft} {site other : Site} {port : Port} {name source : String}

@[simp] theorem sources_addSource : other.sources ((d.addSource site port).part other) =
    if site = other then addPort (site.sources (d.part site)) port else other.sources (d.part other) := by
  rw [addSource, part_alter]
  split
  next same => subst same; cases site <;> rfl
  next => rfl

@[simp] theorem targets_addSource :
    other.targets ((d.addSource site port).part other) = other.targets (d.part other) := by
  rw [addSource, part_alter]
  split
  next same => subst same; cases site <;> rfl
  next => rfl

@[simp] theorem connections_addSource :
    ((d.addSource site port).part other).connections = (d.part other).connections := by
  rw [addSource, part_alter]
  split
  next same => subst same; cases site <;> rfl
  next => rfl

theorem offers_addSource : (d.addSource site port).Offers name ↔ d.Offers name ∨ name = port.name := by
  simp only [Offers, sources_addSource]
  constructor
  · rintro ⟨other, member⟩
    split at member
    · exact (mem_names_addPort.1 member).imp_left fun old => ⟨site, old⟩
    · exact Or.inl ⟨other, member⟩
  · rintro (⟨other, member⟩ | rfl)
    · refine ⟨other, ?_⟩
      split
      next same => subst same; exact mem_names_addPort.2 (Or.inl member)
      next => exact member
    · exact ⟨site, by simpa using mem_names_addPort.2 (Or.inr rfl)⟩

theorem Wired.addSource (wired : d.Wired) (site : Site) (port : Port) : (d.addSource site port).Wired := by
  refine ⟨fun other connection member => ?_, fun other connection member => ?_⟩
  · rw [connections_addSource] at member
    simpa [Takes] using wired.target other connection member
  · rw [connections_addSource] at member
    exact offers_addSource.2 (Or.inl (wired.source other connection member))

@[simp] theorem sources_connectTo :
    other.sources ((d.connectTo site source port).part other) = other.sources (d.part other) := by
  rw [connectTo, part_alter]
  by_cases same : site = other
  · subst same
    rw [if_pos rfl, addTarget, part_alter, if_pos rfl]
    cases site <;> simp only [Site.sources, Part.connect] <;> split <;> rfl
  · rw [if_neg same, addTarget, part_alter, if_neg same]

@[simp] theorem targets_connectTo : other.targets ((d.connectTo site source port).part other) =
    if site = other then addPort (site.targets (d.part site)) port else other.targets (d.part other) := by
  rw [connectTo, part_alter]
  by_cases same : site = other
  · subst same
    rw [if_pos rfl, if_pos rfl, addTarget, part_alter, if_pos rfl]
    cases site <;> simp only [Site.targets, Part.connect] <;> split <;> rfl
  · rw [if_neg same, if_neg same, addTarget, part_alter, if_neg same]

theorem connections_connectTo : ((d.connectTo site source port).part other).connections =
    if site = other ∧ Connection.mk source port.name ∉ (d.part site).connections then
      (d.part site).connections ++ [Connection.mk source port.name]
    else (d.part other).connections := by
  rw [connectTo, part_alter]
  by_cases same : site = other
  · subst same
    have kept : ((d.addTarget site port).part site).connections = (d.part site).connections := by
      rw [addTarget, part_alter, if_pos rfl]
      cases site <;> rfl
    rw [if_pos rfl, Part.connections_connect, kept]
    by_cases old : Connection.mk source port.name ∈ (d.part site).connections <;> simp [old]
  · rw [if_neg same, addTarget, part_alter, if_neg same]
    simp [same]

/-- A connection whose source is offered can be made anywhere. -/
theorem Wired.connectTo (wired : d.Wired) (offered : d.Offers source) : (d.connectTo site source port).Wired := by
  have takes : ∀ other name, d.Takes other name → (d.connectTo site source port).Takes other name := by
    intro other name taken
    simp only [Takes, targets_connectTo]
    split
    next same => subst same; exact mem_names_addPort.2 (Or.inl taken)
    next => exact taken
  have offers : ∀ name, d.Offers name → (d.connectTo site source port).Offers name := by
    rintro name ⟨other, member⟩
    exact ⟨other, by simpa using member⟩
  refine ⟨fun other connection member => ?_, fun other connection member => ?_⟩
  · rw [connections_connectTo] at member
    split at member
    next fresh =>
      obtain ⟨rfl, _⟩ := fresh
      rcases List.mem_append.1 member with old | last
      · exact takes _ _ (wired.target _ connection old)
      · obtain rfl := List.mem_singleton.1 last
        simp only [Takes, targets_connectTo, if_true]
        exact mem_names_addPort.2 (Or.inr rfl)
    next => exact takes other _ (wired.target other connection member)
  · rw [connections_connectTo] at member
    split at member
    next fresh =>
      rcases List.mem_append.1 member with old | last
      · exact offers _ (wired.source site connection old)
      · obtain rfl := List.mem_singleton.1 last
        exact offers _ offered
    next => exact offers _ (wired.source other connection member)

theorem offers_connectTo : (d.connectTo site source port).Offers name ↔ d.Offers name := by
  simp [Offers]

theorem Wired.of_unconnected (none : ∀ site, (d.part site).connections = []) : d.Wired :=
  ⟨fun site connection member => by simp [none site] at member,
    fun site connection member => by simp [none site] at member⟩

end Draft

end Provenance.Graph
