import Provenance.Proofs.DocumentPorts

/-! The ports of a flow. A draft has a port for every path that a transfer moves from or
to and for every path that a step writes its result to, at the site of the path, and it
has no other ports. -/

namespace Provenance.Graph

open Provenance.Flow (ComputeStep Step TransferItem computes computes_append)

/-- A path as it stands in the name of a port. -/
def trimmed (path : String) : String := String.ofList (path.toList.dropWhile (· = '/'))

theorem Site.portName_eq (site : Site) (path : String) : site.portName path = site.name ++ "/" ++ trimmed path := rfl

/-- The path inside a step that the step writes its result to. -/
def resultPaths (step : ComputeStep) : List (Site × String) :=
  step.resultPath.toList.map fun path =>
    (.step step.name, String.ofList (Text.dropLeadingPairs '$' '.' path.toList))

def itemPaths (source destination : Site) (item : TransferItem) : List (Site × String) :=
  [(source, item.sourcePath.text), (destination, item.destinationPath.text)]

def Hop.paths (settings : Settings) (hop : Hop) : List (Site × String) :=
  match hop.source? settings, hop.destination? settings with
  | some source, some destination => hop.transfer.items.flatMap (itemPaths source destination)
  | _, _ => []

/-- The paths that some steps use, when others have run before, each with its site. -/
def usedPaths (settings : Settings) (before steps : List Step) : List (Site × String) :=
  (computes steps).flatMap resultPaths ++ (hops before steps).flatMap (Hop.paths settings)

private theorem steps_of_hop {hop : Hop} {before steps : List Step} (member : hop ∈ hops before steps) :
    before ++ steps = hop.before ++ .transfer hop.transfer :: hop.after := by
  induction steps generalizing before with
  | nil => cases member
  | cons step rest ih =>
    have moved : before ++ step :: rest = (before ++ [step]) ++ rest := by simp
    rw [moved]
    cases step with
    | compute step => exact ih member
    | transfer step =>
      rcases List.mem_cons.1 member with rfl | later
      · exact moved.symm
      · exact ih later

/-- A step that uses a path runs. -/
theorem step_of_usedPath {settings : Settings} {steps : List Step} {name path : String}
    (used : (.step name, path) ∈ usedPaths settings [] steps) : ∃ step ∈ computes steps, step.name = name := by
  rcases List.mem_append.1 used with result | moved
  · obtain ⟨step, runs, written⟩ := List.mem_flatMap.1 result
    obtain ⟨_, _, same⟩ := List.mem_map.1 written
    cases same
    exact ⟨step, runs, rfl⟩
  · obtain ⟨hop, member, listed⟩ := List.mem_flatMap.1 moved
    have all : computes steps = computes hop.before ++ computes (.transfer hop.transfer :: hop.after) := by
      rw [← computes_append, ← steps_of_hop member, List.nil_append]
    have site : hop.source? settings = some (.step name) ∨ hop.destination? settings = some (.step name) := by
      unfold Hop.paths at listed
      split at listed
      next source destination origin target =>
        obtain ⟨item, _, ends⟩ := List.mem_flatMap.1 listed
        simp only [itemPaths, List.mem_cons, Prod.mk.injEq, List.not_mem_nil, or_false] at ends
        rcases ends with ⟨rfl, _⟩ | ⟨rfl, _⟩
        · exact Or.inl origin
        · exact Or.inr target
      next => cases listed
    rcases site with origin | target
    · unfold Hop.source? at origin
      split at origin
      next => cases origin
      next =>
        obtain ⟨step, last, same⟩ := Option.map_eq_some_iff.1 origin
        cases same
        exact ⟨step, all ▸ List.mem_append_left _ (List.mem_of_getLast? last), rfl⟩
    · unfold Hop.destination? at target
      split at target
      next => cases target
      next =>
        obtain ⟨step, first, same⟩ := Option.map_eq_some_iff.1 target
        cases same
        exact ⟨step, all ▸ List.mem_append_right _ (List.mem_of_head? first), rfl⟩

private theorem mem_addPort {ports : List Port} {port other : Port}
    (alike : ∀ known ∈ ports, known.name = port.name → known = port) :
    other ∈ addPort ports port ↔ other ∈ ports ∨ other = port := by
  unfold addPort
  split
  next known =>
    obtain ⟨old, member, same⟩ := List.any_eq_true.1 known
    have inside : port ∈ ports := alike old member (of_decide_eq_true same) ▸ member
    constructor
    · exact Or.inl
    · intro either
      rcases either with old | rfl
      · exact old
      · exact inside
  next => simp

namespace Draft

variable {d after : Draft} {settings : Settings} {site other source destination : Site} {port : Port} {path : String}
  {used others : List (Site × String)} {steps before : List Step}

def Owns (d : Draft) (site : Site) (port : Port) : Prop :=
  port ∈ site.sources (d.part site) ∨ port ∈ site.targets (d.part site)

theorem owns_iff : d.Owns site port ↔ port ∈ (d.part site).inputs ++ (d.part site).outputs := by
  rw [List.mem_append]
  cases site with
  | orchestrator => exact Iff.rfl
  | step _ => exact or_comm

/-- The ports of a draft are plain files, one for each of these paths. -/
def Holds (d : Draft) (used : List (Site × String)) : Prop :=
  ∀ site port, d.Owns site port ↔ ∃ path, (site, path) ∈ used ∧ port = { name := site.portName path }

private theorem Holds.of_mem (holds : d.Holds used) (same : ∀ entry, entry ∈ others ↔ entry ∈ used) :
    d.Holds others := by
  intro site port
  simp only [holds site port, same]

private theorem Holds.alike (holds : d.Holds used) {known : Port} (owned : d.Owns site known)
    (named : known.name = port.name) (plain : port = { name := port.name }) : known = port := by
  obtain ⟨path, _, rfl⟩ := (holds site known).1 owned
  rw [plain, ← named]

/-- A new port at a site, and what was there. -/
private theorem Holds.grow (holds : d.Holds used) (grown : ∀ other port, after.Owns other port ↔
    d.Owns other port ∨ site = other ∧ port = { name := site.portName path }) :
    after.Holds (used ++ [(site, path)]) := by
  intro other port
  simp only [grown, holds other port, List.mem_append, List.mem_singleton, Prod.mk.injEq]
  constructor
  · intro either
    rcases either with ⟨known, member, rfl⟩ | ⟨rfl, rfl⟩
    · exact ⟨known, Or.inl member, rfl⟩
    · exact ⟨path, Or.inr ⟨rfl, rfl⟩, rfl⟩
  · intro ⟨known, member, same⟩
    rcases member with old | ⟨rfl, rfl⟩
    · exact Or.inl ⟨known, old, same⟩
    · exact Or.inr ⟨rfl, same⟩

private theorem Holds.addSource (holds : d.Holds used) (site : Site) (path : String) :
    (d.addSource site { name := site.portName path }).Holds (used ++ [(site, path)]) := by
  apply holds.grow
  intro other port
  rw [Owns, sources_addSource, targets_addSource]
  by_cases same : site = other
  · subst same
    have alike : ∀ known ∈ site.sources (d.part site), known.name = site.portName path →
        known = { name := site.portName path } := fun known member named =>
      holds.alike (Or.inl member) named rfl
    rw [if_pos rfl, mem_addPort alike, Owns]
    tauto
  · simp [same, Owns]

private theorem Holds.connectTo (holds : d.Holds used) (site : Site) (first path : String) :
    (d.connectTo site first { name := site.portName path }).Holds (used ++ [(site, path)]) := by
  apply holds.grow
  intro other port
  rw [Owns, sources_connectTo, targets_connectTo]
  by_cases same : site = other
  · subst same
    have alike : ∀ known ∈ site.targets (d.part site), known.name = site.portName path →
        known = { name := site.portName path } := fun known member named =>
      holds.alike (Or.inr member) named rfl
    rw [if_pos rfl, mem_addPort alike, Owns]
    tauto
  · simp [same, Owns]

private theorem Holds.addItem (holds : d.Holds used) (source destination : Site) (item : TransferItem) :
    (addItem source destination d item).Holds (used ++ itemPaths source destination item) := by
  have both := (holds.addSource source item.sourcePath.text).connectTo destination
    (source.portName item.sourcePath.text) item.destinationPath.text
  rw [List.append_assoc] at both
  exact both

private theorem Holds.addItems (holds : d.Holds used) (source destination : Site) (items : List TransferItem) :
    (items.foldl (Draft.addItem source destination) d).Holds
      (used ++ items.flatMap (itemPaths source destination)) := by
  induction items generalizing d used with
  | nil => simpa using holds
  | cons item rest ih =>
    have later := ih (holds.addItem source destination item)
    rw [List.append_assoc] at later
    exact later

private theorem Holds.addResult (holds : d.Holds used) (step : ComputeStep) :
    (d.addResult step).Holds (used ++ resultPaths step) := by
  unfold Draft.addResult resultPaths
  cases step.resultPath with
  | none => simpa using holds
  | some path => exact holds.addSource _ _

/-- What one step adds to the paths in use, and what the later steps add. -/
private theorem mem_usedPaths_compute {step : ComputeStep} {entry : Site × String} :
    entry ∈ usedPaths settings before (.compute step :: steps) ↔
      entry ∈ resultPaths step ∨ entry ∈ usedPaths settings (before ++ [.compute step]) steps := by
  simp [usedPaths, computes, Step.compute?, hops]

private theorem mem_usedPaths_transfer {step : Flow.TransferStep} {entry : Site × String} :
    entry ∈ usedPaths settings before (.transfer step :: steps) ↔ entry ∈ Hop.paths settings ⟨before, step, steps⟩ ∨
      entry ∈ usedPaths settings (before ++ [.transfer step]) steps := by
  simp only [usedPaths, computes, Step.compute?, hops, List.flatMap_cons, List.mem_append]
  tauto

private theorem Holds.addSteps (holds : d.Holds used) (added : d.addSteps settings (latest? before) steps = .ok after) :
    after.Holds (used ++ usedPaths settings before steps) := by
  induction steps generalizing before d used with
  | nil =>
    cases added
    simpa [usedPaths, computes, hops] using holds
  | cons step rest ih =>
    cases step with
    | compute step =>
      rw [Draft.addSteps, ← latest?_compute before step] at added
      apply (ih (holds.addResult step) added).of_mem
      intro entry
      simp only [List.mem_append, mem_usedPaths_compute, or_assoc]
    | transfer transfer =>
      obtain ⟨refusal, _, failed⟩ | ⟨source, destination, origin, target, next⟩ :=
        addSteps_transfer settings d before transfer rest
      · cases failed.symm.trans added
      · rw [next, ← latest?_transfer before transfer] at added
        apply (ih (holds.addItems source destination transfer.items) added).of_mem
        intro entry
        simp only [List.mem_append, mem_usedPaths_transfer, Hop.paths, origin, target, or_assoc]

private theorem ofSteps_holds (steps : List Step) : (ofSteps steps).Holds [] := by
  intro site port
  obtain ⟨_, same⟩ := describe_part (computes steps) ComputeStep.name ComputeStep.comment {} site
  have part : (ofSteps steps).part site = _ := same
  rw [Owns, part]
  cases site <;> simp [Site.sources, Site.targets, Draft.part, OrderedMap.get?, Entries.get?]

/-- The draft of a flow has a port for each path in use. -/
theorem ofFlow_holds (made : ofFlow settings steps = .ok d) : d.Holds (usedPaths settings [] steps) := by
  rw [ofFlow_eq] at made
  exact (ofSteps_holds steps).addSteps made

end Draft

end Provenance.Graph
