import Provenance.Graph.OfPlan
import Provenance.Proofs.BuiltDrafts
import Provenance.Proofs.PlanReading

/-! The data flow of a sequence of steps, said transfer by transfer. Each transfer
is looked at together with everything before and after it, and a draft carries
exactly what the transfers move. -/

namespace Provenance.Graph

open Provenance.Flow (ComputeStep TransferItem TransferStep Step computes computes_append)

/-- A transfer with the steps that run before it and those that run after it. -/
structure Hop where
  before : List Step
  transfer : TransferStep
  after : List Step

/-- The transfers of some steps, when others have run before. -/
def hops (before : List Step) : List Step → List Hop
  | [] => []
  | .compute step :: after => hops (before ++ [.compute step]) after
  | .transfer step :: after => ⟨before, step, after⟩ :: hops (before ++ [.transfer step]) after

namespace Hop

/-- One end of the transfer is not at the orchestrator, and no compute step is on
that side of it. -/
def Unattributed (settings : Settings) (hop : Hop) : TransferEnd → Prop
  | .source => hop.transfer.sourceEndpoint.text ≠ settings.orchestrator ∧ computes hop.before = []
  | .destination => hop.transfer.destinationEndpoint.text ≠ settings.orchestrator ∧ computes hop.after = []

def source? (settings : Settings) (hop : Hop) : Option Site :=
  if hop.transfer.sourceEndpoint.text = settings.orchestrator then some .orchestrator
  else (computes hop.before).getLast?.map fun step => .step step.name

def destination? (settings : Settings) (hop : Hop) : Option Site :=
  if hop.transfer.destinationEndpoint.text = settings.orchestrator then some .orchestrator
  else (computes hop.after).head?.map fun step => .step step.name

def connection (source destination : Site) (item : TransferItem) : Connection :=
  ⟨source.portName item.sourcePath.text, destination.portName item.destinationPath.text⟩

def connections (settings : Settings) (hop : Hop) : List Connection :=
  match hop.source? settings, hop.destination? settings with
  | some source, some destination => hop.transfer.items.map (connection source destination)
  | _, _ => []

/-- The failure that a transfer causes, the source being looked at first. -/
def refusal? (settings : Settings) (hop : Hop) : Option Failure :=
  if (hop.source? settings).isNone then some (.unattributedTransfer hop.transfer.name .source)
  else if (hop.destination? settings).isNone then some (.unattributedTransfer hop.transfer.name .destination)
  else none

variable {settings : Settings} {hop : Hop}

theorem source?_eq_none_iff : hop.source? settings = none ↔ hop.Unattributed settings .source := by
  unfold source? Unattributed
  split
  next here => simp [here]
  next away => simp [away]

theorem destination?_eq_none_iff : hop.destination? settings = none ↔ hop.Unattributed settings .destination := by
  unfold destination? Unattributed
  split
  next here => simp [here]
  next away => simp [away]

private theorem forall_end {claim : TransferEnd → Prop} : (∀ side, claim side) ↔ claim .source ∧ claim .destination :=
  ⟨fun all => ⟨all .source, all .destination⟩, fun both side => by cases side; exacts [both.1, both.2]⟩

private theorem exists_end {claim : TransferEnd → Prop} : (∃ side, claim side) ↔ claim .source ∨ claim .destination :=
  ⟨fun ⟨side, holds⟩ => by cases side; exacts [Or.inl holds, Or.inr holds],
    fun either => either.elim (fun holds => ⟨_, holds⟩) fun holds => ⟨_, holds⟩⟩

theorem refusal?_eq_none_iff : hop.refusal? settings = none ↔ ∀ side, ¬ hop.Unattributed settings side := by
  rw [forall_end, ← source?_eq_none_iff, ← destination?_eq_none_iff, refusal?]
  cases hop.source? settings <;> cases hop.destination? settings <;> simp

theorem refusal?_eq_some_iff {fault : Failure} : hop.refusal? settings = some fault ↔
    ∃ side, hop.Unattributed settings side ∧ (side = .destination → ¬ hop.Unattributed settings .source) ∧
      fault = .unattributedTransfer hop.transfer.name side := by
  rw [exists_end, ← source?_eq_none_iff, ← destination?_eq_none_iff, refusal?]
  cases hop.source? settings <;> cases hop.destination? settings <;> simp [eq_comm]

theorem refused_iff {list : List Hop} :
    (∃ state side, list.findSome? (refusal? settings) = some (.unattributedTransfer state side)) ↔
      ∃ hop ∈ list, ∃ side, hop.Unattributed settings side := by
  constructor
  · rintro ⟨state, side, refused⟩
    obtain ⟨hop, member, refused⟩ := List.exists_of_findSome?_eq_some refused
    obtain ⟨side, unattributed, _⟩ := refusal?_eq_some_iff.1 refused
    exact ⟨hop, member, side, unattributed⟩
  · rintro ⟨hop, member, side, unattributed⟩
    have some : (list.findSome? (refusal? settings)).isSome = true := by
      refine List.findSome?_isSome_iff.2 ⟨hop, member, ?_⟩
      rw [Option.isSome_iff_ne_none]
      exact fun accepted => refusal?_eq_none_iff.1 accepted side unattributed
    obtain ⟨fault, refused⟩ := Option.isSome_iff_exists.1 some
    obtain ⟨first, _, blamed⟩ := List.exists_of_findSome?_eq_some refused
    obtain ⟨side, _, _, rfl⟩ := refusal?_eq_some_iff.1 blamed
    exact ⟨_, side, refused⟩

theorem first_refused_iff {list : List Hop} {state : String} {side : TransferEnd} :
    list.findSome? (refusal? settings) = some (.unattributedTransfer state side) ↔
      ∃ earlier hop later, list = earlier ++ hop :: later ∧
        (∀ other ∈ earlier, ∀ side, ¬ other.Unattributed settings side) ∧ state = hop.transfer.name ∧
        hop.Unattributed settings side ∧ (side = .destination → ¬ hop.Unattributed settings .source) := by
  simp only [List.findSome?_eq_some_iff, refusal?_eq_some_iff, refusal?_eq_none_iff]
  constructor
  · rintro ⟨earlier, hop, later, split, ⟨blamed, unattributed, first, same⟩, before⟩
    cases same
    exact ⟨earlier, hop, later, split, before, rfl, unattributed, first⟩
  · rintro ⟨earlier, hop, later, split, before, rfl, unattributed, first⟩
    exact ⟨earlier, hop, later, split, ⟨side, unattributed, first, rfl⟩, before⟩

end Hop

variable {settings : Settings} {transfer : TransferStep} {before rest steps : List Step} {d after : Draft}

def latest? (before : List Step) : Option String := (computes before).getLast?.map ComputeStep.name

theorem latest?_compute (before : List Step) (step : ComputeStep) :
    latest? (before ++ [.compute step]) = some step.name := by
  simp [latest?, computes, Step.compute?]

theorem latest?_transfer (before : List Step) (step : TransferStep) :
    latest? (before ++ [.transfer step]) = latest? before := by
  simp [latest?, computes, Step.compute?]

private theorem siteOf_source (settings : Settings) (hop : Hop) :
    siteOf settings hop.transfer.name .source hop.transfer.sourceEndpoint
    (latest? hop.before) = match hop.source? settings with
      | some site => .ok site
      | none => .error (.unattributedTransfer hop.transfer.name .source) := by
  unfold siteOf Hop.source? latest?
  split
  · rfl
  · cases (computes hop.before).getLast? <;> rfl

private theorem siteOf_destination (settings : Settings) (hop : Hop) : siteOf settings hop.transfer.name .destination
    hop.transfer.destinationEndpoint (nextCompute? hop.after) = match hop.destination? settings with
      | some site => .ok site
      | none => .error (.unattributedTransfer hop.transfer.name .destination) := by
  unfold siteOf Hop.destination? nextCompute?
  rw [← List.head?_filterMap]
  split
  · rfl
  · rw [← computes]
    cases (computes hop.after).head? <;> rfl

namespace Draft

/-- A transfer is refused, or its items are added between its two ends. -/
theorem addSteps_transfer (settings : Settings) (d : Draft) (before : List Step) (transfer : TransferStep) (rest : List Step) :
    (∃ fault, Hop.refusal? settings ⟨before, transfer, rest⟩ = some fault ∧
      d.addSteps settings (latest? before) (.transfer transfer :: rest) = .error fault) ∨
    ∃ source destination, Hop.source? settings ⟨before, transfer, rest⟩ = some source ∧
      Hop.destination? settings ⟨before, transfer, rest⟩ = some destination ∧
      d.addSteps settings (latest? before) (.transfer transfer :: rest) =
        (transfer.items.foldl (addItem source destination) d).addSteps settings (latest? before) rest := by
  have source := siteOf_source settings ⟨before, transfer, rest⟩
  have destination := siteOf_destination settings ⟨before, transfer, rest⟩
  rw [addSteps, Hop.refusal?]
  simp only at source destination
  rw [source, destination]
  cases Hop.source? settings ⟨before, transfer, rest⟩ with
  | none => exact Or.inl ⟨_, rfl, rfl⟩
  | some first =>
    cases Hop.destination? settings ⟨before, transfer, rest⟩ with
    | none => exact Or.inl ⟨_, rfl, rfl⟩
    | some second => exact Or.inr ⟨first, second, rfl, rfl, rfl⟩

private theorem addSteps_error_iff {fault : Failure} : d.addSteps settings (latest? before) steps = .error fault ↔
    (hops before steps).findSome? (Hop.refusal? settings) = some fault := by
  induction steps generalizing before d with
  | nil => simp [addSteps, hops]
  | cons step rest ih =>
    cases step with
    | compute step =>
      rw [addSteps, hops, ← latest?_compute before step]
      exact ih
    | transfer transfer =>
      rw [hops, List.findSome?_cons]
      obtain ⟨refusal, refused, failed⟩ | ⟨source, destination, origin, target, next⟩ :=
        addSteps_transfer settings d before transfer rest
      · simp [failed, refused]
      · have accepted : Hop.refusal? settings ⟨before, transfer, rest⟩ = none := by simp [Hop.refusal?, origin, target]
        rw [next, accepted, ← latest?_transfer before transfer]
        exact ih

end Draft

def arrivals (settings : Settings) (site : Site) (hops : List Hop) : List Connection :=
  (hops.filter fun hop => hop.destination? settings = some site).flatMap (Hop.connections settings)

namespace Draft

/-- The draft has these connections at each site, each at its first occurrence. -/
def Carries (d : Draft) (flow : Site → List Connection) : Prop :=
  ∀ site, (d.part site).connections = (flow site).eraseDups

variable {flow : Site → List Connection}

private theorem Carries.addSource (carries : d.Carries flow) (site : Site) (port : Port) :
    (d.addSource site port).Carries flow :=
  fun other => connections_addSource.trans (carries other)

private theorem Carries.addResult (carries : d.Carries flow) (step : ComputeStep) :
    (d.addResult step).Carries flow := by
  unfold Draft.addResult
  split
  · exact carries
  · exact carries.addSource _ _

private theorem Carries.addItem (carries : d.Carries flow) (source destination : Site) (item : TransferItem) :
    (addItem source destination d item).Carries fun site =>
      flow site ++ if destination = site then [Hop.connection source destination item] else [] := by
  intro site
  rw [Draft.addItem, connections_connectTo, connections_addSource, connections_addSource, carries, carries]
  by_cases same : destination = site
  · subst same
    simp only [if_true, true_and, eraseDups_concat, List.mem_eraseDups, Hop.connection]
    split <;> simp_all
  · simp [same]

private theorem Carries.addItems (carries : d.Carries flow) (source destination : Site) (items : List TransferItem) :
    (items.foldl (Draft.addItem source destination) d).Carries fun site =>
      flow site ++ if destination = site then items.map (Hop.connection source destination) else [] := by
  induction items generalizing d flow with
  | nil => simpa using carries
  | cons item rest ih =>
    have later := ih (carries.addItem source destination item)
    intro site
    rw [List.foldl_cons, later site]
    by_cases same : destination = site <;> simp [same]

private theorem Carries.addSteps (carries : d.Carries flow)
    (added : d.addSteps settings (latest? before) steps = .ok after) :
    after.Carries fun site => flow site ++ arrivals settings site (hops before steps) := by
  induction steps generalizing before d flow with
  | nil =>
    cases added
    simpa [hops, arrivals] using carries
  | cons step rest ih =>
    cases step with
    | compute step =>
      rw [Draft.addSteps, ← latest?_compute before step] at added
      exact ih (carries.addResult step) added
    | transfer transfer =>
      obtain ⟨refusal, _, failed⟩ | ⟨source, destination, origin, target, next⟩ :=
        addSteps_transfer settings d before transfer rest
      · cases failed.symm.trans added
      · rw [next, ← latest?_transfer before transfer] at added
        have later := ih (carries.addItems source destination transfer.items) added
        intro site
        rw [later site]
        by_cases same : destination = site
        · simp [hops, arrivals, target, same, Hop.connections, origin]
        · simp [hops, arrivals, target, same]

def Knows (d : Draft) : Site → Prop
  | .orchestrator => True
  | .step name => name ∈ d.steps.keys

variable {site source destination : Site}

theorem part_unknown (unknown : ¬ d.Knows site) : d.part site = {} := by
  cases site with
  | orchestrator => exact absurd trivial unknown
  | step name => rw [part, OrderedMap.get?_eq_none_iff.2 unknown, Option.getD_none]

private theorem keys_alter (known : d.Knows site) (change : Part → Part) :
    (d.alter site change).steps.keys = d.steps.keys := by
  cases site with
  | orchestrator => rfl
  | step name => exact OrderedMap.keys_alter.trans (if_pos known)

theorem knows_of_keys (same : after.steps.keys = d.steps.keys) : after.Knows site ↔ d.Knows site := by
  cases site with
  | orchestrator => exact Iff.rfl
  | step name => exact iff_of_eq (congrArg (name ∈ ·) same)

private theorem keys_addResult {step : ComputeStep} (known : d.Knows (.step step.name)) :
    (d.addResult step).steps.keys = d.steps.keys := by
  unfold addResult
  split
  · rfl
  · exact keys_alter known _

private theorem keys_addSource (known : d.Knows site) (port : Port) :
    (d.addSource site port).steps.keys = d.steps.keys :=
  keys_alter known _

private theorem keys_connectTo (known : d.Knows site) (source : String) (port : Port) :
    (d.connectTo site source port).steps.keys = d.steps.keys := by
  have added : (d.addTarget site port).steps.keys = d.steps.keys := keys_alter known _
  exact (keys_alter ((knows_of_keys added).2 known) _).trans added

private theorem keys_addItem (first : d.Knows source) (second : d.Knows destination) (item : TransferItem) :
    (addItem source destination d item).steps.keys = d.steps.keys := by
  have sent := keys_addSource first { name := source.portName item.sourcePath.text }
  exact (keys_connectTo ((knows_of_keys sent).2 second) _ _).trans sent

private theorem keys_addItems (first : d.Knows source) (second : d.Knows destination) (items : List TransferItem) :
    (items.foldl (addItem source destination) d).steps.keys = d.steps.keys := by
  induction items generalizing d with
  | nil => rfl
  | cons item rest ih =>
    have same := keys_addItem first second item
    exact (ih ((knows_of_keys same).2 first) ((knows_of_keys same).2 second)).trans same

private theorem knows_source {hop : Hop} (origin : hop.source? settings = some site)
    (known : ∀ step ∈ computes hop.before, d.Knows (.step step.name)) : d.Knows site := by
  unfold Hop.source? at origin
  split at origin
  · cases origin
    trivial
  · obtain ⟨step, last, rfl⟩ := Option.map_eq_some_iff.1 origin
    exact known step (List.mem_of_getLast? last)

private theorem knows_destination {hop : Hop} (target : hop.destination? settings = some site)
    (known : ∀ step ∈ computes hop.after, d.Knows (.step step.name)) : d.Knows site := by
  unfold Hop.destination? at target
  split at target
  · cases target
    trivial
  · obtain ⟨step, first, rfl⟩ := Option.map_eq_some_iff.1 target
    exact known step (List.mem_of_head? first)

/-- Adding steps to a draft that has all of them makes no further steps. -/
private theorem keys_addSteps (known : ∀ step ∈ computes (before ++ steps), d.Knows (.step step.name))
    (added : d.addSteps settings (latest? before) steps = .ok after) : after.steps.keys = d.steps.keys := by
  induction steps generalizing before d with
  | nil =>
    cases added
    rfl
  | cons step rest ih =>
    -- A step only moves from the later ones to the earlier ones, so the draft knows all of them throughout.
    have all : before ++ step :: rest = (before ++ [step]) ++ rest := by simp
    cases step with
    | compute step =>
      have same := keys_addResult (known step (by simp [computes, Step.compute?]))
      rw [addSteps, ← latest?_compute before step] at added
      rw [all] at known
      exact (ih (fun other member => (knows_of_keys same).2 (known other member)) added).trans same
    | transfer transfer =>
      obtain ⟨refusal, _, failed⟩ | ⟨source, destination, origin, target, next⟩ :=
        addSteps_transfer settings d before transfer rest
      · cases failed.symm.trans added
      · have earlier : ∀ step ∈ computes before, d.Knows (.step step.name) := fun other member =>
          known other (computes_append before _ ▸ List.mem_append_left _ member)
        have later : ∀ step ∈ computes rest, d.Knows (.step step.name) := fun other member =>
          known other (computes_append before _ ▸ List.mem_append_right _ member)
        have first := knows_source origin earlier
        have second := knows_destination target later
        have same := keys_addItems first second transfer.items
        rw [next, ← latest?_transfer before transfer] at added
        rw [all] at known
        exact (ih (fun other member => (knows_of_keys same).2 (known other member)) added).trans same

private theorem keys_describe (items : List ComputeStep)
    (distinct : (d.steps.keys ++ items.map ComputeStep.name).Nodup) :
    (items.foldl (fun draft step => draft.alter (.step step.name) fun part =>
      { part with description := step.comment }) d).steps.keys = d.steps.keys ++ items.map ComputeStep.name := by
  induction items generalizing d with
  | nil => simp
  | cons item rest ih =>
    have new : item.name ∉ d.steps.keys := fun old => (List.nodup_append.1 distinct).2.2 _ old _ (by simp) rfl
    have grown : ∀ change, (d.alter (.step item.name) change).steps.keys = d.steps.keys ++ [item.name] := fun change =>
      OrderedMap.keys_alter.trans (if_neg new)
    rw [List.foldl_cons, ih (by rw [grown]; simpa using distinct), grown]
    simp

private theorem keys_ofSteps (distinct : ((computes steps).map ComputeStep.name).Nodup) :
    (ofSteps steps).steps.keys = (computes steps).map ComputeStep.name :=
  keys_describe (computes steps) distinct

theorem ofFlow_eq (settings : Settings) (steps : List Step) :
    ofFlow settings steps = (ofSteps steps).addSteps settings (latest? []) steps := rfl

theorem ofFlow_error_iff {fault : Failure} : ofFlow settings steps = .error fault ↔
    (hops [] steps).findSome? (Hop.refusal? settings) = some fault := by
  rw [ofFlow_eq]
  exact addSteps_error_iff

theorem ofFlow_carries (made : ofFlow settings steps = .ok d) :
    d.Carries fun site => arrivals settings site (hops [] steps) := by
  have empty : (ofSteps steps).Carries fun _ => [] := ofSteps_unconnected steps
  exact empty.addSteps made

theorem keys_ofFlow (distinct : ((computes steps).map ComputeStep.name).Nodup) (made : ofFlow settings steps = .ok d) :
    d.steps.keys = (computes steps).map ComputeStep.name := by
  have all := keys_ofSteps distinct
  rw [ofFlow_eq] at made
  refine (keys_addSteps (fun step member => ?_) made).trans all
  change step.name ∈ (ofSteps steps).steps.keys
  rw [all]
  exact List.mem_map_of_mem member

end Draft

end Provenance.Graph
