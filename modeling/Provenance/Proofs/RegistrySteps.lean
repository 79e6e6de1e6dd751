import Provenance.Proofs.ConnectionPlaces
import Provenance.Proofs.SequenceWeaving

/-! The steps of a registry's graph. A draft keeps steps by the names of functions, so a
function that several tools run is one step, at the place of its first entry and described
by its last. Only a closed tool can bring such a function in. -/

namespace Provenance

/-- Functions with their tools, each function once at its first place and with its last tool. -/
def lastOwners (computes : List (String × String)) : List (String × String) :=
  (Entries.collect (computes.map Prod.swap)).map Prod.swap

private theorem swap_names (computes : List (String × String)) :
    (computes.map Prod.swap).map Prod.fst = computes.map Prod.snd := by
  simp [Function.comp_def]

private theorem mem_lastOwners {computes : List (String × String)} {function : String} :
    function ∈ (lastOwners computes).map Prod.snd ↔ function ∈ computes.map Prod.snd := by
  have names : (lastOwners computes).map Prod.snd = (Entries.collect (computes.map Prod.swap)).map Prod.fst := by
    simp [lastOwners, Function.comp_def]
  rw [names, Entries.mem_keys_collect, swap_names]

private theorem lastOwners_of_nodup {computes : List (String × String)} (distinct : (computes.map Prod.snd).Nodup) :
    lastOwners computes = computes := by
  rw [lastOwners, Entries.collect_of_nodup (swap_names computes ▸ distinct)]
  simp

namespace Tool

variable {tools : List Tool} {function : String}

/-- A function that no closed tool runs is run as often as it is declared. -/
private theorem count_declared
    (unlisted : ∀ name functions, Tool.closed name functions ∈ tools → function ∉ functions) :
    (tools.flatMap Tool.functionNames).count function = ((declaredFunctions tools).map Prod.fst).count function := by
  induction tools with
  | nil => rfl
  | cons tool rest ih =>
    have behind := ih fun name functions member => unlisted name functions (List.mem_cons_of_mem _ member)
    rw [List.flatMap_cons, List.count_append, behind]
    cases tool with
    | provenance tool => simp [declaredFunctions, functionNames, provenance?, OrderedMap.keys]
    | closed name functions =>
      have absent : functions.count function = 0 := List.count_eq_zero.2 (unlisted name functions List.mem_cons_self)
      have same : declaredFunctions (.closed name functions :: rest) = declaredFunctions rest := rfl
      rw [functionNames, absent, Nat.zero_add, same]

private theorem declared_runs (member : function ∈ (declaredFunctions tools).map Prod.fst) :
    function ∈ (Tool.computes tools).map Prod.snd := by
  obtain ⟨declared, inside, rfl⟩ := List.mem_map.1 member
  obtain ⟨tool, known, entry⟩ := List.mem_flatMap.1 inside
  obtain ⟨tool, listed, provenance⟩ := List.mem_filterMap.1 known
  rw [Tool.computes_names]
  cases tool with
  | provenance tool =>
    cases provenance
    exact List.mem_flatMap.2 ⟨_, listed, List.mem_map_of_mem entry⟩
  | closed name functions => cases provenance

end Tool

private theorem Registry.declared_once {registry : Registry} {results : List Summary}
    (made : registry.summaries = .ok results) : ((Tool.declaredFunctions registry.tools).map Prod.fst).Nodup := by
  unfold summaries at made
  dsimp only at made
  split at made
  · cases made
  · next distinct => exact (firstRepeat?_eq_none_iff.1 distinct).1

/-- The functions of a summary are declared. -/
private theorem Registry.summary_declared {functions : List (String × FunctionUse)} {parameter : Parameter}
    {function : String}
    (member : function ∈ (summary functions parameter).output ∨ function ∈ (summary functions parameter).input) :
    function ∈ functions.map Prod.fst := by
  rcases member with user | user <;>
    exact (List.filter_sublist.map Prod.fst).subset user

namespace Graph

namespace Draft

variable {d after : Draft} {settings : Settings} {summary : Summary} {site : Site}

/-- The steps of a draft, each with its description. -/
def described (d : Draft) : List (String × Option String) :=
  Entries.mapped (fun _ part => part.description) d.steps.entries

private theorem described_keys (d : Draft) : d.described.map Prod.fst = d.steps.keys := by
  simp [described, Entries.mapped, OrderedMap.keys, Function.comp_def]

private theorem described_alter_step (d : Draft) (name : String) (change : Part → Part) :
    (d.alter (.step name) change).described =
      Entries.insert name (change (d.part (.step name))).description d.described :=
  Entries.mapped_insert _ _ _ _

/-- A change that leaves descriptions alone makes no difference at a known site. -/
private theorem described_alter (known : d.Knows site) {change : Part → Part}
    (kept : ∀ part, (change part).description = part.description) : (d.alter site change).described = d.described := by
  cases site with
  | orchestrator => rfl
  | step name =>
    have stored : (name, (d.part (.step name)).description) ∈ d.described :=
      List.mem_map.2 ⟨_, entry_of_part known, rfl⟩
    have distinct : (d.described.map Prod.fst).Nodup := d.described_keys ▸ d.steps.distinct
    rw [described_alter_step, kept]
    exact Entries.insert_of_get? ((Entries.get?_eq_some_iff distinct).2 stored)

private theorem knows_of_described (same : after.described = d.described) : after.Knows site ↔ d.Knows site :=
  knows_of_keys (by rw [← described_keys, same, described_keys])

private theorem described_addSource (known : d.Knows site) (port : Port) :
    (d.addSource site port).described = d.described :=
  described_alter known fun part => by cases site <;> rfl

private theorem described_connectTo (known : d.Knows site) (source : String) (port : Port) :
    (d.connectTo site source port).described = d.described := by
  have added : (d.addTarget site port).described = d.described :=
    described_alter known fun part => by cases site <;> rfl
  refine (described_alter ((knows_of_described added).2 known) fun part => ?_).trans added
  simp only [Part.connect]
  split <;> rfl

/-- What keeps descriptions at each known site keeps them over many. -/
private theorem described_foldl {α : Type} {grow : Draft → α → Draft} (place : α → Site)
    (keeps : ∀ d item, d.Knows (place item) → (grow d item).described = d.described) (items : List α)
    (known : ∀ item ∈ items, d.Knows (place item)) : (items.foldl grow d).described = d.described := by
  induction items generalizing d with
  | nil => rfl
  | cons item rest ih =>
    obtain ⟨own, others⟩ := List.forall_mem_cons.1 known
    have same := keeps d item own
    exact (ih fun other member => (knows_of_described same).2 (others other member)).trans same

private theorem knows_sitesOf {functions : List String} (known : ∀ function ∈ functions, d.Knows (.step function)) :
    ∀ site ∈ sitesOf functions, d.Knows site := by
  intro site member
  cases site with
  | orchestrator => trivial
  | step name => exact known name (step_mem_sitesOf.1 member)

private theorem described_addParameter
    (known : ∀ function, function ∈ summary.output ∨ function ∈ summary.input → d.Knows (.step function))
    (added : d.addParameter settings summary = .ok after) : after.described = d.described := by
  have written := described_foldl id (fun d source known => described_addSource known (portOf summary source))
    (sitesOf summary.output) (knows_sitesOf fun function writer => known function (Or.inl writer))
  rw [addParameter_eq added, targetsOf_eq]
  refine (described_foldl id (fun d target known => described_connectTo known _ (portOf summary target)) _ ?_).trans written
  apply knows_sitesOf
  intro function user
  exact (knows_of_described written).2 (known function (Or.inr user))

private theorem described_addParameters {summaries : List Summary}
    (known : ∀ summary ∈ summaries, ∀ function, function ∈ summary.output ∨ function ∈ summary.input →
      d.Knows (.step function))
    (added : summaries.foldlM (addParameter settings) d = .ok after) : after.described = d.described := by
  induction summaries generalizing d with
  | nil =>
    cases added
    rfl
  | cons summary rest ih =>
    obtain ⟨own, others⟩ := List.forall_mem_cons.1 known
    rw [List.foldlM_cons] at added
    obtain ⟨middle, first, later⟩ := Outcome.bind_eq_ok.1 added
    have same := described_addParameter own first
    exact (ih (fun other member function user => (knows_of_described same).2 (others other member function user))
      later).trans same

end Draft

/-- The description of a function of a tool. -/
def caption (function tool : String) : String := function ++ " function of " ++ tool

/-- The steps of a document are those of some functions with their tools, in their order. -/
structure Document.HasSteps (d : Document) (workflow : String) (computes : List (String × String)) : Prop where
  listed : d.linksAt workflow "step" = computes.map fun entry => stepId workflow entry.2
  only : ∀ node ∈ d.nodes, node.hasType "HowToStep" = true → node.id ∈ d.linksAt workflow "step"
  each : ∀ (position : Nat) (tool function : String), computes[position]? = some (tool, function) →
    ∃ step ∈ d.nodes, step.id = stepId workflow function ∧ step.hasType "HowToStep" = true ∧
      step.property? "position" = some (.text (toString position)) ∧
      ∃ application ∈ d.nodes, step.property? "workExample" = some (.link application.id) ∧
        application.hasType "SoftwareApplication" = true ∧
        application.property? "description" = some (.text (caption function tool))

/-- A step has one position, so functions that have a step for each entry are distinct. -/
theorem Document.HasSteps.nodup {d : Document} {workflow : String} {computes : List (String × String)}
    (has : d.HasSteps workflow computes) (distinct : d.ids.Nodup) : (computes.map Prod.snd).Nodup := by
  have placed : ∀ {position : Nat} {function : String}, (computes.map Prod.snd)[position]? = some function →
      ((d.node? (stepId workflow function)).bind fun step => step.property? "position") =
        some (.text (toString position)) := by
    intro position function found
    rw [List.getElem?_map, Option.map_eq_some_iff] at found
    obtain ⟨⟨tool, _⟩, listed, rfl⟩ := found
    obtain ⟨step, stored, own, _, place, _⟩ := has.each position tool _ listed
    rw [← own, Document.node?_of_mem distinct stored]
    exact place
  rw [List.nodup_iff_getElem?_ne_getElem?]
  intro first second before bound same
  have later := List.getElem?_eq_getElem bound
  have texts := (placed (same.trans later)).symm.trans (placed later)
  have positions : first = second := repr_injective (Property.text.inj (Option.some.inj texts))
  omega

theorem stepNode_properties (workflow step : String) (position : Nat) (ids : List String) :
    (stepNode workflow step position ids).property? "position" = some (.text (toString position)) ∧
      (stepNode workflow step position ids).property? "workExample" = some (.link (localId workflow step)) := by
  cases ids <;> exact ⟨rfl, rfl⟩

private theorem toolNode_description (workflow step : String) (part : Part) :
    (toolNode workflow step part).property? "description" = part.description.map .text := by
  obtain ⟨description, inputs, outputs, connections⟩ := part
  cases description <;> rfl

namespace Draft

variable {draft : Draft} {settings : Settings} {d : Document} {node : Node}

/-- The nodes of steps are those of the steps of the draft. -/
theorem step_of_typed (member : node ∈ draft.nodes settings) (typed : node.hasType "HowToStep" = true) :
    ∃ step ∈ draft.steps.keys, node.id = stepId settings.workflow step := by
  cases emitted_of_mem member with
  | @step entry _ _ split => exact ⟨entry.1, List.mem_map_of_mem (by simp [split]), rfl⟩
  | connection listed | stepConnection _ listed =>
    obtain ⟨_, _, rfl⟩ := List.mem_map.1 listed
    cases typed
  | descriptor | root | workflow | language | profile _ | port _ _ | tool _ => cases typed

/-- A step is emitted with its position, and with its tool. -/
private theorem position_emitted (settings : Settings) {position : Nat} {step : String} {part : Part}
    (found : draft.steps.entries[position]? = some (step, part)) :
    ∃ ids, stepNode settings.workflow step position ids ∈ draft.nodes settings ∧
      toolNode settings.workflow step part ∈ draft.nodes settings := by
  obtain ⟨bound, entry⟩ := List.getElem?_eq_some_iff.1 found
  have split : draft.steps.entries = draft.steps.entries.take position ++
      (step, part) :: draft.steps.entries.drop (position + 1) := by
    rw [← entry, List.cons_getElem_drop_succ, List.take_append_drop]
  have before : (draft.steps.entries.take position).length = position := by
    rw [List.length_take]
    omega
  have emitted : _ ⊆ draft.nodes settings := entry_emitted split
  rw [before] at emitted
  refine ⟨_, emitted (List.mem_append_left _ (List.mem_append_right _ List.mem_cons_self)), ?_⟩
  exact emitted (List.mem_append_left _ (List.mem_append_right _ (List.mem_cons_of_mem _ List.mem_cons_self)))

private theorem steps_listed (made : draft.document settings = .ok d) :
    d.linksAt settings.workflow "step" = draft.steps.keys.map (stepId settings.workflow) := by
  have emitted := workflowNode_emitted draft settings
  have own : (workflowNode settings draft (connectionIds settings.workflow 0 draft.workflow.connections)).property?
      "step" = some (.links (draft.steps.keys.map (stepId settings.workflow))) := by
    cases connectionIds settings.workflow 0 draft.workflow.connections <;> rfl
  have stored : ((d.node? settings.workflow).bind fun known => known.property? "step") = _ :=
    ((Document.ofNodes_collects made).property?_eq emitted).trans own
  simp only [Document.linksAt, stored]

/-- The document of a draft has the steps that the draft describes. -/
private theorem document_has_steps (made : draft.document settings = .ok d) {computes : List (String × String)}
    (same : draft.described = computes.map fun entry => (entry.2, some (caption entry.2 entry.1))) :
    d.HasSteps settings.workflow computes := by
  have collects := Document.ofNodes_collects made
  have keys : draft.steps.keys = computes.map Prod.snd := by
    rw [← described_keys, same, List.map_map]
    rfl
  refine ⟨?_, ?_, ?_⟩
  · rw [steps_listed made, keys, List.map_map]
    rfl
  · intro node member typed
    obtain ⟨step, known, own⟩ := step_of_typed (collects.only node member) typed
    rw [steps_listed made, own]
    exact List.mem_map_of_mem known
  · intro position tool function found
    have described : draft.described[position]? = some (function, some (caption function tool)) := by
      rw [same, List.getElem?_map, found]
      rfl
    rw [Draft.described, Entries.mapped, List.getElem?_map, Option.map_eq_some_iff] at described
    obtain ⟨⟨name, part⟩, entry, equal⟩ := described
    obtain ⟨rfl, text⟩ := Prod.mk.inj equal
    obtain ⟨ids, stepEmitted, toolEmitted⟩ := position_emitted settings entry
    obtain ⟨step, stored, own, like⟩ := collects.stored stepEmitted
    obtain ⟨application, known, applied, alike⟩ := collects.stored toolEmitted
    refine ⟨step, stored, own, ?_, ?_, application, known, ?_, ?_, ?_⟩
    · rw [Node.hasType, like.types]
      rfl
    · rw [like.property, (stepNode_properties _ _ _ _).1]
    · rw [like.property, (stepNode_properties _ _ _ _).2, applied]
      rfl
    · rw [Node.hasType, alike.types]
      rfl
    · rw [alike.property, toolNode_description]
      exact congrArg (Option.map Property.text) text

/-- Steps stand in the order of their first entries, each described by its last one. -/
private theorem described_ofSequence (entries : List SequenceEntry) : (ofSequence entries).described =
    (lastOwners (computed entries)).map fun entry => (entry.2, some (caption entry.2 entry.1)) := by
  have grow : ∀ (items : List (String × String)) (d : Draft),
      (items.foldl (fun draft item => draft.alter (.step item.2) fun part =>
        { part with description := some (caption item.2 item.1) }) d).described =
      (Entries.mapped (fun function tool => some (caption function tool)) (items.map Prod.swap)).foldl
        (fun entries pair => Entries.insert pair.1 pair.2 entries) d.described := by
    intro items
    induction items with
    | nil => exact fun _ => rfl
    | cons item rest ih =>
      intro d
      rw [List.foldl_cons, ih, described_alter_step]
      rfl
  calc (ofSequence entries).described
    _ = Entries.collect (Entries.mapped (fun function tool => some (caption function tool))
          ((computed entries).map Prod.swap)) := grow (computed entries) {}
    _ = Entries.mapped (fun function tool => some (caption function tool))
          (Entries.collect ((computed entries).map Prod.swap)) := (Entries.mapped_collect _ _).symm
    _ = (lastOwners (computed entries)).map fun entry => (entry.2, some (caption entry.2 entry.1)) := by
      rw [lastOwners, List.map_map]
      rfl

end Draft

/-- The steps of a registry's graph are its functions, each with the last tool that runs it. -/
theorem Document.ofRegistry_steps {registry : Registry} {settings : Settings} {d : Document}
    (built : Document.ofRegistry registry settings = .ok d) :
    ∃ plan summaries, TransferPlan.infer registry.tools settings = .ok plan ∧ registry.summaries = .ok summaries ∧
      d.ids.Nodup ∧ d.HasSteps settings.workflow (lastOwners (computed (plan.sequence registry.tools))) := by
  obtain ⟨plan, summaries, draft, inferred, summarized, drafted, made⟩ := Document.ofRegistry_eq_ok.1 built
  refine ⟨plan, summaries, inferred, summarized, (Document.ofNodes_collects made).distinct, ?_⟩
  apply Draft.document_has_steps made
  rw [← Draft.described_ofSequence]
  apply Draft.described_addParameters _ drafted
  intro summary listed function user
  obtain ⟨parameter, _, _, rfl⟩ := (Registry.mem_summaries summarized).1 listed
  have runs := Tool.declared_runs (Registry.summary_declared user)
  rw [← plan.computed_sequence, ← mem_lastOwners] at runs
  change function ∈ (Draft.ofSequence (plan.sequence registry.tools)).steps.keys
  rw [← Draft.described_keys, Draft.described_ofSequence, List.map_map]
  exact runs

/-- The graph of a registry has one step for each function that its sequence runs, at the place
where the function first runs and described with the tool that runs it last. So every entry
has a step of its own exactly when the functions are distinct, and a function that is run more
than once belongs to a closed tool. -/
theorem registry_graphs_step_by_function (registry : Registry) (settings : Settings) (d : Document)
    (built : Document.ofRegistry registry settings = .ok d) :
    ∃ plan computes, TransferPlan.infer registry.tools settings = .ok plan ∧
      computed (plan.sequence registry.tools) = computes ∧
      d.HasSteps settings.workflow (lastOwners computes) ∧
      (d.HasSteps settings.workflow computes ↔ (computes.map Prod.snd).Nodup) ∧
      ∀ function, 1 < (computes.map Prod.snd).count function →
        ∃ name functions, Tool.closed name functions ∈ registry.tools ∧ function ∈ functions := by
  obtain ⟨plan, summaries, inferred, summarized, distinct, steps⟩ := Document.ofRegistry_steps built
  refine ⟨plan, _, inferred, rfl, steps, ⟨fun has => has.nodup distinct, ?_⟩, ?_⟩
  · intro once
    rwa [lastOwners_of_nodup once] at steps
  · intro function several
    by_contra none
    have unlisted : ∀ name functions, Tool.closed name functions ∈ registry.tools → function ∉ functions :=
      fun name functions member inside => none ⟨name, functions, member, inside⟩
    rw [plan.computed_sequence, Tool.computes_names, Tool.count_declared unlisted] at several
    have once := List.nodup_iff_count_le_one.1 (Registry.declared_once summarized) function
    omega

/-- A closed tool runs a function that another tool declares. -/
def sharedRegistry : Registry :=
  { parameters := []
    tools :=
      [.provenance { name := "Mine", endpoint := "at Mine", functions := OrderedMap.ofList [("Run", {})] },
        .closed "Legacy" ["Run"]]
    distinct := by decide
    declared := by decide }

theorem shared_function_has_one_step :
    ∃ d plan, Document.ofRegistry sharedRegistry plainSettings = .ok d ∧
      TransferPlan.infer sharedRegistry.tools plainSettings = .ok plan ∧
      d.HasSteps plainSettings.workflow (lastOwners (computed (plan.sequence sharedRegistry.tools))) := by
  have declared : (Document.ofRegistry sharedRegistry plainSettings).toOption.isSome = true := by decide
  obtain ⟨d, built⟩ := Outcome.ok_of_isSome declared
  obtain ⟨plan, computes, inferred, rfl, steps, _⟩ :=
    registry_graphs_step_by_function sharedRegistry plainSettings d built
  exact ⟨d, plan, built, inferred, steps⟩

/-- Two entries run the function here, and there is one step, which names the closed tool. -/
theorem shared_function_loses_a_step :
    ∃ d plan, Document.ofRegistry sharedRegistry plainSettings = .ok d ∧
      TransferPlan.infer sharedRegistry.tools plainSettings = .ok plan ∧
      computed (plan.sequence sharedRegistry.tools) = [("Mine", "Run"), ("Legacy", "Run")] ∧
      ¬ d.HasSteps "wf" (computed (plan.sequence sharedRegistry.tools)) ∧
      d.linksAt "wf" "step" = ["wf#main/Run"] ∧
      (d.nodes.filter fun node => node.hasType "SoftwareApplication").map (Node.property? · "description") =
        [some (.text "Run function of Legacy")] := by
  have described : (Document.ofRegistry sharedRegistry plainSettings).toOption.map (fun d =>
      (d.nodes.filter fun node => node.hasType "SoftwareApplication").map (Node.property? · "description")) =
      some [some (.text "Run function of Legacy")] := by decide
  obtain ⟨d, made, description⟩ := Option.map_eq_some_iff.1 described
  have built := Outcome.toOption_eq_some.1 made
  obtain ⟨plan, _, inferred, _, distinct, steps⟩ := Document.ofRegistry_steps built
  have runs : computed (plan.sequence sharedRegistry.tools) = [("Mine", "Run"), ("Legacy", "Run")] :=
    plan.computed_sequence _
  refine ⟨d, plan, built, inferred, runs, ?_, ?_, description⟩
  · intro each
    have once := each.nodup distinct
    rw [runs] at once
    exact absurd once (by decide)
  · have listed := steps.listed
    rw [runs] at listed
    exact listed

end Graph

end Provenance
