import Provenance.Proofs.RegistrySteps

/-! The sources of parameters in the graph of a registry. A connection is made together with
the port that it leads into, so that ports and connections of a site go one with one: what a
function reads has one source, and so has what the workflow gives back. -/

namespace Provenance.Graph

open TransferPlan (mem_users)

namespace Document

/-- Connections lead into ports one by one, so that each port has one connection. -/
structure Fills (d : Document) (connections ports : List String) : Prop where
  once : connections.Nodup
  distinct : ports.Nodup
  targets : connections.map (fun id => d.linkAt id "targetParameter") = ports.map some

/-- Some ids are those of the ports that a site has for some parameters. -/
structure ListsPorts (workflow : String) (site : Site) (ids : List String) (listed : String → Prop) : Prop where
  parameters : ∀ parameter, localId workflow (site.name ++ "/" ++ parameter) ∈ ids ↔ listed parameter
  only : ∀ id ∈ ids, ∃ parameter, id = localId workflow (site.name ++ "/" ++ parameter)

/-- A step of a function has one connection for each input of its tool, and the tool has an
input for each parameter that the function reads. -/
structure StepSourced (d : Document) (workflow : String) (tools : List Tool) (step tool : Node) (function : String) :
    Prop where
  own : step.id = stepId workflow function
  application : tool.hasType "SoftwareApplication" = true
  works : step.property? "workExample" = some (.link tool.id)
  filled : d.Fills (d.linksAt step.id "connection") (d.linksAt tool.id "input")
  read : ListsPorts workflow (.step function) (d.linksAt tool.id "input") fun parameter =>
    ∃ usage, (function, usage) ∈ Tool.usages tools ∧ usage.direction = .input ∧ usage.name = parameter

/-- Whatever takes a parameter in has one source for it, and whoever reads one has a step. The
workflow gives what nobody writes and takes back what nobody reads. -/
structure Sourced (d : Document) (workflow : String) (tools : List Tool) : Prop where
  steps : ∀ step ∈ d.nodes, step.hasType "HowToStep" = true →
    ∃ tool ∈ d.nodes, ∃ function, d.StepSourced workflow tools step tool function
  readers : ∀ use ∈ Tool.usages tools, use.2.direction = .input →
    ∃ step ∈ d.nodes, step.hasType "HowToStep" = true ∧ step.id = stepId workflow use.1
  filled : d.Fills (d.linksAt workflow "connection") (d.linksAt workflow "output")
  given : ListsPorts workflow .orchestrator (d.linksAt workflow "input") fun parameter =>
    (∃ use ∈ Tool.usages tools, use.2.name = parameter) ∧
      ∀ use ∈ Tool.usages tools, use.2.name = parameter → use.2.direction ≠ .output
  returned : ListsPorts workflow .orchestrator (d.linksAt workflow "output") fun parameter =>
    (∃ use ∈ Tool.usages tools, use.2.name = parameter) ∧
      ∀ use ∈ Tool.usages tools, use.2.name = parameter → use.2.direction ≠ .input

end Document

namespace Draft

variable {d after : Draft} {settings : Settings} {summary : Summary} {summaries : List Summary} {site : Site}
  {port : Port} {source name : String}

/-- The connections of a site lead into its ports in order, and no two ports have one name. -/
structure Even (d : Draft) : Prop where
  matched : ∀ site : Site, (d.part site).connections.map Connection.target = (site.targets (d.part site)).map Port.name
  distinct : ∀ site : Site, ((site.targets (d.part site)).map Port.name).Nodup

private theorem Even.takes_iff (even : d.Even) :
    d.Takes site name ↔ ∃ connection ∈ (d.part site).connections, connection.target = name := by
  rw [Takes, ← even.matched, List.mem_map]

private theorem Even.addSource (even : d.Even) (site : Site) (port : Port) : (d.addSource site port).Even where
  matched := by
    intro other
    rw [connections_addSource, targets_addSource]
    exact even.matched other
  distinct := by
    intro other
    rw [targets_addSource]
    exact even.distinct other

/-- A connection keeps a draft even, unless the port has another source already. -/
private theorem Even.connectTo (even : d.Even)
    (one : ∀ connection ∈ (d.part site).connections, connection.target = port.name → connection.source = source) :
    (d.connectTo site source port).Even := by
  have known : Connection.mk source port.name ∈ (d.part site).connections ↔
      port.name ∈ (site.targets (d.part site)).map Port.name := by
    rw [← even.matched, List.mem_map]
    constructor
    · exact fun member => ⟨_, member, rfl⟩
    · intro ⟨⟨from', target⟩, member, same⟩
      have same : target = port.name := same
      have start : from' = source := one _ member same
      rwa [start, same] at member
  refine ⟨fun other => ?_, fun other => ?_⟩
  · rw [connections_connectTo, targets_connectTo]
    by_cases same : site = other
    · subst same
      rw [if_pos rfl, names_addPort]
      -- A known port has its connection already, and a new port comes with its own.
      by_cases old : port.name ∈ (site.targets (d.part site)).map Port.name
      · rw [if_neg fun new => new.2 (known.2 old), if_pos old]
        exact even.matched site
      · rw [if_pos ⟨rfl, fun stored => old (known.1 stored)⟩, if_neg old, List.map_append, even.matched]
        rfl
    · rw [if_neg fun new => same new.1, if_neg same]
      exact even.matched other
  · rw [targets_connectTo]
    split
    next =>
      rw [names_addPort]
      split
      next => exact even.distinct site
      next new => exact List.concat_eq_append ▸ (even.distinct site).concat new
    next => exact even.distinct other

private theorem Even.connectAll {port : Site → Port} {targets : List Site} (even : d.Even) (one : ∀ site,
    ∀ connection ∈ (d.part site).connections, connection.target = (port site).name → connection.source = source) :
    (targets.foldl (fun draft target => draft.connectTo target source (port target)) d).Even := by
  induction targets generalizing d with
  | nil => exact even
  | cons target rest ih =>
    refine ih (even.connectTo (one target)) fun site connection member same => ?_
    rcases mem_connectTo.1 member with old | ⟨_, new⟩
    · exact one site connection old same
    · rw [new]

private theorem Even.addSources {port : Site → Port} (even : d.Even) (sources : List Site) :
    (sources.foldl (fun draft source => draft.addSource source (port source)) d).Even := by
  induction sources generalizing d with
  | nil => exact even
  | cons source rest ih => exact ih (even.addSource source _)

/-- A parameter that has no port anywhere yet keeps a draft even. -/
private theorem Even.addParameter (even : d.Even) (added : d.addParameter settings summary = .ok after)
    (fresh : ∀ site, ∀ connection ∈ (d.part site).connections, connection.target ≠ (portOf summary site).name) :
    after.Even := by
  rw [addParameter_eq added]
  apply (even.addSources (sitesOf summary.output)).connectAll
  intro site connection member same
  rw [connections_addSources] at member
  exact absurd same (fresh site connection member)

private theorem portName_inj {first second : Summary} (site : Site)
    (same : (portOf first site).name = (portOf second site).name) : first.name = second.name :=
  (String.append_right_inj _).1 same

private theorem Even.addParameters (even : d.Even) (distinct : (summaries.map Summary.name).Nodup)
    (added : summaries.foldlM (Draft.addParameter settings) d = .ok after) (fresh : ∀ summary ∈ summaries, ∀ site,
      ∀ connection ∈ (d.part site).connections, connection.target ≠ (portOf summary site).name) : after.Even := by
  induction summaries generalizing d with
  | nil =>
    cases added
    exact even
  | cons summary rest ih =>
    rw [List.foldlM_cons] at added
    obtain ⟨middle, first, later⟩ := Outcome.bind_eq_ok.1 added
    obtain ⟨new, others⟩ := List.nodup_cons.1 distinct
    obtain ⟨own, behind⟩ := List.forall_mem_cons.1 fresh
    refine ih (even.addParameter first own) others later fun other listed site connection member same => ?_
    -- What was there before does not end in a port of this parameter, and what the first
    -- parameter added ends in a port of another name.
    rcases (mem_addParameter first).1 member with old | ⟨_, made⟩
    · exact behind other listed site connection old same
    · rw [made] at same
      exact new (portName_inj site same ▸ List.mem_map_of_mem listed)

private theorem feeds_connectAll {port : Site → Port} {targets : List Site} :
    (targets.foldl (fun draft target => draft.connectTo target source (port target)) d).Feeds site name ↔
      d.Feeds site name := by
  induction targets generalizing d with
  | nil => exact Iff.rfl
  | cons target rest ih => exact ih.trans feeds_connectTo

private theorem feeds_addSources {port : Site → Port} {sources : List Site} :
    (sources.foldl (fun draft source => draft.addSource source (port source)) d).Feeds site name ↔
      d.Feeds site name ∨ site ∈ sources ∧ name = (port site).name := by
  induction sources generalizing d with
  | nil => simp
  | cons source rest ih =>
    rw [List.foldl_cons, ih, feeds_addSource, or_assoc, List.mem_cons, or_and_right, eq_comm (a := site)]
    apply or_congr_right
    apply or_congr_left
    apply and_congr_right
    intro same
    rw [same]

private theorem feeds_addParameter (added : d.addParameter settings summary = .ok after) : after.Feeds site name ↔
    d.Feeds site name ∨ site ∈ sitesOf summary.output ∧ name = (portOf summary site).name := by
  rw [addParameter_eq added, feeds_connectAll, feeds_addSources]

private theorem feeds_addParameters (added : summaries.foldlM (Draft.addParameter settings) d = .ok after) :
    after.Feeds site name ↔ d.Feeds site name ∨
      ∃ summary ∈ summaries, site ∈ sitesOf summary.output ∧ name = (portOf summary site).name := by
  induction summaries generalizing d with
  | nil =>
    cases added
    simp
  | cons summary rest ih =>
    rw [List.foldlM_cons] at added
    obtain ⟨middle, first, later⟩ := Outcome.bind_eq_ok.1 added
    rw [ih later, feeds_addParameter first, or_assoc, List.exists_mem_cons_iff]

private theorem ofSequence_bare (entries : List SequenceEntry) (site : Site) :
    site.targets ((ofSequence entries).part site) = [] ∧ site.sources ((ofSequence entries).part site) = [] := by
  obtain ⟨description, same⟩ := describe_part (entries.filterMap SequenceEntry.compute?) Prod.snd
    (fun item => some (item.2 ++ " function of " ++ item.1)) {} site
  have part : (ofSequence entries).part site = _ := same
  rw [part]
  cases site <;> exact ⟨rfl, rfl⟩

private theorem Even.ofSequence (entries : List SequenceEntry) : (ofSequence entries).Even := by
  refine ⟨fun site => ?_, fun site => ?_⟩
  · rw [ofSequence_unconnected, (ofSequence_bare entries site).1]
    rfl
  · rw [(ofSequence_bare entries site).1]
    exact List.nodup_nil

variable {draft : Draft} {document : Document}

/-- The connections of a site fill its ports. -/
private theorem fills_site (even : draft.Even) (made : draft.document settings = .ok document) (site : Site)
    (known : draft.Knows site) :
    document.Fills (document.linksAt (partId settings.workflow site) "connection")
      (document.takesAt settings.workflow site) := by
  have injective : Function.Injective (localId settings.workflow) := fun _ _ => localId_inj
  have ports : document.takesAt settings.workflow site =
      ((site.targets (draft.part site)).map Port.name).map (localId settings.workflow) := by
    rw [takesAt_eq made site known, List.map_map]
    rfl
  refine ⟨?_, ?_, ?_⟩
  · obtain ⟨taken, listed, _⟩ := connections_numbered made known
    rw [listed]
    exact connectionIds_nodup _ _ _
  · rw [ports]
    exact (even.distinct site).map injective
  · calc (document.linksAt (partId settings.workflow site) "connection").map (document.linkAt · "targetParameter")
      _ = (document.connectionsAt (partId settings.workflow site)).map Prod.snd := by
        rw [Document.connectionsAt, List.map_map]
        rfl
      _ = ((draft.part site).connections.map (Connection.ends settings.workflow)).map Prod.snd := by
        rw [connectionsAt_part made known]
      _ = ((draft.part site).connections.map Connection.target).map (some ∘ localId settings.workflow) := by
        rw [List.map_map, List.map_map]
        rfl
      _ = (document.takesAt settings.workflow site).map some := by
        rw [even.matched, ports, ← List.map_map]

end Draft

variable {registry : Registry} {results : List Summary} {parameter : String}

private theorem users_eq_nil_iff {tools : List Tool} {direction : Direction} :
    Registry.users (Tool.declaredFunctions tools) direction parameter = [] ↔
      ∀ use ∈ Tool.usages tools, use.2.name = parameter → use.2.direction ≠ direction := by
  rw [List.eq_nil_iff_forall_not_mem]
  simp only [mem_users]
  constructor
  · intro none use member name way
    exact none use.1 ⟨use.2, member, way, name⟩
  · intro unused function ⟨usage, member, way, name⟩
    exact unused _ member name way

/-- What holds of the users in a summary holds of a parameter that is used. -/
theorem summarized_iff (made : registry.summaries = .ok results) (holds : List String → List String → Prop) :
    (∃ result ∈ results, holds result.input result.output ∧ result.name = parameter) ↔
      (∃ use ∈ Tool.usages registry.tools, use.2.name = parameter) ∧
        holds (Registry.users (Tool.declaredFunctions registry.tools) .input parameter)
          (Registry.users (Tool.declaredFunctions registry.tools) .output parameter) := by
  constructor
  · intro ⟨result, member, held, name⟩
    obtain ⟨known, _, used, rfl⟩ := (Registry.mem_summaries made).1 member
    have name : known.name = parameter := name
    subst name
    exact ⟨List.mem_map.1 used, held⟩
  · intro ⟨⟨use, member, name⟩, held⟩
    have used : parameter ∈ (Tool.usages registry.tools).map fun use => use.2.name := List.mem_map.2 ⟨use, member, name⟩
    obtain ⟨known, declared, same⟩ := List.mem_map.1 (name ▸ registry.declared use member)
    subst same
    exact ⟨_, (Registry.mem_summaries made).2 ⟨known, declared, used, rfl⟩, held, rfl⟩

/-- Each parameter has one summary. -/
theorem summaries_distinct (made : registry.summaries = .ok results) : (results.map Summary.name).Nodup := by
  unfold Registry.summaries at made
  dsimp only at made
  split at made
  · cases made
  · cases made
    rw [List.map_filterMap]
    apply (nodup_eraseDups _).filterMap
    have own : ∀ name other, other ∈ ((registry.parameter? name).map
        (Registry.summary (Tool.declaredFunctions registry.tools))).map Summary.name → name = other := by
      intro name other found
      rw [Option.mem_def, Option.map_map, Option.map_eq_some_iff] at found
      obtain ⟨known, looked, rfl⟩ := found
      exact (Registry.parameter?_eq_some_iff.1 looked).2.symm
    intro first second name found again
    exact (own first name found).trans (own second name again).symm

private theorem Document.listsPorts {workflow : String} {site : Site} {ports : List Port} {holds : Summary → Prop}
    (listed : ∀ name, name ∈ ports.map Port.name ↔ ∃ result ∈ results, holds result ∧ name = (portOf result site).name) :
    ListsPorts workflow site (ports.map fun port => localId workflow port.name) fun parameter =>
      ∃ result ∈ results, holds result ∧ result.name = parameter where
  parameters := by
    intro parameter
    have injective : Function.Injective (localId workflow) := fun _ _ => localId_inj
    rw [← Function.comp_def (localId workflow), ← List.map_map, List.mem_map_of_injective injective, listed]
    simp only [portOf, String.append_right_inj, eq_comm]
  only := by
    intro id member
    obtain ⟨port, inside, rfl⟩ := List.mem_map.1 member
    obtain ⟨result, _, _, same⟩ := (listed port.name).1 (List.mem_map_of_mem inside)
    exact ⟨result.name, by rw [same]; rfl⟩

private theorem Document.ListsPorts.congr {workflow : String} {site : Site} {ids : List String}
    {listed other : String → Prop}
    (lists : ListsPorts workflow site ids listed) (same : ∀ parameter, listed parameter ↔ other parameter) :
    ListsPorts workflow site ids other :=
  ⟨fun parameter => (lists.parameters parameter).trans (same parameter), lists.only⟩

namespace Draft

variable {draft : Draft} {document : Document} {settings : Settings} {entries : List SequenceEntry} {site : Site}

/-- The draft of summaries is even, and its ports are those of the summaries. -/
private theorem drafted_even (made : registry.summaries = .ok results)
    (drafted : results.foldlM (addParameter settings) (ofSequence entries) = .ok draft) : draft.Even := by
  refine (Even.ofSequence entries).addParameters (summaries_distinct made) drafted ?_
  intro _ _ site connection member
  rw [ofSequence_unconnected] at member
  cases member

private theorem drafted_takes (made : registry.summaries = .ok results)
    (drafted : results.foldlM (addParameter settings) (ofSequence entries) = .ok draft) (site : Site) (name : String) :
    name ∈ (site.targets (draft.part site)).map Port.name ↔
      ∃ result ∈ results, site ∈ targetsOf result ∧ name = (portOf result site).name := by
  have taken : name ∈ (site.targets (draft.part site)).map Port.name ↔ _ := (drafted_even made drafted).takes_iff
  rw [taken]
  simp only [mem_addParameters drafted, ofSequence_unconnected, List.not_mem_nil, false_or]
  constructor
  · intro ⟨_, ⟨result, member, place, made⟩, same⟩
    rw [made] at same
    exact ⟨result, member, place, same.symm⟩
  · intro ⟨result, member, place, same⟩
    exact ⟨_, ⟨result, member, place, rfl⟩, same.symm⟩

private theorem drafted_feeds (drafted : results.foldlM (addParameter settings) (ofSequence entries) = .ok draft)
    (site : Site) (name : String) : name ∈ (site.sources (draft.part site)).map Port.name ↔
      ∃ result ∈ results, site ∈ sitesOf result.output ∧ name = (portOf result site).name := by
  have given : draft.Feeds site name ↔ _ := feeds_addParameters drafted
  rw [Feeds, Feeds, (ofSequence_bare entries site).2, List.map_nil] at given
  simpa using given

private theorem step_sourced (made : registry.summaries = .ok results)
    (drafted : results.foldlM (addParameter settings) (ofSequence entries) = .ok draft)
    (emitted : draft.document settings = .ok document) {step : Node} (member : step ∈ document.nodes)
    (typed : step.hasType "HowToStep" = true) :
    ∃ tool ∈ document.nodes, ∃ function, document.StepSourced settings.workflow registry.tools step tool function := by
  have collects := Document.ofNodes_collects emitted
  obtain ⟨function, known, own⟩ := step_of_typed (collects.only step member) typed
  obtain ⟨position, ids, written⟩ := stepNode_emitted settings known
  obtain ⟨tool, stored, named, application⟩ := tool_stored emitted known
  refine ⟨tool, stored, function, own, application, ?_, ?_, ?_⟩
  · have works : _ = (stepNode settings.workflow function position ids).property? "workExample" :=
      collects.property?_eq written
    have same : (stepNode settings.workflow function position ids).id = step.id := own.symm
    rw [same, Document.node?_of_mem collects.distinct member, (stepNode_properties _ _ _ _).2, ← named] at works
    exact works
  · rw [own, named]
    exact fills_site (drafted_even made drafted) emitted (.step function) known
  · rw [named]
    have listed : document.linksAt (localId settings.workflow function) "input" = _ :=
      takesAt_eq emitted (.step function) known
    rw [listed]
    refine (Document.listsPorts (drafted_takes made drafted _)).congr fun parameter => ?_
    simp only [targetsOf_eq, step_mem_sitesOf]
    rw [summarized_iff made (fun input _ => function ∈ input), mem_users]
    constructor
    · exact fun both => both.2
    · intro ⟨usage, used, way, name⟩
      exact ⟨⟨_, used, name⟩, usage, used, way, name⟩

/-- A function that reads a parameter is a step. -/
private theorem reader_stepped (made : registry.summaries = .ok results)
    (drafted : results.foldlM (addParameter settings) (ofSequence entries) = .ok draft)
    (emitted : draft.document settings = .ok document) {use : String × Usage} (member : use ∈ Tool.usages registry.tools)
    (reads : use.2.direction = .input) :
    ∃ step ∈ document.nodes, step.hasType "HowToStep" = true ∧ step.id = stepId settings.workflow use.1 := by
  have user : use.1 ∈ Registry.users (Tool.declaredFunctions registry.tools) .input use.2.name :=
    mem_users.2 ⟨use.2, member, reads, rfl⟩
  obtain ⟨result, listed, reader, _⟩ := (summarized_iff made fun input _ => use.1 ∈ input).2 ⟨⟨use, member, rfl⟩, user⟩
  have target : Site.step use.1 ∈ targetsOf result := by
    rw [targetsOf_eq]
    exact step_mem_sitesOf.2 reader
  have takes : draft.Takes (.step use.1) _ := (drafted_takes made drafted _ _).2 ⟨result, listed, target, rfl⟩
  obtain ⟨position, ids, written⟩ := stepNode_emitted settings takes.knows
  obtain ⟨step, stored, own, same⟩ := (Document.ofNodes_collects emitted).stored written
  refine ⟨step, stored, ?_, own⟩
  rw [Node.hasType, same.types]
  rfl

private theorem document_sourced (made : registry.summaries = .ok results)
    (drafted : results.foldlM (addParameter settings) (ofSequence entries) = .ok draft)
    (emitted : draft.document settings = .ok document) : document.Sourced settings.workflow registry.tools where
  steps := fun _ member typed => step_sourced made drafted emitted member typed
  readers := fun _ member reads => reader_stepped made drafted emitted member reads
  filled := fills_site (drafted_even made drafted) emitted .orchestrator trivial
  given := by
    have listed : document.linksAt settings.workflow "input" = _ := offersAt_eq emitted .orchestrator trivial
    rw [listed]
    refine (Document.listsPorts (drafted_feeds drafted _)).congr fun parameter => ?_
    simp only [orchestrator_mem_sitesOf]
    rw [summarized_iff made (fun _ output => output = []), users_eq_nil_iff]
  returned := by
    have listed : document.linksAt settings.workflow "output" = _ := takesAt_eq emitted .orchestrator trivial
    rw [listed]
    refine (Document.listsPorts (drafted_takes made drafted _)).congr fun parameter => ?_
    simp only [targetsOf_eq, orchestrator_mem_sitesOf]
    rw [summarized_iff made (fun input _ => input = []), users_eq_nil_iff]

end Draft

/-- In the graph of a registry every parameter that is taken in has exactly one source. -/
theorem registry_graphs_source_each_parameter (registry : Registry) (settings : Settings) (d : Document)
    (built : Document.ofRegistry registry settings = .ok d) : d.Sourced settings.workflow registry.tools := by
  obtain ⟨_, _, _, _, summarized, drafted, emitted⟩ := Document.ofRegistry_eq_ok.1 built
  exact Draft.document_sourced summarized drafted emitted

theorem rewriting_graph_sources_each_parameter :
    ∃ registry d, rewritingManifest.registry = .ok registry ∧ Document.ofRegistry registry lastWriterSettings = .ok d ∧
      d.Sourced lastWriterSettings.workflow registry.tools ∧
      d.linksAt "wf#show" "input" = ["wf#show/text", "wf#show/size"] ∧
      d.linksAt "wf" "input" = ["wf#main/raw", "wf#main/size"] ∧ d.linksAt "wf" "output" = ["wf#main/report"] := by
  have shown : (rewritingManifest.registry >>= fun registry =>
      Document.ofRegistry registry lastWriterSettings).toOption.map (fun d =>
        (d.linksAt "wf#show" "input", d.linksAt "wf" "input", d.linksAt "wf" "output")) =
      some (["wf#show/text", "wf#show/size"], ["wf#main/raw", "wf#main/size"], ["wf#main/report"]) := by decide +kernel
  obtain ⟨d, built, lists⟩ := Option.map_eq_some_iff.1 shown
  obtain ⟨registry, made, built⟩ := Outcome.bind_eq_ok.1 (Outcome.toOption_eq_some.1 built)
  obtain ⟨step, lists⟩ := Prod.mk.inj lists
  obtain ⟨given, returned⟩ := Prod.mk.inj lists
  exact ⟨registry, d, made, built, registry_graphs_source_each_parameter _ _ _ built, step, given, returned⟩

end Provenance.Graph
