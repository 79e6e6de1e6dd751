import Provenance.Proofs.DocumentFlow
import Provenance.Proofs.RegistryFiles

/-! The graph of a registry against the inferred transfers. The graph connects the
functions that its summaries name, and inference moves the files that it finds used.
For a file both come to the same connections. -/

namespace Provenance.Graph

open TransferPlan (reads writes used)

theorem stepId_inj {workflow first second : String} (same : stepId workflow first = stepId workflow second) :
    first = second := by
  unfold stepId localId at same
  exact (String.append_right_inj _).1 ((String.append_right_inj _).1 same)

theorem stepId_ne (workflow step : String) : stepId workflow step ≠ workflow := by
  intro same
  have lengths := congrArg String.length same
  have mark : "#".length = 1 := rfl
  simp only [stepId, localId, String.length_append, mark] at lengths
  omega

private theorem languageNode_unattached (language : Language) :
    (languageNode language).property? "connection" = none := by
  obtain ⟨id, name, url, version⟩ := language
  cases url <;> cases version <;> rfl

private theorem portNode_unattached (workflow : String) (port : Port) :
    (portNode workflow port).property? "connection" = none := by
  obtain ⟨name, type, format⟩ := port
  cases format <;> rfl

private theorem toolNode_unattached (workflow step : String) (part : Part) :
    (toolNode workflow step part).property? "connection" = none := by
  obtain ⟨description, inputs, outputs, connections⟩ := part
  cases description <;> rfl

namespace Draft

variable {draft : Draft} {settings : Settings} {d : Document} {node : Node}

/-- Only the workflow and the steps have connections attached to them. -/
theorem attached_to_part (member : node ∈ draft.nodes settings) {property : Property}
    (attached : node.property? "connection" = some property) :
    ∃ site, draft.Knows site ∧ node.id = partId settings.workflow site := by
  cases emitted_of_mem member with
  | workflow => exact ⟨.orchestrator, trivial, rfl⟩
  | @step entry _ _ split =>
    have known : entry.1 ∈ draft.steps.keys := List.mem_map_of_mem (by simp [split])
    exact ⟨.step entry.1, known, rfl⟩
  | connection listed | stepConnection _ listed =>
    obtain ⟨_, _, rfl⟩ := List.mem_map.1 listed
    cases attached
  | language => cases (languageNode_unattached _).symm.trans attached
  | port _ _ => cases (portNode_unattached _ _).symm.trans attached
  | tool _ => cases (toolNode_unattached _ _ _).symm.trans attached
  | descriptor | root | profile _ => cases attached

private theorem connectionsAt_unknown (made : draft.document settings = .ok d) {step : String}
    (unknown : step ∉ draft.steps.keys) : d.connectionsAt (stepId settings.workflow step) = [] := by
  have none : d.linksAt (stepId settings.workflow step) "connection" = [] := by
    rw [Document.linksAt]
    cases found : d.node? (stepId settings.workflow step) with
    | none => rfl
    | some node =>
      obtain ⟨member, same⟩ := Document.mem_of_node? found
      cases attached : node.property? "connection" with
      | none => simp [attached]
      | some property =>
        obtain ⟨site, known, id⟩ := attached_to_part ((Document.ofNodes_collects made).only node member) attached
        rw [same] at id
        cases site with
        | orchestrator => exact absurd id (stepId_ne _ _)
        | step name => exact absurd (stepId_inj id ▸ known) unknown
  rw [Document.connectionsAt, none, List.map_nil]

/-- A site that a draft does not know has no connections in the document either. -/
private theorem connectionsAt_site (made : draft.document settings = .ok d) (site : Site) :
    d.connectionsAt (partId settings.workflow site) =
      (draft.part site).connections.map (Connection.ends settings.workflow) := by
  by_cases known : draft.Knows site
  · exact connectionsAt_part made known
  · rw [part_unknown known]
    cases site with
    | orchestrator => exact absurd trivial known
    | step name => exact connectionsAt_unknown made known

end Draft

/-- Where the data of a parameter comes from. -/
def sourceOf (summary : Summary) : Site :=
  match summary.output.getLast? with
  | some function => .step function
  | none => .orchestrator

/-- Where the data of a parameter goes to. -/
def targetsOf (summary : Summary) : List Site :=
  if summary.input.isEmpty then [.orchestrator] else summary.input.map .step

/-- The sites of some functions. The orchestrator stands in where there are none. -/
def sitesOf (functions : List String) : List Site := if functions = [] then [.orchestrator] else functions.map .step

theorem orchestrator_mem_sitesOf {functions : List String} : .orchestrator ∈ sitesOf functions ↔ functions = [] := by
  unfold sitesOf
  split
  next none => simp [none]
  next some => simp [some]

theorem step_mem_sitesOf {functions : List String} {name : String} : .step name ∈ sitesOf functions ↔ name ∈ functions := by
  unfold sitesOf
  split
  next none => simp [none]
  next => simp

theorem targetsOf_eq (summary : Summary) : targetsOf summary = sitesOf summary.input := by
  simp only [targetsOf, sitesOf, List.isEmpty_iff]

/-- The connection that takes a parameter from one site to another. -/
def passage (parameter : String) (source target : Site) : Connection :=
  ⟨source.name ++ "/" ++ parameter, target.name ++ "/" ++ parameter⟩

private theorem producerOf_eq {policy : ProducerPolicy} {summary : Summary} {producer : Option String}
    (chosen : producerOf policy summary = .ok producer) : producer = summary.output.getLast? := by
  unfold producerOf at chosen
  split at chosen
  · cases chosen
  · exact (Except.ok.inj chosen).symm

namespace Draft

variable {d after : Draft} {settings : Settings} {summary : Summary} {site : Site} {connection : Connection}

/-- Adding a parameter adds the ports that it comes from and connects one of them to each
port that it goes to. -/
theorem addParameter_eq (added : d.addParameter settings summary = .ok after) :
    after = (targetsOf summary).foldl
      (fun draft target => draft.connectTo target (portOf summary (sourceOf summary)).name (portOf summary target))
      ((sitesOf summary.output).foldl (fun draft source => draft.addSource source (portOf summary source)) d) := by
  obtain ⟨producer, chosen, rest⟩ := Outcome.bind_eq_ok.1 added
  have last := producerOf_eq chosen
  cases producer with
  | some function =>
    have written : summary.output ≠ [] := List.ne_nil_of_mem (producerOf_mem chosen)
    cases rest
    rw [sourceOf, ← last, sitesOf, if_neg written, List.foldl_map]
    rfl
  | none =>
    have unwritten : summary.output = [] := List.getLast?_eq_none_iff.1 last.symm
    cases rest
    rw [sourceOf, ← last, sitesOf, if_pos unwritten, unwritten]
    rfl

theorem connections_addSources {port : Site → Port} (sources : List Site) : ((sources.foldl
    (fun draft source => draft.addSource source (port source)) d).part site).connections =
      (d.part site).connections := by
  induction sources generalizing d with
  | nil => rfl
  | cons source rest ih => exact ih.trans connections_addSource

theorem mem_connectTo {source : String} {target : Site} {port : Port} :
    connection ∈ ((d.connectTo target source port).part site).connections ↔
      connection ∈ (d.part site).connections ∨ site = target ∧ connection = ⟨source, port.name⟩ := by
  rw [connections_connectTo]
  by_cases same : target = site
  · subst same
    by_cases old : Connection.mk source port.name ∈ (d.part target).connections
    · simp only [old, not_true, and_false, if_false, true_and]
      constructor
      · exact Or.inl
      · intro known
        exact known.elim id fun same => same ▸ old
    · simp [old]
  · simp [same, Ne.symm same]

private theorem mem_connectAll {source : String} {port : Site → Port} {targets : List Site} :
    connection ∈ ((targets.foldl (fun draft target => draft.connectTo target source (port target)) d).part
        site).connections ↔
      connection ∈ (d.part site).connections ∨ site ∈ targets ∧ connection = ⟨source, (port site).name⟩ := by
  induction targets generalizing d with
  | nil => simp
  | cons target rest ih =>
    rw [List.foldl_cons, ih, mem_connectTo, or_assoc, List.mem_cons, or_and_right]
    apply or_congr_right
    apply or_congr_left
    apply and_congr_right
    intro same
    rw [same]

/-- A parameter is connected from its last producer to everything that reads it. -/
theorem mem_addParameter (added : d.addParameter settings summary = .ok after) :
    connection ∈ (after.part site).connections ↔ connection ∈ (d.part site).connections ∨
      site ∈ targetsOf summary ∧ connection = passage summary.name (sourceOf summary) site := by
  rw [addParameter_eq added, mem_connectAll, connections_addSources]
  exact Iff.rfl

theorem mem_addParameters {summaries : List Summary} (added : summaries.foldlM (addParameter settings) d = .ok after) :
    connection ∈ (after.part site).connections ↔ connection ∈ (d.part site).connections ∨
      ∃ summary ∈ summaries, site ∈ targetsOf summary ∧ connection = passage summary.name (sourceOf summary) site := by
  induction summaries generalizing d with
  | nil =>
    cases added
    simp
  | cons summary rest ih =>
    rw [List.foldlM_cons] at added
    obtain ⟨middle, first, later⟩ := Outcome.bind_eq_ok.1 added
    rw [ih later, mem_addParameter first, or_assoc, List.exists_mem_cons_iff]

end Draft

/-- The site of the function at one end of a transfer. -/
def siteOfEnd : Option FileUsage → Site
  | some usage => .step usage.function
  | none => .orchestrator

variable {settings : Settings} {tools : List Tool} {moved : Transfer} {source target : Option FileUsage}
  {parameter : Parameter} {site : Site}

/-- A summary of a file starts where the transfers of the file start. -/
theorem sourceOf_summary (file : UsedAsFile tools parameter.name) :
    sourceOf (Registry.summary (Tool.declaredFunctions tools) parameter) =
      siteOfEnd (lastWriter? (writes tools) parameter.name) := by
  have last := TransferPlan.users_last file
  rw [sourceOf, Registry.summary, last]
  cases lastWriter? (writes tools) parameter.name <;> rfl

/-- Nobody reads a file exactly when no function has it as an input. -/
theorem unread_iff (file : UsedAsFile tools parameter.name) :
    parameter.name ∉ (reads tools).map FileUsage.parameter ↔
      (Registry.summary (Tool.declaredFunctions tools) parameter).input = [] := by
  rw [List.eq_nil_iff_forall_not_mem, List.mem_map]
  constructor
  · intro unread function user
    obtain ⟨usage, read, same, _⟩ := (TransferPlan.mem_users_iff file).1 user
    exact unread ⟨usage, read, same⟩
  · intro none ⟨usage, read, same⟩
    exact none usage.function ((TransferPlan.mem_users_iff file).2 ⟨usage, read, same, rfl⟩)

private theorem named_of_used {direction : Direction} {usage : FileUsage} (file : UsedAsFile tools parameter.name)
    (member : usage ∈ used direction tools) (same : usage.parameter = parameter.name) :
    parameter.name ∈ (Tool.usages tools).map fun use => use.2.name :=
  TransferPlan.name_used_iff.2 ⟨direction, _, (TransferPlan.mem_users_iff file).2 ⟨usage, member, same, rfl⟩⟩

/-- There is a summary that goes to a site exactly when a transfer of the file goes there. -/
theorem mem_targetsOf_summary (settings : Settings) (file : UsedAsFile tools parameter.name) :
    parameter.name ∈ (Tool.usages tools).map (fun use => use.2.name) ∧
        site ∈ targetsOf (Registry.summary (Tool.declaredFunctions tools) parameter) ↔
      ∃ moved source target, Moves settings tools moved source target ∧ moved.parameter = parameter.name ∧
        site = siteOfEnd target := by
  rw [targetsOf_eq]
  constructor
  · intro ⟨named, member⟩
    cases site with
    | orchestrator =>
      -- Nobody reads the file, so whoever uses it writes it, and the last writer returns it.
      have unread := orchestrator_mem_sitesOf.1 member
      obtain ⟨direction, function, user⟩ := TransferPlan.name_used_iff.1 named
      cases direction with
      | input => exact absurd user (List.eq_nil_iff_forall_not_mem.1 unread function)
      | output =>
        obtain ⟨usage, written, same, _⟩ := (TransferPlan.mem_users_iff file).1 user
        obtain ⟨producer, last⟩ := lastWriter?_of_mem written
        have name := (lastWriter?_mem last).2
        rw [← name] at last
        rw [← name] at same
        refine ⟨_, _, none, .outbound last ?_, same, rfl⟩
        rw [same]
        exact (unread_iff file).2 unread
    | step function =>
      obtain ⟨consumer, read, same, rfl⟩ := (TransferPlan.mem_users_iff file).1 (step_mem_sitesOf.1 member)
      have moves : Moves settings tools _ _ _ := Moves.into read
      exact ⟨_, _, _, moves, moves.parameter_of_target.trans same, rfl⟩
  · intro ⟨moved, source, target, moves, same, place⟩
    subst place
    cases target with
    | none =>
      obtain ⟨producer, rfl, _, _, _⟩ := moves.out_eq
      obtain ⟨written, name⟩ := moves.written
      refine ⟨named_of_used file written (name.symm.trans same), ?_⟩
      have unread := moves.unread
      rw [same] at unread
      exact orchestrator_mem_sitesOf.2 ((unread_iff file).1 unread)
    | some consumer =>
      have read := moves.into_eq.1
      have name := moves.parameter_of_target.symm.trans same
      refine ⟨named_of_used file read name, step_mem_sitesOf.2 ?_⟩
      exact (TransferPlan.mem_users_iff file).2 ⟨consumer, read, name, rfl⟩

/-- The transfers of a file all start where its summary starts. -/
theorem source_of_moves (file : UsedAsFile tools parameter.name)
    (moves : Moves settings tools moved source target) (same : moved.parameter = parameter.name) :
    siteOfEnd source = sourceOf (Registry.summary (Tool.declaredFunctions tools) parameter) := by
  rw [sourceOf_summary file, moves.source_eq, same]

/-- A connection that is attached to a site and ends in a parameter there. -/
def Document.Connects (d : Document) (workflow : String) (site : Site) (parameter : String)
    (ends : Option String × Option String) : Prop :=
  ends ∈ d.connectionsAt (partId workflow site) ∧ ends.2 = some (localId workflow (site.name ++ "/" ++ parameter))

/-- Every connection of a graph is attached to a site and ends in a declared parameter,
and a file is connected as the transfers of it move it. -/
structure Document.Mirrors (d : Document) (settings : Settings) (manifest : Manifest) (tools : List Tool)
    (plan : TransferPlan) : Prop where
  attached : ∀ node ∈ d.nodes, node.hasType "ParameterConnection" = true →
    ∃ site, node.id ∈ d.linksAt (partId settings.workflow site) "connection"
  declared : ∀ site, ∀ ends ∈ d.connectionsAt (partId settings.workflow site),
    ∃ entry ∈ manifest.parameters, d.Connects settings.workflow site entry.name ends
  moved : ∀ entry ∈ manifest.parameters, entry.type = "file" → ∀ site ends,
    d.Connects settings.workflow site entry.name ends ↔
      ∃ moved ∈ plan.toList, moved.parameter = entry.name ∧
        ∃ source target, Moves settings tools moved source target ∧ site = siteOfEnd target ∧
          ends = (passage entry.name (siteOfEnd source) site).ends settings.workflow

theorem localId_inj {workflow first second : String} (same : localId workflow first = localId workflow second) :
    first = second :=
  (String.append_right_inj _).1 same

/-- The connections of a registry's graph are those of its summaries. -/
theorem Document.ofRegistry_connections {registry : Registry} {d : Document}
    (built : Document.ofRegistry registry settings = .ok d) :
    ∃ plan summaries, TransferPlan.infer registry.tools settings = .ok plan ∧ registry.summaries = .ok summaries ∧
      (∀ node ∈ d.nodes, node.hasType "ParameterConnection" = true →
        ∃ site, node.id ∈ d.linksAt (partId settings.workflow site) "connection") ∧
      ∀ site ends, ends ∈ d.connectionsAt (partId settings.workflow site) ↔
        ∃ summary ∈ summaries, site ∈ targetsOf summary ∧
          ends = (passage summary.name (sourceOf summary) site).ends settings.workflow := by
  obtain ⟨plan, summaries, draft, inferred, summarized, drafted, made⟩ := Document.ofRegistry_eq_ok.1 built
  refine ⟨plan, summaries, inferred, summarized, ?_, ?_⟩
  · intro node member typed
    obtain ⟨site, _, listed⟩ := Draft.connection_listed made member typed
    exact ⟨site, listed⟩
  · intro site ends
    rw [Draft.connectionsAt_site made, List.mem_map]
    simp only [Draft.mem_addParameters drafted, Draft.ofSequence_unconnected, List.not_mem_nil, false_or]
    constructor
    · intro ⟨connection, ⟨summary, member, place, same⟩, equal⟩
      exact ⟨summary, member, place, by rw [← equal, same]⟩
    · intro ⟨summary, member, place, same⟩
      exact ⟨_, ⟨summary, member, place, rfl⟩, same.symm⟩

/-- The graph of a manifest connects a file from the function that last writes it to
each one that reads it, just as the transfers of the file are inferred. -/
theorem manifest_graphs_mirror_the_transfers (manifest : Manifest) (settings : Settings) (registry : Registry)
    (d : Document) (made : manifest.registry = .ok registry) (built : Document.ofRegistry registry settings = .ok d) :
    ∃ plan, TransferPlan.infer registry.tools settings = .ok plan ∧
      d.Mirrors settings manifest registry.tools plan := by
  obtain ⟨plan, summaries, inferred, summarized, attached, connections⟩ := Document.ofRegistry_connections built
  have parameters := (Manifest.registry_declared made).1
  refine ⟨plan, inferred, attached, ?_, ?_⟩
  · intro site ends member
    obtain ⟨summary, listed, place, same⟩ := (connections site ends).1 member
    obtain ⟨parameter, known, _, rfl⟩ := (Registry.mem_summaries summarized).1 listed
    rw [parameters] at known
    obtain ⟨entry, declared, rfl⟩ := List.mem_map.1 known
    exact ⟨entry, declared, member, by rw [same]; rfl⟩
  · intro entry declared type site ends
    have file : UsedAsFile registry.tools entry.parameter.name := Manifest.used_as_file made declared type
    have known : entry.parameter ∈ registry.parameters := by
      rw [parameters]
      exact List.mem_map_of_mem declared
    rw [Document.Connects, connections]
    constructor
    · intro ⟨⟨summary, listed, place, same⟩, ending⟩
      obtain ⟨parameter, _, named, rfl⟩ := (Registry.mem_summaries summarized).1 listed
      have name : parameter.name = entry.parameter.name := by
        rw [same] at ending
        exact (String.append_right_inj _).1 (localId_inj (Option.some.inj ending))
      rw [← name] at file
      obtain ⟨moved, source, target, moves, moving, rfl⟩ := (mem_targetsOf_summary settings file).1 ⟨named, place⟩
      have listed := (TransferPlan.mem_toList_iff inferred).2 ⟨source, target, moves⟩
      refine ⟨moved, listed, moving.trans name, source, target, moves, rfl, ?_⟩
      rw [same, source_of_moves file moves moving]
      exact congrArg (fun name => (passage name _ _).ends settings.workflow) name
    · intro ⟨moved, _, moving, source, target, moves, place, same⟩
      obtain ⟨named, goes⟩ := (mem_targetsOf_summary settings file).2 ⟨moved, source, target, moves, moving, place⟩
      have listed := (Registry.mem_summaries summarized).2 ⟨entry.parameter, known, named, rfl⟩
      refine ⟨⟨_, listed, goes, ?_⟩, ?_⟩
      · rw [same, source_of_moves file moves moving]
        rfl
      · rw [same]
        rfl

/-- Two functions write the text, the second of them twice and for itself as well. -/
def rewritingManifest : Manifest :=
  { parameters := [⟨"text", "file", some "txt"⟩, ⟨"raw", "file", none⟩, ⟨"report", "file", none⟩, ⟨"size", "int", none⟩]
    tools :=
      [{ name := "A", endpoint := "at A"
         functions := [{ name := "split", args := [⟨"raw", .input, none⟩], returns := [⟨"text", .output, none⟩] }] },
        { name := "B", endpoint := "at B"
          functions := [{ name := "show", args := [⟨"text", .input, some "in.txt"⟩, ⟨"size", .input, none⟩] }] },
        { name := "C", endpoint := "at C"
          functions :=
            [{ name := "sort", args := [⟨"text", .output, none⟩, ⟨"text", .input, none⟩]
               returns := [⟨"text", .output, none⟩, ⟨"report", .output, none⟩] }] }] }

def lastWriterSettings : Settings := { plainSettings with producerPolicy := .lastWriterWins }

theorem rewriting_graph_mirrors_the_transfers :
    ∃ registry d plan, rewritingManifest.registry = .ok registry ∧
      Document.ofRegistry registry lastWriterSettings = .ok d ∧
      TransferPlan.infer registry.tools lastWriterSettings = .ok plan ∧
      d.Mirrors lastWriterSettings rewritingManifest registry.tools plan ∧
      d.connectionsAt "wf#main/show" =
        [(some "wf#sort/text", some "wf#show/text"), (some "wf#main/size", some "wf#show/size")] := by
  have built : (rewritingManifest.registry >>= fun registry =>
      Document.ofRegistry registry lastWriterSettings).toOption.isSome = true := by decide
  have shown : (rewritingManifest.registry >>= fun registry =>
      Document.ofRegistry registry lastWriterSettings).toOption.map (fun d => d.connectionsAt "wf#main/show") =
      some [(some "wf#sort/text", some "wf#show/text"), (some "wf#main/size", some "wf#show/size")] := by decide
  obtain ⟨d, built⟩ := Outcome.ok_of_isSome built
  rw [built] at shown
  obtain ⟨registry, made, built⟩ := Outcome.bind_eq_ok.1 built
  obtain ⟨plan, inferred, mirrors⟩ :=
    manifest_graphs_mirror_the_transfers rewritingManifest lastWriterSettings registry d made built
  exact ⟨registry, d, plan, made, built, inferred, mirrors, Option.some.inj shown⟩

end Provenance.Graph
