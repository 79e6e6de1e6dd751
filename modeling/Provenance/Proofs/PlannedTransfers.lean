import Provenance.Proofs.DocumentPorts
import Provenance.Proofs.SequenceOrder
import Provenance.Proofs.SequenceReading
import Provenance.Proofs.ToolConnections

/-! Inferred transfers in the graph of the flow plan that runs them. The states of a plan
do not name the functions at the ends of a transfer, so the graph places the ends at the
functions that run next to it. -/

namespace Provenance

open Provenance.Flow (ComputeStep Step TransferStep computes)
open Provenance.Graph (Document Hop Site hops localId siteOfEnd)

variable {tools earlier later : List Tool} {tool : Tool} {settings : Settings} {plan : TransferPlan}
  {moved : Transfer} {entries before after : List SequenceEntry} {input : Json} {marker : String} {steps : List Step}

namespace TransferPlan

theorem place_of_tool (split : tools = earlier ++ tool :: later) (member : moved ∈ plan.forTool tool.name) :
    ∃ before after, plan.sequence tools = before ++ .transfer moved :: after ∧
      computed before = Tool.computes earlier ∧ computed after = Tool.computes (tool :: later) := by
  obtain ⟨ahead, behind, listed⟩ := List.append_of_mem member
  refine ⟨earlier.flatMap plan.entriesFor ++ ahead.map .transfer, behind.map .transfer ++
    (tool.entries ++ (later.flatMap plan.entriesFor ++ plan.trailing.map .transfer)), ?_, ?_, ?_⟩
  · simp [sequence, split, entriesFor_eq, listed]
  · rw [computed_append, computed_entriesFor, computed_transfers, List.append_nil]
  · simp only [computed_append, computed_transfers, computed_entries, computed_entriesFor, List.nil_append,
      List.append_nil]
    rfl

theorem place_of_trailing (member : moved ∈ plan.trailing) :
    ∃ before after, plan.sequence tools = before ++ .transfer moved :: after ∧
      computed before = Tool.computes tools ∧ computed after = [] := by
  obtain ⟨ahead, behind, listed⟩ := List.append_of_mem member
  refine ⟨tools.flatMap plan.entriesFor ++ ahead.map .transfer, behind.map .transfer, ?_, ?_, ?_⟩
  · simp [sequence, listed]
  · rw [computed_append, computed_entriesFor, computed_transfers, List.append_nil]
  · exact computed_transfers behind

end TransferPlan

private theorem computed_names_sublist (entries : List SequenceEntry) :
    ((computed entries).map Prod.snd).Sublist (entries.map SequenceEntry.stateName) := by
  induction entries with
  | nil => exact .slnil
  | cons entry rest ih =>
    cases entry with
    | compute tool function => exact ih.cons_cons function
    | transfer _ | capture _ _ => exact ih.cons _

theorem Tool.computes_names (tools : List Tool) :
    (Tool.computes tools).map Prod.snd = tools.flatMap Tool.functionNames := by
  simp [Tool.computes, List.map_flatMap, Function.comp_def]

private theorem forall₂_append_cons {α β : Type} {related : α → β → Prop} {first second : List α} {item : α}
    {others : List β} (pairs : List.Forall₂ related (first ++ item :: second) others) :
    ∃ ahead other behind, others = ahead ++ other :: behind ∧ List.Forall₂ related first ahead ∧
      related item other ∧ List.Forall₂ related second behind := by
  induction first generalizing others with
  | nil =>
    cases pairs with
    | cons same rest => exact ⟨[], _, _, rfl, .nil, same, rest⟩
  | cons head first ih =>
    cases pairs with
    | cons same rest =>
      obtain ⟨ahead, other, behind, split, left, pair, right⟩ := ih rest
      exact ⟨_ :: ahead, other, behind, by rw [split]; rfl, .cons same left, pair, right⟩

/-- The compute steps of some entries run the functions of the entries. -/
private theorem computes_of_reads (reads : List.Forall₂ (SequenceEntry.ReadsAs input)
    (entries.filter fun entry => entry.kept marker) steps) :
    (computes steps).map ComputeStep.name = (computed entries).map Prod.snd := by
  induction entries generalizing steps with
  | nil =>
    cases reads
    rfl
  | cons entry rest ih =>
    cases entry with
    | compute tool function =>
      rw [List.filter_cons_of_pos rfl] at reads
      cases reads with
      | @cons _ step _ _ own others =>
        cases step with
        | compute step => exact List.cons_eq_cons.2 ⟨own.1, ih others⟩
        | transfer step => cases own
    | transfer moved =>
      -- A transfer has a step or has none, and no function runs in either case.
      by_cases counted : (SequenceEntry.transfer moved).kept marker = true
      · rw [List.filter_cons_of_pos counted] at reads
        cases reads with
        | @cons _ step _ _ own others =>
          cases step with
          | compute step => cases own
          | transfer step =>
            have same := ih others
            exact same
      · rw [List.filter_cons_of_neg counted] at reads
        exact ih reads
    | capture function endpoint => exact ih reads

private theorem mem_hops {front back earlier : List Step} {step : TransferStep}
    (split : steps = front ++ .transfer step :: back) : Hop.mk (earlier ++ front) step back ∈ hops earlier steps := by
  subst split
  induction front generalizing earlier with
  | nil =>
    rw [List.append_nil]
    exact List.mem_cons_self
  | cons head front ih =>
    have moved : earlier ++ head :: front = (earlier ++ [head]) ++ front := by simp
    rw [moved]
    cases head with
    | compute head => exact ih
    | transfer head => exact List.mem_cons_of_mem _ ih

/-- The site in front of a place in a sequence, where a transfer from that place starts. -/
def siteBefore? (settings : Settings) (moved : Transfer) (before : List SequenceEntry) : Option Site :=
  if moved.source.endpoint = settings.orchestrator then some .orchestrator
  else ((computed before).map Prod.snd).getLast?.map .step

def siteAfter? (settings : Settings) (moved : Transfer) (after : List SequenceEntry) : Option Site :=
  if moved.destination.endpoint = settings.orchestrator then some .orchestrator
  else ((computed after).map Prod.snd).head?.map .step

/-- A transfer of a sequence has a hop between the functions next to it. -/
private theorem hop_of_reads (reads : List.Forall₂ (SequenceEntry.ReadsAs input)
      ((before ++ .transfer moved :: after).filter fun entry => entry.kept marker) steps)
    (counted : (SequenceEntry.transfer moved).kept marker = true) :
    ∃ hop ∈ hops [] steps, hop.source? settings = siteBefore? settings moved before ∧
      hop.destination? settings = siteAfter? settings moved after ∧
      ∃ item ∈ hop.transfer.items, item.sourcePath.text = moved.source.path ∧
        item.destinationPath.text = moved.destination.path := by
  rw [List.filter_append, List.filter_cons_of_pos counted] at reads
  obtain ⟨front, step, back, split, first, own, second⟩ := forall₂_append_cons reads
  cases step with
  | compute step => cases own
  | transfer step =>
    obtain ⟨_, source, destination, items⟩ := own
    refine ⟨⟨[] ++ front, step, back⟩, mem_hops split, ?_, ?_, ?_⟩
    · have text : step.sourceEndpoint.text = moved.source.endpoint := by
        rw [source]
        rfl
      rw [Hop.source?, siteBefore?, text, ← computes_of_reads first, List.getLast?_map, Option.map_map]
      rfl
    · have text : step.destinationEndpoint.text = moved.destination.endpoint := by
        rw [destination]
        rfl
      rw [Hop.destination?, siteAfter?, text, ← computes_of_reads second, List.head?_map, Option.map_map]
      rfl
    · rw [items]
      exact ⟨_, List.mem_singleton_self _, rfl, rfl⟩

/-- Files between functions are written by a tool declared before the one that reads them. -/
def WrittenByEarlierTools (tools : List Tool) : Prop :=
  ∀ consumer ∈ TransferPlan.reads tools, ∀ producer,
    lastWriter? (TransferPlan.writes tools) consumer.parameter = some producer →
    ∃ earlier tool later, tools = earlier ++ tool :: later ∧ consumer.function ∈ tool.functionNames ∧
      producer.function ∈ earlier.flatMap Tool.functionNames

/-- The generated plan of some tools can be read with every inferred transfer in it. -/
structure Replayed (tools : List Tool) (settings : Settings) (input : Json) (plan : TransferPlan) : Prop where
  inferred : TransferPlan.infer tools settings = .ok plan
  marker : settings.marker = some Flow.defaultMarker
  endpoints : ∀ tool ∈ TransferPlan.steps tools, tool.endpoint ≠ settings.orchestrator
  distinct : ((plan.sequence tools).map SequenceEntry.stateName).Nodup
  unmarked : ∀ moved ∈ plan.toList, ¬ Flow.defaultMarker.toList <:+: moved.stateName.toList
  ordered : WrittenByEarlierTools tools
  supplied : Supplies input (plan.sequence tools)

/-- The sites next to a transfer: the last function of the tools in front of the tool
it goes to, or of all tools, and the first function of the tool it goes to. -/
inductive Beside (tools : List Tool) : Option FileUsage → Option FileUsage → Site → Site → Prop where
  | peer {producer consumer : FileUsage} {earlier later : List Tool} {tool : Tool} {last first : String}
      (split : tools = earlier ++ tool :: later) (reads : consumer.function ∈ tool.functionNames)
      (behind : (earlier.flatMap Tool.functionNames).getLast? = some last)
      (ahead : tool.functionNames.head? = some first) :
      Beside tools (some producer) (some consumer) (.step last) (.step first)
  | inbound {consumer : FileUsage} {earlier later : List Tool} {tool : Tool} {first : String}
      (split : tools = earlier ++ tool :: later) (reads : consumer.function ∈ tool.functionNames)
      (ahead : tool.functionNames.head? = some first) :
      Beside tools none (some consumer) .orchestrator (.step first)
  | outbound {producer : FileUsage} {last : String}
      (behind : (tools.flatMap Tool.functionNames).getLast? = some last) :
      Beside tools (some producer) none (.step last) .orchestrator

theorem captures_marked (entries : List SequenceEntry) : CapturesMarked Flow.defaultMarker entries := by
  intro function endpoint _
  have inside : Flow.defaultMarker.toList <:+: "Transfer_provenance_".toList := by decide
  have front : "Transfer_provenance_".toList <+: (SequenceEntry.capture function endpoint).stateName.toList :=
    ⟨function.toList, String.toList_append.symm⟩
  exact inside.trans front.isInfix

private theorem Tool.functionNames_nodup (distinct : ((plan.sequence tools).map SequenceEntry.stateName).Nodup) :
    (tools.flatMap Tool.functionNames).Nodup := by
  have names := distinct.sublist (computed_names_sublist (plan.sequence tools))
  rw [TransferPlan.sequence, computed_append, TransferPlan.computed_entriesFor, computed_transfers, List.append_nil,
    Tool.computes_names] at names
  exact names

/-- The transfers into a function are grouped with those into its tool. -/
theorem Moves.mem_group (inferred : TransferPlan.infer tools settings = .ok plan)
    (functions : (tools.flatMap Tool.functionNames).Nodup) {source : Option FileUsage} {consumer : FileUsage}
    (moves : Moves settings tools moved source (some consumer)) (split : tools = earlier ++ tool :: later)
    (reads : consumer.function ∈ tool.functionNames) : moved ∈ plan.forTool tool.name := by
  obtain ⟨own, member, name, _, listed⟩ := moves.consumer_declared
  have inside : tool ∈ tools := by
    rw [split]
    exact List.mem_append_right _ List.mem_cons_self
  have same : tool = .provenance own := Tool.eq_of_function functions inside member reads listed
  rw [TransferPlan.mem_forTool_iff inferred, same]
  exact ⟨source, consumer, name, moves⟩

theorem Moves.endpoints {source target : Option FileUsage} (moves : Moves settings tools moved source target) :
    moved.source.endpoint = (source.map FileUsage.endpoint).getD settings.orchestrator ∧
      moved.destination.endpoint = (target.map FileUsage.endpoint).getD settings.orchestrator := by
  cases moves <;> exact ⟨rfl, rfl⟩

private theorem siteBefore?_function {part : List Tool} {last : String}
    (away : moved.source.endpoint ≠ settings.orchestrator)
    (runs : computed before = Tool.computes part) (behind : (part.flatMap Tool.functionNames).getLast? = some last) :
    siteBefore? settings moved before = some (.step last) := by
  rw [siteBefore?, if_neg away, runs, Tool.computes_names, behind, Option.map_some]

private theorem siteAfter?_function {first : String} (away : moved.destination.endpoint ≠ settings.orchestrator)
    (runs : computed after = Tool.computes (tool :: later)) (ahead : tool.functionNames.head? = some first) :
    siteAfter? settings moved after = some (.step first) := by
  rw [siteAfter?, if_neg away, runs, Tool.computes_names, List.flatMap_cons, List.head?_append, ahead, Option.some_or,
    Option.map_some]

private theorem exists_first {names : List String} {name : String} (member : name ∈ names) :
    ∃ first, names.head? = some first :=
  ⟨_, List.head?_eq_some_head (List.ne_nil_of_mem member)⟩

private theorem exists_last {names : List String} {name : String} (member : name ∈ names) :
    ∃ last, names.getLast? = some last :=
  ⟨_, List.getLast?_eq_some_getLast (List.ne_nil_of_mem member)⟩

namespace Replayed

/-- An end of a transfer at a function is not at the orchestrator. -/
private theorem away (replayed : Replayed tools settings input plan) {usage : FileUsage}
    (declared : usage.DeclaredIn tools) : usage.endpoint ≠ settings.orchestrator := by
  obtain ⟨tool, member, _, endpoint, _⟩ := declared
  rw [endpoint]
  exact replayed.endpoints tool (List.mem_filterMap.2 ⟨_, member, rfl⟩)

/-- A transfer stands in the sequence between the sites next to it. -/
private theorem place (replayed : Replayed tools settings input plan) {source target : Option FileUsage}
    {origin goal : Site}
    (moves : Moves settings tools moved source target) (beside : Beside tools source target origin goal) :
    ∃ before after, plan.sequence tools = before ++ .transfer moved :: after ∧
      siteBefore? settings moved before = some origin ∧ siteAfter? settings moved after = some goal := by
  have functions := Tool.functionNames_nodup replayed.distinct
  obtain ⟨start, finish⟩ := moves.endpoints
  cases beside with
  | peer split reads behind ahead =>
    have group := moves.mem_group replayed.inferred functions split reads
    obtain ⟨before, after, woven, first, second⟩ := TransferPlan.place_of_tool split group
    refine ⟨before, after, woven, siteBefore?_function ?_ first behind, siteAfter?_function ?_ second ahead⟩
    · rw [start]
      exact replayed.away moves.producer_declared
    · rw [finish]
      exact replayed.away moves.consumer_declared
  | inbound split reads ahead =>
    have group := moves.mem_group replayed.inferred functions split reads
    obtain ⟨before, after, woven, first, second⟩ := TransferPlan.place_of_tool split group
    refine ⟨before, after, woven, if_pos start, siteAfter?_function ?_ second ahead⟩
    rw [finish]
    exact replayed.away moves.consumer_declared
  | outbound behind =>
    have trailing := (TransferPlan.mem_trailing_iff replayed.inferred).2 ⟨_, moves⟩
    obtain ⟨before, after, woven, first, _⟩ := TransferPlan.place_of_trailing trailing
    refine ⟨before, after, woven, siteBefore?_function ?_ first behind, if_pos finish⟩
    rw [start]
    exact replayed.away moves.producer_declared

/-- The plan of the sequence reads as the sequence, with every transfer in it. -/
private theorem reads_back (replayed : Replayed tools settings input plan) (nonempty : plan.sequence tools ≠ []) :
    ∃ steps, (Flow.Plan.ofSequence (plan.sequence tools) settings).steps input settings.marker = .ok steps ∧
      List.Forall₂ (SequenceEntry.ReadsAs input)
        ((plan.sequence tools).filter fun entry => entry.kept Flow.defaultMarker) steps := by
  have marked := captures_marked (plan.sequence tools)
  obtain ⟨steps, read, represents⟩ :=
    (ofSequence_completes nonempty replayed.distinct marked replayed.supplied settings).ok
  rw [replayed.marker]
  exact ⟨steps, read, reads_of_represents replayed.distinct marked replayed.supplied represents⟩

/-- In the graph, a transfer joins the sites next to it. -/
private theorem joins (replayed : Replayed tools settings input plan) {d : Document}
    (built : Document.ofPlan (Flow.Plan.ofSequence (plan.sequence tools) settings) input settings = .ok d)
    {source target : Option FileUsage} {origin goal : Site} (moves : Moves settings tools moved source target)
    (beside : Beside tools source target origin goal) :
    d.Joins settings.workflow origin goal (localId settings.workflow (origin.portName moved.source.path))
      (localId settings.workflow (goal.portName moved.destination.path)) := by
  obtain ⟨before, after, woven, start, finish⟩ := replayed.place moves beside
  obtain ⟨steps, read, reads⟩ := replayed.reads_back (by simp [woven])
  rw [Document.ofPlan_eq read] at built
  obtain ⟨draft, drafted, made⟩ := Outcome.bind_eq_ok.1 built
  have listed := (TransferPlan.mem_toList_iff replayed.inferred).2 ⟨source, target, moves⟩
  have counted : (SequenceEntry.transfer moved).kept Flow.defaultMarker = true := by
    simpa [SequenceEntry.kept] using replayed.unmarked moved listed
  rw [woven] at reads
  obtain ⟨hop, member, first, second, item, inside, leaves, enters⟩ := hop_of_reads reads counted
  have joined := Graph.Draft.joins_of_hop drafted made member (first.trans start) (second.trans finish) inside
  rw [leaves, enters] at joined
  exact joined

/-- Every transfer has a site on each side. -/
private theorem exists_beside (replayed : Replayed tools settings input plan) {source target : Option FileUsage}
    (moves : Moves settings tools moved source target) : ∃ origin goal, Beside tools source target origin goal := by
  cases target with
  | none =>
    obtain ⟨producer, rfl, _⟩ := moves.out_eq
    obtain ⟨own, member, _, _, writes⟩ := moves.producer_declared
    have run : producer.function ∈ tools.flatMap Tool.functionNames := List.mem_flatMap.2 ⟨_, member, writes⟩
    obtain ⟨last, behind⟩ := exists_last run
    exact ⟨_, _, .outbound behind⟩
  | some consumer =>
    cases source with
    | none =>
      obtain ⟨own, member, _, _, reads⟩ := moves.consumer_declared
      obtain ⟨earlier, later, split⟩ := List.append_of_mem member
      obtain ⟨first, ahead⟩ := exists_first reads
      exact ⟨_, _, .inbound split reads ahead⟩
    | some producer =>
      obtain ⟨read, written, _⟩ := moves.into_eq
      obtain ⟨earlier, tool, later, split, reads, writes⟩ := replayed.ordered _ read _ written.symm
      obtain ⟨last, behind⟩ := exists_last writes
      obtain ⟨first, ahead⟩ := exists_first reads
      exact ⟨_, _, .peer split reads behind ahead⟩

end Replayed

/-- The graph of a generated plan joins every inferred transfer from the last function
before the tool that it goes to, or the workflow, to the first function of that tool, or
the workflow. So it keeps the functions of a transfer where they stand next to it. -/
theorem planned_graphs_join_the_nearest_functions (tools : List Tool) (settings : Settings) (input : Json)
    (plan : TransferPlan) (d : Document) (replayed : Replayed tools settings input plan)
    (built : Document.ofPlan (Flow.Plan.ofSequence (plan.sequence tools) settings) input settings = .ok d) :
    (∀ moved ∈ plan.toList, ∃ source target origin goal, Moves settings tools moved source target ∧
      Beside tools source target origin goal) ∧
    ∀ moved source target origin goal, Moves settings tools moved source target →
      Beside tools source target origin goal →
      d.Joins settings.workflow origin goal (localId settings.workflow (origin.portName moved.source.path))
        (localId settings.workflow (goal.portName moved.destination.path)) := by
  constructor
  · intro moved listed
    obtain ⟨source, target, moves⟩ := (TransferPlan.mem_toList_iff replayed.inferred).1 listed
    obtain ⟨origin, goal, beside⟩ := replayed.exists_beside moves
    exact ⟨source, target, origin, goal, moves, beside⟩
  · intro moved source target origin goal moves beside
    exact replayed.joins built moves beside

/-- A text is shown by a tool that does not follow the one that makes it. -/
def relayManifest : Manifest :=
  { parameters := [⟨"text", "file", none⟩]
    tools :=
      [{ name := "A", endpoint := "at A", functions := [{ name := "make", returns := [⟨"text", .output, none⟩] }] },
        { kind := .closed, name := "W", functions := [{ name := "wait" }] },
        { name := "C", endpoint := "at C", functions := [{ name := "show", args := [⟨"text", .input, none⟩] }] }] }

def relayTools : List Tool :=
  [.provenance
      { name := "A", endpoint := "at A"
        functions := OrderedMap.ofList [("make", { returns := [fileUse "text" .output] })] },
    .closed "W" ["wait"], toolOf "C" [("show", [fileUse "text" .input])]]

def relaySettings : Settings := { workflow := "wf", orchestrator := "hub" }

def relayInput : Json :=
  .object [("input", .object [("compute_endpoint", .string "there"), ("make_function_id", .string "1"),
    ("make", .null), ("wait_function_id", .string "2"), ("wait", .null), ("show_function_id", .string "3"),
    ("show", .null)])]

def relayText : Transfer := (chainFile "text" "C" "show").transferIn {} (some (chainFile "text" "A" "make"))

def relayEntries : List SequenceEntry :=
  [.compute "A" "make", .capture "make" "at A", .compute "W" "wait", .transfer relayText, .compute "C" "show",
    .capture "show" "at C"]

private theorem relay_registry : ∃ registry, relayManifest.registry = .ok registry ∧ registry.tools = relayTools :=
  ⟨⟨[⟨"text", .file none⟩], relayTools, by decide, by decide⟩, rfl, rfl⟩

private theorem relay_text_moves : Moves relaySettings relayTools relayText (some (chainFile "text" "A" "make"))
    (some (chainFile "text" "C" "show")) :=
  .peer (by decide) (by decide)

private theorem relay_replayed : ∃ plan, Replayed relayTools relaySettings relayInput plan ∧ plan.toList = [relayText] ∧
    plan.sequence relayTools = relayEntries := by
  have inferred : ∃ plan, TransferPlan.infer relayTools relaySettings = .ok plan ∧ plan.toList = [relayText] ∧
      plan.sequence relayTools = relayEntries := ⟨_, rfl, rfl, rfl⟩
  obtain ⟨plan, inferred, listed, woven⟩ := inferred
  refine ⟨plan, ⟨inferred, rfl, by decide, ?_, ?_, ?_, ?_⟩, listed, woven⟩
  · rw [woven]
    decide
  · rw [listed]
    decide
  · intro consumer read producer written
    obtain rfl : consumer = chainFile "text" "C" "show" := List.mem_singleton.1 read
    obtain rfl : producer = chainFile "text" "A" "make" := List.mem_singleton.1 (lastWriter?_mem written).1
    exact ⟨relayTools.take 2, toolOf "C" [("show", [fileUse "text" .input])], [], rfl, by decide, by decide⟩
  · rw [woven]
    exact supplies_of_all (by decide)

theorem relayed_text_joins_the_nearest_functions : ∃ plan d, Replayed relayTools relaySettings relayInput plan ∧
    Document.ofPlan (Flow.Plan.ofSequence (plan.sequence relayTools) relaySettings) relayInput relaySettings = .ok d ∧
    (∀ moved ∈ plan.toList, ∃ source target origin goal, Moves relaySettings relayTools moved source target ∧
      Beside relayTools source target origin goal) ∧
    d.Joins "wf" (.step "wait") (.step "show") "wf#wait/A/make/text" "wf#show/C/show/text" := by
  obtain ⟨plan, replayed, _, woven⟩ := relay_replayed
  have made : (Document.ofPlan (Flow.Plan.ofSequence relayEntries relaySettings) relayInput
      relaySettings).toOption.isSome = true := by decide +kernel
  rw [← woven] at made
  obtain ⟨d, built⟩ := Outcome.ok_of_isSome made
  obtain ⟨placed, joined⟩ :=
    planned_graphs_join_the_nearest_functions relayTools relaySettings relayInput plan d replayed built
  have split : relayTools = relayTools.take 2 ++ toolOf "C" [("show", [fileUse "text" .input])] :: [] := rfl
  have beside : Beside relayTools (some (chainFile "text" "A" "make")) (some (chainFile "text" "C" "show"))
      (.step "wait") (.step "show") := .peer split (by decide) (by decide) (by decide)
  refine ⟨plan, d, replayed, built, placed, ?_⟩
  have joins := joined _ _ _ _ _ relay_text_moves beside
  have first : localId "wf" ((Site.step "wait").portName relayText.source.path) = "wf#wait/A/make/text" := by decide
  have second : localId "wf" ((Site.step "show").portName relayText.destination.path) = "wf#show/C/show/text" := by
    decide
  exact first ▸ second ▸ joins

/-- Every transfer is joined from the function that it comes from to the one it goes to. -/
def Graph.Document.KeepsRoutes (d : Document) (settings : Settings) (tools : List Tool)
    (plan : TransferPlan) : Prop :=
  ∀ moved ∈ plan.toList, ∀ source target, Moves settings tools moved source target →
    ∃ first second, d.Joins settings.workflow (siteOfEnd source) (siteOfEnd target) first second

/-- Whether no connection leads from a port of one site to a port of another. -/
def Graph.Document.apart (d : Document) (workflow : String) (source target : Site) : Bool :=
  d.nodes.all fun node => (d.offersAt workflow source).all fun first => (d.takesAt workflow target).all fun second =>
    !(decide (node.property? "sourceParameter" = some (.link first)) &&
      decide (node.property? "targetParameter" = some (.link second)))

private theorem Graph.Document.not_joins_of_apart {d : Document} {workflow : String} {source target : Site}
    (apart : d.apart workflow source target = true) (first second : String) :
    ¬ d.Joins workflow source target first second := by
  intro ⟨leaves, enters, node, member, _, start, finish⟩
  have ports := List.all_eq_true.1 apart node member
  have none := List.all_eq_true.1 (List.all_eq_true.1 ports first leaves) second enters
  rw [decide_eq_true start, decide_eq_true finish] at none
  cases none

theorem relayed_text_loses_its_writer : ∃ registry plan d, relayManifest.registry = .ok registry ∧
    Replayed registry.tools relaySettings relayInput plan ∧
    Document.ofPlan (Flow.Plan.ofSequence (plan.sequence registry.tools) relaySettings) relayInput relaySettings =
      .ok d ∧
    ¬ d.KeepsRoutes relaySettings registry.tools plan := by
  obtain ⟨registry, made, tools⟩ := relay_registry
  obtain ⟨plan, replayed, listed, woven⟩ := relay_replayed
  have apart : (Document.ofPlan (Flow.Plan.ofSequence relayEntries relaySettings) relayInput
      relaySettings).toOption.map (fun d => d.apart "wf" (.step "make") (.step "show")) = some true := by
    decide +kernel
  obtain ⟨d, found, apart⟩ := Option.map_eq_some_iff.1 apart
  rw [← tools] at replayed woven
  rw [← woven] at found
  refine ⟨registry, plan, d, made, replayed, Outcome.toOption_eq_some.1 found, ?_⟩
  intro keeps
  have moves := relay_text_moves
  rw [← tools] at moves
  have moved : relayText ∈ plan.toList := by
    rw [listed]
    exact List.mem_singleton_self _
  obtain ⟨first, second, joins⟩ := keeps relayText moved _ _ moves
  exact Graph.Document.not_joins_of_apart apart first second joins

end Provenance
