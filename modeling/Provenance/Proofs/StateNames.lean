import Mathlib.Data.List.Flatten
import Provenance.Proofs.SequenceOrder
import Provenance.Proofs.SequenceReading
import Provenance.Tool.Manifest

/-! The names of the states that a sequence becomes. Transfers, functions and captures
share one name space, and the name of a transfer is made of the names of its file and of
the functions at its ends. So whether a plan has a state for every entry depends on
what the tools call their parameters and functions. -/

namespace Provenance

open TransferPlan (infer reads writes)

variable {tools : List Tool} {settings : Settings} {plan : TransferPlan} {consumer producer usage : FileUsage}
  {source target : Option FileUsage} {parameter : String}

/-- The label of a transfer of a file between two functions. -/
def routeLabel (parameter : String) (source target : Option FileUsage) : String :=
  "_auto_FP_" ++ parameter ++ "_" ++ source.elim "in" FileUsage.function ++ "_" ++
    target.elim "out" FileUsage.function

theorem transferIn_label : (consumer.transferIn settings source).label =
    routeLabel consumer.parameter source (some consumer) := by
  cases source with
  | some producer => rfl
  | none =>
    have mark : "_in_" = "_" ++ "in" ++ "_" := by decide
    unfold FileUsage.transferIn routeLabel
    simp only [Option.elim_none, Option.elim_some, mark, String.append_assoc]

theorem transferOut_label : (producer.transferOut settings).label =
    routeLabel producer.parameter (some producer) none := by
  have mark : "_out" = "_" ++ "out" := by decide
  unfold FileUsage.transferOut routeLabel
  simp only [Option.elim_none, Option.elim_some, mark, String.append_assoc]

def labelsIn (tools : List Tool) : List String :=
  (reads tools).map fun consumer =>
    routeLabel consumer.parameter (lastWriter? (writes tools) consumer.parameter) (some consumer)

def labelsOut (tools : List Tool) : List String :=
  (unread (reads tools) (writes tools)).map fun parameter =>
    routeLabel parameter (lastWriter? (writes tools) parameter) none

/-- The labels of the transfers that the files of the tools call for. -/
def fileLabels (tools : List Tool) : List String := labelsIn tools ++ labelsOut tools

private theorem labels_perm (inferred : infer tools settings = .ok plan) :
    (plan.toList.map Transfer.label).Perm (fileLabels tools) := by
  obtain ⟨all, found, rfl⟩ := TransferPlan.infer_eq_ok.1 inferred
  have records : Records all (writes tools) := Records.empty.producers found
  have sent : (TransferPlan.outgoing (TransferPlan.inputs tools) all settings).map Transfer.label = labelsOut tools := by
    refine (Outcome.map_eq_of_forall₂ (TransferPlan.outgoing_listed records) fun parameter transfer sent => ?_).symm
    obtain ⟨producer, last, rfl⟩ := sent
    rw [transferOut_label, last, (lastWriter?_mem last).2]
  have labels : ((reads tools).map fun consumer =>
      (consumer.tool, consumer.transferIn settings (all.get? consumer.parameter))).map (Transfer.label ∘ Prod.snd) =
        labelsIn tools := by
    rw [List.map_map]
    refine List.map_congr_left fun consumer _ => ?_
    rw [← records.last]
    exact transferIn_label
  have grouped := (OrderedMap.listed_groups (TransferPlan.incoming (TransferPlan.inputs tools) all settings)).trans
    ((TransferPlan.inputs_perm tools).map _)
  have delivered := grouped.map (Transfer.label ∘ Prod.snd)
  rw [labels] at delivered
  rw [TransferPlan.toList, List.map_append, sent, OrderedMap.values_flatten, List.map_map]
  exact delivered.append_right _

def captureName (function : String) : String := "Transfer_provenance_" ++ function

/-- The functions with provenance records to ship. -/
def Tool.captured : Tool → List String
  | .provenance tool => tool.functions.keys
  | .closed _ _ => []

/-- The transfers of a sequence: those into each tool, and those to the orchestrator. -/
def TransferPlan.carried (plan : TransferPlan) (tools : List Tool) : List Transfer :=
  tools.flatMap (fun tool => plan.forTool tool.name) ++ plan.trailing

private theorem Tool.captured_sublist (tool : Tool) : tool.captured.Sublist tool.functionNames := by
  cases tool with
  | provenance tool => exact .refl _
  | closed name functions => exact List.nil_sublist _

private theorem Tool.entries_names (tool : Tool) : (tool.entries.map SequenceEntry.stateName).Perm
    (tool.functionNames ++ tool.captured.map captureName) := by
  rw [Tool.entries, List.map_flatMap]
  cases tool with
  | provenance tool =>
    have names := List.map_append_flatMap_perm tool.functions.keys id fun function => [captureName function]
    rw [List.map_id, ← List.map_eq_flatMap] at names
    exact names.symm
  | closed name functions =>
    have alone : functions.flatMap (fun function => [function]) = functions := List.flatMap_singleton' functions
    rw [Tool.captured, List.map_nil, List.append_nil]
    exact .of_eq alone

private theorem TransferPlan.names_perm (plan : TransferPlan) (tools : List Tool) :
    ((plan.sequence tools).map SequenceEntry.stateName).Perm ((plan.carried tools).map Transfer.stateName ++
      (tools.flatMap Tool.functionNames ++ (tools.flatMap Tool.captured).map captureName)) := by
  have transfers : ∀ moved : List Transfer,
      (moved.map SequenceEntry.transfer).map SequenceEntry.stateName = moved.map Transfer.stateName := by
    intro moved
    rw [List.map_map]
    rfl
  have entries : (tools.flatMap fun tool => tool.entries.map SequenceEntry.stateName).Perm
      (tools.flatMap Tool.functionNames ++ (tools.flatMap Tool.captured).map captureName) := by
    rw [List.map_flatMap]
    exact (List.Perm.flatMap_left tools fun tool _ => tool.entries_names).trans (List.flatMap_append_perm ..).symm
  have groups : ((tools.flatMap plan.entriesFor).map SequenceEntry.stateName).Perm
      ((tools.flatMap fun tool => plan.forTool tool.name).map Transfer.stateName ++
        tools.flatMap fun tool => tool.entries.map SequenceEntry.stateName) := by
    simp only [List.map_flatMap, plan.entriesFor_eq, List.map_append, transfers]
    exact (List.flatMap_append_perm ..).symm
  rw [sequence, carried, List.map_append, List.map_append, transfers]
  refine (groups.append_right _).trans ?_
  rw [List.append_assoc, List.append_assoc]
  exact (List.perm_append_comm.trans (entries.append_left _)).append_left _

/-- What is called differently when all states of a sequence are. -/
structure NamesApart (tools : List Tool) : Prop where
  functions : (tools.flatMap Tool.functionNames).Nodup
  labels : (fileLabels tools).Nodup
  /-- A tool whose functions read files shares its name with no other tool. -/
  readers : ∀ consumer ∈ reads tools, (tools.map Tool.name).count consumer.tool = 1
  captures : ∀ function ∈ tools.flatMap Tool.functionNames, ∀ captured ∈ tools.flatMap Tool.captured,
    function ≠ captureName captured
  transfers : ∀ function ∈ tools.flatMap Tool.functionNames, ∀ label ∈ fileLabels tools,
    function ≠ "Transfer" ++ label

private theorem count_le_of_flatMap {α β : Type} [DecidableEq α] {items : List α} {f : α → List β}
    (distinct : (items.flatMap f).Nodup) {item : α} {x : β} (member : x ∈ f item) : items.count item ≤ 1 := by
  by_contra more
  have twice : (List.replicate 2 item).Sublist items := List.replicate_sublist_iff.2 (Nat.lt_of_not_le more)
  have pair := distinct.sublist (twice.flatMap f)
  simp only [List.replicate, List.flatMap_cons, List.flatMap_nil, List.append_nil] at pair
  exact (List.nodup_append.1 pair).2.2 x member x member rfl

theorem reader_listed (read : consumer ∈ reads tools) : consumer.tool ∈ tools.map Tool.name := by
  obtain ⟨tool, member, name, _⟩ := declared_of_usage read
  exact name ▸ List.mem_map_of_mem member

/-- When readers have names of their own, a sequence carries every transfer once. -/
theorem carried_perm (inferred : infer tools settings = .ok plan)
    (readers : ∀ consumer ∈ reads tools, (tools.map Tool.name).count consumer.tool = 1) :
    (plan.carried tools).Perm plan.toList := by
  -- A group is carried once for every tool of its name, so the names are counted, not the tools.
  have all : (plan.byTool.keys.flatMap plan.forTool) = plan.byTool.values.flatten := by
    rw [OrderedMap.keys, OrderedMap.values, List.flatMap_map, ← List.flatMap_def]
    refine List.flatMap_congr fun entry member => ?_
    rw [TransferPlan.forTool, OrderedMap.get?_eq_some_iff.2 member]
    rfl
  rw [TransferPlan.carried, TransferPlan.toList, ← all, ← List.flatMap_map]
  refine List.Perm.append_right _ (flatMap_perm_of_count plan.byTool.distinct ?_ ?_)
  · intro name known
    obtain ⟨found, _, rfl⟩ := TransferPlan.infer_eq_ok.1 inferred
    rw [OrderedMap.keys_groups, List.mem_eraseDups, List.mem_map] at known
    obtain ⟨_, listed, rfl⟩ := known
    obtain ⟨consumer, inside, rfl⟩ := List.mem_map.1 listed
    exact readers consumer ((TransferPlan.inputs_perm tools).subset inside)
  · intro name _ unknown
    rw [TransferPlan.forTool, OrderedMap.get?_eq_none_iff.2 unknown]
    rfl

theorem captureName_injective : Function.Injective captureName := by
  intro first second same
  unfold captureName at same
  exact (String.append_right_inj _).1 same

/-- A transfer of a file is named unlike every capture. -/
private theorem route_not_captured (rest function : String) :
    "Transfer" ++ ("_auto_FP_" ++ rest) ≠ captureName function := by
  have split : "Transfer_provenance_" = "Transfer" ++ "_provenance_" := by decide
  have auto : "_auto_FP_".toList = '_' :: 'a' :: "uto_FP_".toList := by decide
  have capture : "_provenance_".toList = '_' :: 'p' :: "rovenance_".toList := by decide
  intro same
  unfold captureName at same
  rw [split, String.append_assoc, String.append_right_inj, ← String.toList_inj, String.toList_append,
    String.toList_append, auto, capture] at same
  injection same with _ later
  injection later with letter _
  exact absurd letter (by decide)

private theorem label_marked {label : String} (listed : label ∈ fileLabels tools) :
    ∃ rest, label = "_auto_FP_" ++ rest := by
  have marked : ∀ parameter source target, ∃ rest, routeLabel parameter source target = "_auto_FP_" ++ rest := by
    intro parameter source target
    simp only [routeLabel, String.append_assoc]
    exact ⟨_, rfl⟩
  rcases List.mem_append.1 listed with inside | outside
  · obtain ⟨consumer, _, rfl⟩ := List.mem_map.1 inside
    exact marked _ _ _
  · obtain ⟨parameter, _, rfl⟩ := List.mem_map.1 outside
    exact marked _ _ _

private theorem carried_names (inferred : infer tools settings = .ok plan)
    (readers : ∀ consumer ∈ reads tools, (tools.map Tool.name).count consumer.tool = 1) :
    ((plan.carried tools).map Transfer.stateName).Perm ((fileLabels tools).map ("Transfer" ++ ·)) := by
  have names : (plan.carried tools).map Transfer.stateName =
      ((plan.carried tools).map Transfer.label).map ("Transfer" ++ ·) := by
    rw [List.map_map]
    rfl
  rw [names]
  exact (((carried_perm inferred readers).map _).trans (labels_perm inferred)).map _

/-- A tool whose functions read files has a name of its own, if every transfer is
carried once. -/
private theorem readers_apart (inferred : infer tools settings = .ok plan) (once : (plan.carried tools).Nodup)
    (read : consumer ∈ reads tools) : (tools.map Tool.name).count consumer.tool = 1 := by
  have groups : ((tools.map Tool.name).flatMap plan.forTool).Nodup := by
    rw [List.flatMap_map]
    exact (List.nodup_append.1 once).1
  have inside : _ ∈ plan.forTool consumer.tool :=
    (TransferPlan.mem_forTool_iff inferred).2 ⟨_, consumer, rfl, Moves.into read⟩
  exact Nat.le_antisymm (count_le_of_flatMap groups inside) (List.count_pos_iff.2 (reader_listed read))

theorem names_nodup_iff (inferred : infer tools settings = .ok plan) :
    ((plan.sequence tools).map SequenceEntry.stateName).Nodup ↔ NamesApart tools := by
  rw [(plan.names_perm tools).nodup_iff, List.nodup_append, List.nodup_append]
  have transfer : Function.Injective ("Transfer" ++ · : String → String) := fun _ _ => (String.append_right_inj _).1
  constructor
  · rintro ⟨carried, ⟨functions, _, captures⟩, separate⟩
    -- The transfers are distinct first of all, which keeps their tools apart.
    have readers : ∀ consumer ∈ reads tools, (tools.map Tool.name).count consumer.tool = 1 :=
      fun consumer read => readers_apart inferred carried.of_map read
    have names := carried_names inferred readers
    refine ⟨functions, ?_, readers, ?_, ?_⟩
    · exact (List.nodup_map_iff transfer).1 (names.nodup_iff.1 carried)
    · exact fun function member captured shipped => captures _ member _ (List.mem_map_of_mem shipped)
    · intro function member label listed same
      exact separate _ (names.mem_iff.2 (List.mem_map_of_mem listed)) _ (List.mem_append_left _ member) same.symm
  · intro apart
    have names := carried_names inferred apart.readers
    refine ⟨names.nodup_iff.2 (apart.labels.map transfer), ⟨apart.functions, ?_, ?_⟩, ?_⟩
    · have captured := apart.functions.sublist (List.Sublist.flatMap_right tools fun tool _ => tool.captured_sublist)
      exact captured.map captureName_injective
    · rintro function member _ shipped rfl
      obtain ⟨captured, inside, same⟩ := List.mem_map.1 shipped
      exact apart.captures _ member captured inside same.symm
    · rintro _ moved _ other rfl
      obtain ⟨label, listed, rfl⟩ := List.mem_map.1 (names.mem_iff.1 moved)
      rcases List.mem_append.1 other with function | captured
      · exact apart.transfers _ function label listed rfl
      · obtain ⟨_, _, same⟩ := List.mem_map.1 captured
        obtain ⟨rest, rfl⟩ := label_marked listed
        exact route_not_captured rest _ same.symm

/-- Names in which the mark that joins them does not occur, and which are not used twice. -/
structure PlainNames (tools : List Tool) : Prop where
  names : (tools.map Tool.name).Nodup
  functions : (tools.flatMap Tool.functionNames).Nodup
  unmarked : ∀ function ∈ tools.flatMap Tool.functionNames, '_' ∉ function.toList
  files : ∀ usage ∈ reads tools ++ writes tools, '_' ∉ usage.parameter.toList
  once : ((reads tools).map fun usage => (usage.parameter, usage.function)).Nodup

/-- Files and functions without marks can be told from a label. -/
theorem routeLabel_inj {other : String} {source' target' : Option FileUsage}
    (same : routeLabel parameter source target = routeLabel other source' target')
    (clear : '_' ∉ parameter.toList) (unmarked : '_' ∉ other.toList)
    (start : '_' ∉ (source.elim "in" FileUsage.function).toList)
    (start' : '_' ∉ (source'.elim "in" FileUsage.function).toList) :
    parameter = other ∧ target.elim "out" FileUsage.function = target'.elim "out" FileUsage.function := by
  have mark : "_".toList = ['_'] := by decide
  simp only [routeLabel, String.append_assoc] at same
  rw [String.append_right_inj] at same
  have letters := congrArg String.toList same
  simp only [String.toList_append, mark, List.singleton_append] at letters
  obtain ⟨file, later⟩ := split_at_mark clear unmarked letters
  obtain ⟨_, ends⟩ := split_at_mark start start' later
  exact ⟨String.toList_inj.1 file, String.toList_inj.1 ends⟩

namespace PlainNames

variable (plain : PlainNames tools)
include plain

private theorem start_unmarked (parameter : String) :
    '_' ∉ ((lastWriter? (writes tools) parameter).elim "in" FileUsage.function).toList := by
  cases written : lastWriter? (writes tools) parameter with
  | none => decide
  | some producer =>
    obtain ⟨tool, member, _, _, listed⟩ := declared_of_usage (lastWriter?_mem written).1
    exact plain.unmarked _ (List.mem_flatMap.2 ⟨.provenance tool, member, listed⟩)

private theorem read_unmarked (read : consumer ∈ reads tools) : '_' ∉ consumer.parameter.toList :=
  plain.files consumer (List.mem_append_left _ read)

private theorem unread_unmarked (left : parameter ∈ unread (reads tools) (writes tools)) : '_' ∉ parameter.toList := by
  obtain ⟨usage, written, rfl⟩ := List.mem_map.1 (mem_unread.1 left).1
  exact plain.files usage (List.mem_append_right _ written)

private theorem labels_nodup : (fileLabels tools).Nodup := by
  refine List.nodup_append.2 ⟨?_, ?_, ?_⟩
  · refine List.pairwise_map.2 ((List.pairwise_map.1 plain.once).imp_of_mem ?_)
    intro consumer reader read again differ same
    obtain ⟨file, function⟩ := routeLabel_inj same (plain.read_unmarked read) (plain.read_unmarked again)
      (plain.start_unmarked _) (plain.start_unmarked _)
    exact differ (Prod.ext file function)
  · refine (unread_nodup _ _).map_on fun parameter left other leftOver same => ?_
    exact (routeLabel_inj same (plain.unread_unmarked left) (plain.unread_unmarked leftOver)
      (plain.start_unmarked _) (plain.start_unmarked _)).1
  · rintro _ inside _ outside rfl
    obtain ⟨consumer, read, same⟩ := List.mem_map.1 inside
    obtain ⟨parameter, left, again⟩ := List.mem_map.1 outside
    obtain ⟨rfl, _⟩ := routeLabel_inj (same.trans again.symm) (plain.read_unmarked read) (plain.unread_unmarked left)
      (plain.start_unmarked _) (plain.start_unmarked _)
    exact (mem_unread.1 left).2 (List.mem_map_of_mem read)

/-- Plain names make names that are apart. -/
theorem apart : NamesApart tools := by
  have marked : ∀ front rest : String, '_' ∈ front.toList → '_' ∈ (front ++ rest).toList := by
    intro front rest mark
    rw [String.toList_append]
    exact List.mem_append_left _ mark
  refine ⟨plain.functions, plain.labels_nodup, ?_, ?_, ?_⟩
  · exact fun consumer read => List.count_eq_one_of_mem plain.names (reader_listed read)
  · rintro _ function captured _ rfl
    exact plain.unmarked _ function (marked _ captured (by decide))
  · rintro _ function label listed rfl
    obtain ⟨rest, rfl⟩ := label_marked listed
    rw [← String.append_assoc] at function
    exact plain.unmarked _ function (marked _ rest (by decide))

end PlainNames

theorem keys_ofSequence (entries : List SequenceEntry) (settings : Settings) :
    (Flow.Plan.ofSequence entries settings).states.keys = (entries.map SequenceEntry.stateName).eraseDups := by
  rw [Flow.Plan.ofSequence, OrderedMap.keys_ofList, Flow.keys_chain, List.map_map]
  rfl

/-- A plan has one state for each name of its sequence. The names are those of different
entries exactly when files, functions and tools are called apart, as they are when
no name has a mark. -/
theorem states_follow_the_names (tools : List Tool) (settings : Settings) (plan : TransferPlan)
    (inferred : infer tools settings = .ok plan) :
    (((plan.sequence tools).map SequenceEntry.stateName).Nodup ↔ NamesApart tools) ∧
    (Flow.Plan.ofSequence (plan.sequence tools) settings).states.keys =
      ((plan.sequence tools).map SequenceEntry.stateName).eraseDups ∧
    ((Flow.Plan.ofSequence (plan.sequence tools) settings).states.size = (plan.sequence tools).length ↔
      NamesApart tools) ∧
    (PlainNames tools → NamesApart tools) := by
  have keys := keys_ofSequence (plan.sequence tools) settings
  refine ⟨names_nodup_iff inferred, keys, ?_, PlainNames.apart⟩
  have size : (Flow.Plan.ofSequence (plan.sequence tools) settings).states.size =
      ((plan.sequence tools).map SequenceEntry.stateName).eraseDups.length := by
    rw [← keys, OrderedMap.keys, List.length_map]
    rfl
  have length : ((plan.sequence tools).map SequenceEntry.stateName).length = (plan.sequence tools).length :=
    List.length_map _
  rw [size, ← length, length_eraseDups_iff, names_nodup_iff inferred]

theorem chain_names_apart : ∃ plan, infer chainTools {} = .ok plan ∧ PlainNames chainTools ∧ NamesApart chainTools ∧
    ((plan.sequence chainTools).map SequenceEntry.stateName).Nodup ∧
    (Flow.Plan.ofSequence (plan.sequence chainTools) {}).states.size = 8 := by
  obtain ⟨plan, inferred, woven⟩ := chain_inferred
  have plain : PlainNames chainTools := ⟨by decide, by decide, by decide, by decide, by decide⟩
  obtain ⟨names, _, states, apart⟩ := states_follow_the_names chainTools {} plan inferred
  have size := states.2 (apart plain)
  rw [woven] at size
  exact ⟨plan, inferred, plain, apart plain, names.2 (apart plain), woven ▸ size⟩

/-- Two functions make a text each, and both texts are shown. -/
def rawTextManifest : Manifest :=
  { parameters := [⟨"text", "file", none⟩, ⟨"text_raw", "file", none⟩]
    tools :=
      [{ name := "A", endpoint := "at A", functions :=
          [{ name := "raw_split", returns := [⟨"text", .output, none⟩] },
            { name := "split", returns := [⟨"text_raw", .output, none⟩] }] },
        { name := "B", endpoint := "at B", functions :=
          [{ name := "show", args := [⟨"text", .input, none⟩, ⟨"text_raw", .input, none⟩] }] }] }

def rawTextNames : List String :=
  ["raw_split", "Transfer_provenance_raw_split", "split", "Transfer_provenance_split",
    "Transfer_auto_FP_text_raw_split_show", "Transfer_auto_FP_text_raw_split_show", "show", "Transfer_provenance_show"]

/-- Both texts are moved under one name, so one of the transfers has no state. -/
theorem raw_text_takes_a_name : ∃ registry summaries plan, rawTextManifest.registry = .ok registry ∧
    registry.summaries = .ok summaries ∧ infer registry.tools {} = .ok plan ∧
    (plan.sequence registry.tools).map SequenceEntry.stateName = rawTextNames ∧
    ¬ ((plan.sequence registry.tools).map SequenceEntry.stateName).Nodup ∧
    (Flow.Plan.ofSequence (plan.sequence registry.tools) {}).states.size = 7 := by
  have run : (rawTextManifest.registry.toOption.bind fun registry => registry.summaries.toOption.bind fun _ =>
      (infer registry.tools {}).toOption.map fun plan =>
        ((plan.sequence registry.tools).map SequenceEntry.stateName,
          (Flow.Plan.ofSequence (plan.sequence registry.tools) {}).states.size)) = some (rawTextNames, 7) := by
    decide +kernel
  obtain ⟨registry, made, run⟩ := Option.bind_eq_some_iff.1 run
  obtain ⟨summaries, summed, run⟩ := Option.bind_eq_some_iff.1 run
  obtain ⟨plan, inferred, same⟩ := Option.map_eq_some_iff.1 run
  obtain ⟨names, size⟩ := Prod.mk.inj same
  refine ⟨registry, summaries, plan, Outcome.toOption_eq_some.1 made, Outcome.toOption_eq_some.1 summed,
    Outcome.toOption_eq_some.1 inferred, names, ?_, size⟩
  rw [names]
  decide

end Provenance
