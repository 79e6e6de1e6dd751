import Mathlib.Data.List.Pairwise
import Provenance.Proofs.ListSplits
import Provenance.Proofs.TransferRoutes

/-! The place of an inferred transfer in the sequence of a flow. Transfers into a tool
stand together in front of all functions of the tool, and those to the orchestrator
stand behind every function. -/

namespace Provenance

/-- The functions that some entries run, each with its tool. -/
def computed (entries : List SequenceEntry) : List (String × String) :=
  entries.filterMap SequenceEntry.compute?

def Tool.computes (tools : List Tool) : List (String × String) :=
  tools.flatMap fun tool => tool.functionNames.map (Prod.mk tool.name)

/-- The entry that runs the function at an end of a transfer. -/
def FileUsage.entry (usage : FileUsage) : SequenceEntry := .compute usage.tool usage.function

/-- The entries of a tool without the transfers into it. -/
def Tool.entries (tool : Tool) : List SequenceEntry :=
  tool.functionNames.flatMap fun function => SequenceEntry.compute tool.name function ::
    (tool.provenance?.toList.map fun step => .capture function step.endpoint)

variable {tools earlier later : List Tool} {settings : Settings} {plan : TransferPlan} {moved : Transfer}
  {before after : List SequenceEntry} {producer consumer usage : FileUsage}

private theorem mem_computed {entries : List SequenceEntry} {tool function : String} :
    (tool, function) ∈ computed entries ↔ SequenceEntry.compute tool function ∈ entries := by
  rw [computed, List.mem_filterMap]
  constructor
  · rintro ⟨entry, member, same⟩
    cases entry with
    | compute _ _ =>
      cases same
      exact member
    | transfer _ | capture _ _ => cases same
  · intro member
    exact ⟨_, member, rfl⟩

theorem computed_append (first second : List SequenceEntry) :
    computed (first ++ second) = computed first ++ computed second :=
  List.filterMap_append

theorem computed_transfers (transfers : List Transfer) : computed (transfers.map .transfer) = [] := by
  simp [computed, SequenceEntry.compute?]

theorem computed_entries (tool : Tool) :
    computed tool.entries = tool.functionNames.map (Prod.mk tool.name) := by
  have single : ∀ function, computed (SequenceEntry.compute tool.name function ::
      (tool.provenance?.toList.map fun step => .capture function step.endpoint)) = [(tool.name, function)] := by
    intro function
    cases tool.provenance? <;> rfl
  rw [Tool.entries, computed, List.filterMap_flatMap, ← List.flatMap_pure_eq_map]
  exact List.flatMap_congr fun function _ => single function

theorem transfer_not_mem_entries (tool : Tool) (moved : Transfer) : SequenceEntry.transfer moved ∉ tool.entries := by
  intro member
  obtain ⟨function, _, inside⟩ := List.mem_flatMap.1 member
  obtain same | captured := List.mem_cons.1 inside
  · cases same
  · obtain ⟨step, _, same⟩ := List.mem_map.1 captured
    cases same

/-- In front of a transfer of a group no function runs, and behind it none of the group. -/
private theorem group_split {transfers : List Transfer} {rest : List SequenceEntry}
    (split : transfers.map .transfer ++ rest = before ++ .transfer moved :: after)
    (fresh : SequenceEntry.transfer moved ∉ rest) :
    moved ∈ transfers ∧ computed before = [] ∧ computed after = computed rest := by
  obtain ⟨behind, grouped, rfl⟩ := split_in_first split fresh
  obtain ⟨first, others, rfl, rfl, listed⟩ := List.map_eq_append_iff.1 grouped
  obtain ⟨inner, second, rfl, equal, rfl⟩ := List.map_eq_cons_iff.1 listed
  obtain rfl := SequenceEntry.transfer.inj equal
  exact ⟨by simp, computed_transfers _, by rw [computed_append, computed_transfers, List.nil_append]⟩

namespace TransferPlan

theorem entriesFor_eq (plan : TransferPlan) (tool : Tool) :
    plan.entriesFor tool = (plan.forTool tool.name).map .transfer ++ tool.entries := rfl

theorem computed_entriesFor (plan : TransferPlan) (tools : List Tool) :
    computed (tools.flatMap plan.entriesFor) = Tool.computes tools := by
  rw [computed, List.filterMap_flatMap]
  apply List.flatMap_congr
  intro tool _
  change computed (plan.entriesFor tool) = _
  rw [entriesFor_eq, computed_append, computed_transfers, computed_entries, List.nil_append]

/-- Where a transfer stands between the functions of a sequence. -/
theorem transfer_place (split : plan.sequence tools = before ++ .transfer moved :: after) :
    (∃ earlier tool later, tools = earlier ++ tool :: later ∧ moved ∈ plan.forTool tool.name ∧
      computed before = Tool.computes earlier ∧ computed after = Tool.computes (tool :: later)) ∨
    (moved ∈ plan.trailing ∧ computed before = Tool.computes tools ∧ computed after = []) := by
  rw [sequence] at split
  rcases append_eq_append_cons_iff.1 split with ⟨behind, tooling, rfl⟩ | ⟨ahead, rfl, closing⟩
  · obtain ⟨earlier, tool, later, ahead, rest, rfl, own, rfl, rfl⟩ := flatMap_eq_append_cons tooling
    obtain ⟨member, first, second⟩ := group_split own (transfer_not_mem_entries tool moved)
    refine Or.inl ⟨earlier, tool, later, rfl, member, ?_, ?_⟩
    · rw [computed_append, computed_entriesFor, first, List.append_nil]
    · rw [computed_append, computed_append, computed_entriesFor, computed_transfers, List.append_nil]
      exact congrArg (· ++ Tool.computes later) (second.trans (computed_entries tool))
  · rw [← List.append_nil (plan.trailing.map _)] at closing
    obtain ⟨member, first, second⟩ := group_split closing List.not_mem_nil
    refine Or.inr ⟨member, ?_, second⟩
    rw [computed_append, computed_entriesFor, first, List.append_nil]

end TransferPlan

theorem Tool.eq_of_function (distinct : (tools.flatMap Tool.functionNames).Nodup) {tool other : Tool}
    (member : tool ∈ tools) (inside : other ∈ tools) {function : String}
    (first : function ∈ tool.functionNames) (second : function ∈ other.functionNames) : tool = other := by
  have disjoint := (List.nodup_flatMap.1 distinct).2
  have symmetric : Std.Symm (Function.onFun List.Disjoint Tool.functionNames) :=
    ⟨fun _ _ apart _ mine theirs => apart theirs mine⟩
  by_contra different
  exact disjoint.forall member inside different first second

private theorem FileUsage.DeclaredIn.same_tool (distinct : (tools.flatMap Tool.functionNames).Nodup)
    (declared : producer.DeclaredIn tools) (other : consumer.DeclaredIn tools)
    (same : producer.function = consumer.function) : producer.tool = consumer.tool := by
  obtain ⟨tool, member, name, _, function⟩ := declared
  obtain ⟨again, inside, rename, _, listed⟩ := other
  rw [same] at function
  cases Tool.eq_of_function distinct member inside function listed
  exact name.trans rename.symm

/-- Entries that run some tools run a function of a tool exactly when it is one of them. -/
private theorem FileUsage.DeclaredIn.entry_mem_iff (distinct : (tools.map Tool.name).Nodup)
    (declared : usage.DeclaredIn tools) {part : List Tool} {entries : List SequenceEntry} (inside : part ⊆ tools)
    (runs : computed entries = Tool.computes part) : usage.entry ∈ entries ↔ usage.tool ∈ part.map Tool.name := by
  rw [FileUsage.entry, ← mem_computed, runs]
  simp only [Tool.computes, List.mem_flatMap, List.mem_map]
  constructor
  · rintro ⟨tool, member, function, _, same⟩
    exact ⟨tool, member, congrArg Prod.fst same⟩
  · rintro ⟨tool, member, same⟩
    obtain ⟨own, stored, name, _, function⟩ := declared
    have equal : tool = .provenance own :=
      List.inj_on_of_nodup_map distinct (inside member) stored (same.trans name)
    exact ⟨tool, member, usage.function, equal ▸ function, by rw [same]⟩

private theorem pair_sublist_iff {names others : List String} {first second : String}
    (distinct : (names ++ second :: others).Nodup) :
    [first, second].Sublist (names ++ second :: others) ↔ first ∈ names := by
  constructor
  · intro ordered
    obtain ⟨ahead, behind, split, member, later⟩ := List.cons_sublist_iff.1 ordered
    have later := List.singleton_sublist.1 later
    rcases append_eq_append_cons_iff.1 split.symm with ⟨between, _, rfl⟩ | ⟨between, rfl, _⟩
    · -- The second name would stand twice, in its own place and further behind.
      have fresh := (List.nodup_cons.1 (List.nodup_append.1 distinct).2.1).1
      exact absurd (List.mem_append_right _ later) fresh
    · exact List.mem_append_left _ member
  · intro member
    have before : [first].Sublist names := List.singleton_sublist.2 member
    exact before.append (List.singleton_sublist.2 List.mem_cons_self)

/-- A transfer between two functions, seen from what runs before it and after it. -/
structure StandsBetween (tools : List Tool) (producer consumer : FileUsage)
    (before after : List SequenceEntry) : Prop where
  reader_after : consumer.entry ∈ after
  reader_not_before : consumer.entry ∉ before
  writer_before : producer.entry ∈ before ↔ [producer.tool, consumer.tool].Sublist (tools.map Tool.name)
  writer_after : producer.entry ∉ before → producer.entry ∈ after

/-- A transfer between functions runs before the function that reads its file. It runs
after the one that writes the file exactly when that belongs to an earlier tool, so
within one tool it runs before both. -/
theorem peer_transfers_wait_for_earlier_tools (tools : List Tool) (settings : Settings) (plan : TransferPlan)
    (before after : List SequenceEntry) (moved : Transfer) (toolNames : (tools.map Tool.name).Nodup)
    (functionNames : (tools.flatMap Tool.functionNames).Nodup)
    (inferred : TransferPlan.infer tools settings = .ok plan)
    (split : plan.sequence tools = before ++ .transfer moved :: after) (kind : moved.kind = .peerToPeer) :
    (∃ producer consumer, Moves settings tools moved (some producer) (some consumer)) ∧
    ∀ producer consumer, Moves settings tools moved (some producer) (some consumer) →
      StandsBetween tools producer consumer before after := by
  obtain ⟨earlier, tool, later, rfl, group, first, second⟩ | ⟨trailing, _⟩ := TransferPlan.transfer_place split
  · obtain ⟨source, reader, into, route⟩ := (TransferPlan.mem_forTool_iff inferred).1 group
    constructor
    · obtain ⟨producer, consumer, rfl, same⟩ := route.peer_of_kind kind
      exact ⟨producer, consumer, same ▸ route⟩
    · intro producer consumer moves
      have function := Option.some.inj (moves.unique route).2
      have own : consumer.tool = tool.name :=
        (moves.consumer_declared.same_tool functionNames route.consumer_declared function).trans into
      have names : ((earlier.map Tool.name) ++ tool.name :: later.map Tool.name).Nodup := by
        simpa using toolNames
      have ahead : earlier ⊆ earlier ++ tool :: later := List.subset_append_left _ _
      have behind : tool :: later ⊆ earlier ++ tool :: later := List.subset_append_right _ _
      have reading := moves.consumer_declared
      have writing := moves.producer_declared
      refine ⟨?_, ?_, ?_, ?_⟩
      · rw [reading.entry_mem_iff toolNames behind second, own]
        exact List.mem_cons_self
      · rw [reading.entry_mem_iff toolNames ahead first, own]
        intro old
        exact (List.nodup_append.1 names).2.2 _ old _ List.mem_cons_self rfl
      · rw [writing.entry_mem_iff toolNames ahead first, own, List.map_append, List.map_cons, pair_sublist_iff names]
      · rw [writing.entry_mem_iff toolNames ahead first, writing.entry_mem_iff toolNames behind second]
        intro absent
        obtain ⟨known, member, name, _⟩ := writing
        have listed : producer.tool ∈ (earlier ++ tool :: later).map Tool.name :=
          List.mem_map.2 ⟨_, member, name.symm⟩
        rw [List.map_append, List.mem_append] at listed
        exact listed.resolve_left absent
  · obtain ⟨source, route⟩ := (TransferPlan.mem_trailing_iff inferred).1 trailing
    cases kind.symm.trans (route.kind_eq.2.2 rfl)

/-- The list that the second function makes from the text of the first is shown by another tool. -/
def chainTools : List Tool :=
  [toolOf "A" [("make", [fileUse "text" .output]), ("sort", [fileUse "text" .input, fileUse "list" .output])],
    toolOf "B" [("show", [fileUse "list" .input])]]

def chainFile (parameter tool function : String) : FileUsage :=
  { parameter, tool, function, endpoint := "at " ++ tool, declaredPath := parameter
    localizedPath := tool ++ "/" ++ function ++ "/" ++ parameter }

def chainText : Transfer := (chainFile "text" "A" "sort").transferIn {} (some (chainFile "text" "A" "make"))

def chainList : Transfer := (chainFile "list" "B" "show").transferIn {} (some (chainFile "list" "A" "sort"))

theorem chain_inferred : ∃ plan, TransferPlan.infer chainTools {} = .ok plan ∧ plan.sequence chainTools =
    [.transfer chainText, .compute "A" "make", .capture "make" "at A", .compute "A" "sort", .capture "sort" "at A",
      .transfer chainList, .compute "B" "show", .capture "show" "at B"] :=
  ⟨_, rfl, rfl⟩

private theorem chain_list_moves :
    Moves {} chainTools chainList (some (chainFile "list" "A" "sort")) (some (chainFile "list" "B" "show")) :=
  .peer (by decide) (by decide)

private theorem chain_text_moves :
    Moves {} chainTools chainText (some (chainFile "text" "A" "make")) (some (chainFile "text" "A" "sort")) :=
  .peer (by decide) (by decide)

theorem chain_list_waits : (chainTools.map Tool.name).Nodup ∧ (chainTools.flatMap Tool.functionNames).Nodup ∧
    ∃ plan before after, TransferPlan.infer chainTools {} = .ok plan ∧
      plan.sequence chainTools = before ++ .transfer chainList :: after ∧ chainList.kind = .peerToPeer ∧
      StandsBetween chainTools (chainFile "list" "A" "sort") (chainFile "list" "B" "show") before after := by
  have tools : (chainTools.map Tool.name).Nodup := by decide
  have functions : (chainTools.flatMap Tool.functionNames).Nodup := by decide
  obtain ⟨plan, inferred, woven⟩ := chain_inferred
  have member : SequenceEntry.transfer chainList ∈ plan.sequence chainTools := by
    rw [woven]
    simp
  obtain ⟨before, after, split⟩ := List.append_of_mem member
  refine ⟨tools, functions, plan, before, after, inferred, split, rfl, ?_⟩
  exact (peer_transfers_wait_for_earlier_tools chainTools {} plan before after chainList tools functions inferred split
    rfl).2 _ _ chain_list_moves

/-- Every file that some function reads is written by a function declared before it. -/
def WrittenFirst (tools : List Tool) : Prop :=
  ∀ consumer ∈ TransferPlan.reads tools, ∀ producer,
    lastWriter? (TransferPlan.writes tools) consumer.parameter = some producer →
    [producer.function, consumer.function].Sublist (tools.flatMap Tool.functionNames)

/-- A file that stays within a tool is moved before it is written, although the
function that writes it is declared first. -/
theorem transfer_within_a_tool_comes_too_early : (chainTools.map Tool.name).Nodup ∧
    (chainTools.flatMap Tool.functionNames).Nodup ∧ WrittenFirst chainTools ∧
    ∃ plan before after, TransferPlan.infer chainTools {} = .ok plan ∧
      plan.sequence chainTools = before ++ .transfer chainText :: after ∧ chainText.kind = .peerToPeer ∧
      Moves {} chainTools chainText (some (chainFile "text" "A" "make")) (some (chainFile "text" "A" "sort")) ∧
      (chainFile "text" "A" "make").entry ∉ before ∧ (chainFile "text" "A" "make").entry ∈ after := by
  have first : WrittenFirst chainTools := by
    intro consumer read producer written
    have cases : ∀ consumer ∈ TransferPlan.reads chainTools, ∀ producer ∈ TransferPlan.writes chainTools,
        producer.parameter = consumer.parameter →
        [producer.function, consumer.function].Sublist (chainTools.flatMap Tool.functionNames) := by decide
    obtain ⟨member, same⟩ := lastWriter?_mem written
    exact cases consumer read producer member same
  obtain ⟨plan, inferred, woven⟩ := chain_inferred
  exact ⟨by decide, by decide, first, plan, [], _, inferred, woven, rfl, chain_text_moves, List.not_mem_nil, by decide⟩

end Provenance
