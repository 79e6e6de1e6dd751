import Provenance.Proofs.InferredTransfers
import Provenance.Transfer.Sequence

/-! The functions between which an inferred transfer moves a file. A transfer names
its file and the functions at its ends, so its route can be told from it. -/

namespace Provenance

/-- A transfer of a file from the last function that writes it to one that reads it.
The orchestrator stands in for the end that no function is at. -/
inductive Moves (settings : Settings) (tools : List Tool) :
    Transfer → Option FileUsage → Option FileUsage → Prop where
  | peer {producer consumer : FileUsage} (read : consumer ∈ TransferPlan.reads tools)
      (written : lastWriter? (TransferPlan.writes tools) consumer.parameter = some producer) :
      Moves settings tools (consumer.transferIn settings (some producer)) (some producer) (some consumer)
  | inbound {consumer : FileUsage} (read : consumer ∈ TransferPlan.reads tools)
      (unwritten : lastWriter? (TransferPlan.writes tools) consumer.parameter = none) :
      Moves settings tools (consumer.transferIn settings none) none (some consumer)
  | outbound {producer : FileUsage}
      (written : lastWriter? (TransferPlan.writes tools) producer.parameter = some producer)
      (unread : producer.parameter ∉ (TransferPlan.reads tools).map FileUsage.parameter) :
      Moves settings tools (producer.transferOut settings) (some producer) none

variable {settings : Settings} {tools : List Tool} {moved : Transfer} {producer consumer : FileUsage}
  {source target source' target' : Option FileUsage}

/-- The transfer into a function that reads a file. -/
theorem Moves.into (read : consumer ∈ TransferPlan.reads tools) :
    Moves settings tools
      (consumer.transferIn settings (lastWriter? (TransferPlan.writes tools) consumer.parameter))
      (lastWriter? (TransferPlan.writes tools) consumer.parameter) (some consumer) := by
  cases written : lastWriter? (TransferPlan.writes tools) consumer.parameter with
  | some producer => exact .peer read written
  | none => exact .inbound read written

theorem Moves.into_eq (moves : Moves settings tools moved source (some consumer)) :
    consumer ∈ TransferPlan.reads tools ∧
      source = lastWriter? (TransferPlan.writes tools) consumer.parameter ∧
      moved = consumer.transferIn settings source := by
  cases moves with
  | peer read written => exact ⟨read, written.symm, rfl⟩
  | inbound read unwritten => exact ⟨read, unwritten.symm, rfl⟩

theorem Moves.out_eq (moves : Moves settings tools moved source none) :
    ∃ producer, source = some producer ∧ moved = producer.transferOut settings ∧
      lastWriter? (TransferPlan.writes tools) producer.parameter = some producer ∧
      producer.parameter ∉ (TransferPlan.reads tools).map FileUsage.parameter := by
  cases moves with
  | outbound written unread => exact ⟨_, rfl, rfl, written, unread⟩

theorem Moves.parameter_of_target (moves : Moves settings tools moved source (some consumer)) :
    moved.parameter = consumer.parameter := by
  cases moves <;> rfl

theorem Moves.written (moves : Moves settings tools moved (some producer) target) :
    producer ∈ TransferPlan.writes tools ∧ moved.parameter = producer.parameter := by
  cases moves with
  | peer read written =>
    obtain ⟨member, same⟩ := lastWriter?_mem written
    exact ⟨member, same.symm⟩
  | outbound written unread => exact ⟨(lastWriter?_mem written).1, rfl⟩

theorem Moves.source_eq (moves : Moves settings tools moved source target) :
    source = lastWriter? (TransferPlan.writes tools) moved.parameter := by
  cases moves with
  | peer read written => exact written.symm
  | inbound read unwritten => exact unwritten.symm
  | outbound written unread => exact written.symm

theorem Moves.unread (moves : Moves settings tools moved source none) :
    moved.parameter ∉ (TransferPlan.reads tools).map FileUsage.parameter := by
  cases moves with
  | outbound written unread => exact unread

theorem lastWriter?_of_mem {outputs : List FileUsage} {usage : FileUsage} (written : usage ∈ outputs) :
    ∃ producer, lastWriter? outputs usage.parameter = some producer := by
  have listed : usage ∈ outputs.filter fun other => other.parameter = usage.parameter :=
    List.mem_filter.2 ⟨written, decide_eq_true rfl⟩
  exact ⟨_, List.getLast?_eq_some_getLast (List.ne_nil_of_mem listed)⟩

/-- Only the orchestrator is never at both ends. -/
theorem Moves.kind_eq (moves : Moves settings tools moved source target) :
    (moved.kind = .peerToPeer ↔ source.isSome ∧ target.isSome) ∧
    (moved.kind = .outbound ↔ target = none) := by
  cases moves <;> simp [FileUsage.transferIn, FileUsage.transferOut]

theorem Moves.not_recursive (moves : Moves settings tools moved source target) : moved.recursive = false := by
  cases moves <;> rfl

theorem Moves.peer_of_kind (moves : Moves settings tools moved source target)
    (kind : moved.kind = .peerToPeer) :
    ∃ producer consumer, source = some producer ∧ target = some consumer := by
  obtain ⟨first, second⟩ := moves.kind_eq.1.1 kind
  obtain ⟨producer, rfl⟩ := Option.isSome_iff_exists.1 first
  obtain ⟨consumer, rfl⟩ := Option.isSome_iff_exists.1 second
  exact ⟨producer, consumer, rfl, rfl⟩

/-- The label of a transfer ends in the function that reads the file. -/
theorem transferIn_function {reader : FileUsage}
    (same : consumer.transferIn settings source = reader.transferIn settings source) :
    consumer.function = reader.function := by
  have file := congrArg Transfer.parameter same
  have label := congrArg Transfer.label same
  cases source with
  | none =>
    change consumer.parameter = reader.parameter at file
    change "_auto_FP_" ++ consumer.parameter ++ "_in_" ++ consumer.function =
      "_auto_FP_" ++ reader.parameter ++ "_in_" ++ reader.function at label
    rw [file] at label
    exact (String.append_right_inj _).1 label
  | some producer =>
    change consumer.parameter = reader.parameter at file
    change "_auto_FP_" ++ consumer.parameter ++ "_" ++ producer.function ++ "_" ++ consumer.function =
      "_auto_FP_" ++ reader.parameter ++ "_" ++ producer.function ++ "_" ++ reader.function at label
    rw [file] at label
    exact (String.append_right_inj _).1 label

/-- The functions at the ends of a transfer can be told from it. -/
theorem Moves.unique (moves : Moves settings tools moved source target)
    (other : Moves settings tools moved source' target') :
    source = source' ∧ target.map FileUsage.function = target'.map FileUsage.function := by
  cases target with
  | none =>
    have none : target' = none := other.kind_eq.2.1 (moves.kind_eq.2.2 rfl)
    subst none
    obtain ⟨producer, rfl, made, written, _⟩ := moves.out_eq
    obtain ⟨writer, rfl, remade, rewritten, _⟩ := other.out_eq
    have file : producer.parameter = writer.parameter := congrArg Transfer.parameter (made.symm.trans remade)
    rw [file] at written
    exact ⟨written.symm.trans rewritten, rfl⟩
  | some consumer =>
    cases target' with
    | none => cases moves.kind_eq.2.1 (other.kind_eq.2.2 rfl)
    | some reader =>
      have file := moves.parameter_of_target.symm.trans other.parameter_of_target
      obtain ⟨_, first, made⟩ := moves.into_eq
      obtain ⟨_, second, remade⟩ := other.into_eq
      have source : source = source' := by rw [first, second, file]
      subst source
      exact ⟨rfl, congrArg some (transferIn_function (made.symm.trans remade))⟩

/-- A function of a tool uses the file, on the storage endpoint of the tool. -/
def FileUsage.DeclaredIn (usage : FileUsage) (tools : List Tool) : Prop :=
  ∃ tool, Tool.provenance tool ∈ tools ∧ usage.tool = tool.name ∧ usage.endpoint = tool.endpoint ∧
    usage.function ∈ tool.functions.keys

theorem declared_of_usage {direction : Direction} {usage : FileUsage}
    (used : usage ∈ (TransferPlan.steps tools).flatMap fun tool => tool.fileUsages direction) :
    usage.DeclaredIn tools := by
  obtain ⟨tool, step, inside⟩ := List.mem_flatMap.1 used
  obtain ⟨⟨function, use⟩, declared, inside⟩ := List.mem_flatMap.1 inside
  obtain ⟨_, _, rfl⟩ := List.mem_map.1 inside
  obtain ⟨known, member, same⟩ := List.mem_filterMap.1 step
  refine ⟨tool, ?_, rfl, rfl, List.mem_map_of_mem declared⟩
  cases known with
  | provenance inner =>
    cases same
    exact member
  | closed name functions => cases same

theorem Moves.consumer_declared (moves : Moves settings tools moved source (some consumer)) :
    consumer.DeclaredIn tools :=
  declared_of_usage moves.into_eq.1

theorem Moves.producer_declared (moves : Moves settings tools moved (some producer) target) :
    producer.DeclaredIn tools :=
  declared_of_usage moves.written.1

namespace TransferPlan

variable {plan : TransferPlan}

theorem mem_forTool {tool : String} : moved ∈ plan.forTool tool ↔ (tool, moved) ∈ plan.byTool.listed := by
  simp only [forTool, OrderedMap.listed, Entries.listed, List.mem_flatMap, List.mem_map]
  constructor
  · intro member
    cases found : plan.byTool.get? tool with
    | none => simp [found] at member
    | some group =>
      rw [found] at member
      exact ⟨(tool, group), OrderedMap.get?_eq_some_iff.1 found, moved, member, rfl⟩
  · rintro ⟨⟨name, group⟩, stored, inner, member, same⟩
    cases same
    rw [OrderedMap.get?_eq_some_iff.2 stored]
    exact member

theorem mem_toList : moved ∈ plan.toList ↔ (∃ tool, moved ∈ plan.forTool tool) ∨ moved ∈ plan.trailing := by
  simp [toList, OrderedMap.values_flatten, mem_forTool]

/-- The transfers into a tool are those to the functions of it that read a file. -/
theorem mem_forTool_iff (inferred : infer tools settings = .ok plan) {tool : String} :
    moved ∈ plan.forTool tool ↔
      ∃ source consumer, consumer.tool = tool ∧ Moves settings tools moved source (some consumer) := by
  obtain ⟨all, found, rfl⟩ := infer_eq_ok.1 inferred
  have records : Records all (writes tools) := Records.empty.producers found
  have grouped := (OrderedMap.listed_groups (incoming (inputs tools) all settings)).trans
    ((inputs_perm tools).map _)
  rw [mem_forTool, grouped.mem_iff, List.mem_map]
  constructor
  · rintro ⟨consumer, read, same⟩
    cases same
    rw [records.last]
    exact ⟨_, consumer, rfl, Moves.into read⟩
  · rintro ⟨source, consumer, rfl, moves⟩
    obtain ⟨read, rfl, rfl⟩ := moves.into_eq
    exact ⟨consumer, read, by rw [records.last]⟩

theorem mem_trailing_iff (inferred : infer tools settings = .ok plan) :
    moved ∈ plan.trailing ↔ ∃ source, Moves settings tools moved source none := by
  obtain ⟨all, found, rfl⟩ := infer_eq_ok.1 inferred
  have records : Records all (writes tools) := Records.empty.producers found
  simp only [outgoing, List.mem_map, List.mem_filter, OrderedMap.values]
  constructor
  · rintro ⟨producer, ⟨⟨⟨file, _⟩, stored, rfl⟩, unread⟩, rfl⟩
    have last := (records.last file).symm.trans (OrderedMap.get?_eq_some_iff.2 stored)
    rw [← (lastWriter?_mem last).2] at last
    refine ⟨_, .outbound last ?_⟩
    simpa [inputs_contains] using unread
  · rintro ⟨source, moves⟩
    obtain ⟨producer, rfl, rfl, written, unread⟩ := moves.out_eq
    refine ⟨producer, ⟨⟨(producer.parameter, producer), ?_, rfl⟩, ?_⟩, rfl⟩
    · rw [← records.last] at written
      exact OrderedMap.get?_eq_some_iff.1 written
    · simpa [inputs_contains] using unread

/-- The transfers of a plan are those that move a file. -/
theorem mem_toList_iff (inferred : infer tools settings = .ok plan) :
    moved ∈ plan.toList ↔ ∃ source target, Moves settings tools moved source target := by
  rw [mem_toList, mem_trailing_iff inferred]
  simp only [mem_forTool_iff inferred]
  constructor
  · rintro (⟨tool, source, consumer, -, moves⟩ | ⟨source, moves⟩)
    · exact ⟨source, some consumer, moves⟩
    · exact ⟨source, none, moves⟩
  · rintro ⟨source, target, moves⟩
    cases target with
    | none => exact Or.inr ⟨source, moves⟩
    | some consumer => exact Or.inl ⟨consumer.tool, source, consumer, rfl, moves⟩

/-- Inference moves single files only. -/
theorem inferred_not_recursive (inferred : infer tools settings = .ok plan) :
    ∀ moved ∈ plan.toList, moved.recursive = false := by
  intro moved member
  obtain ⟨source, target, moves⟩ := (mem_toList_iff inferred).1 member
  exact moves.not_recursive

end TransferPlan

end Provenance
