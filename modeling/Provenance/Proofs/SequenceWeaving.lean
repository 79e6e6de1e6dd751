import Provenance.Proofs.PlannedTransfers
import Provenance.Proofs.StateNames

/-! The weaving of a sequence. Every transfer of a plan stands in it once, in front of the
tool that it goes to, every function stands in it once, and the record of a function is
captured right behind the function. -/

namespace Provenance

variable {tools : List Tool} {settings : Settings} {plan : TransferPlan} {moved : Transfer}
  {before after : List SequenceEntry} {entry : SequenceEntry}

/-- The transfers among some entries. -/
def transferred (entries : List SequenceEntry) : List Transfer := entries.filterMap SequenceEntry.transfer?

private theorem transferred_append (first second : List SequenceEntry) :
    transferred (first ++ second) = transferred first ++ transferred second :=
  List.filterMap_append

private theorem transferred_transfers (transfers : List Transfer) :
    transferred (transfers.map .transfer) = transfers := by
  rw [transferred, List.filterMap_map]
  exact List.filterMap_some

private theorem transferred_entries (tool : Tool) : transferred tool.entries = [] := by
  rw [transferred, List.filterMap_eq_nil_iff]
  intro entry member
  cases entry with
  | transfer moved => exact absurd member (transfer_not_mem_entries tool moved)
  | compute _ _ | capture _ _ => rfl

namespace TransferPlan

private theorem transferred_sequence (plan : TransferPlan) (tools : List Tool) :
    transferred (plan.sequence tools) = plan.carried tools := by
  rw [sequence, transferred_append, transferred_transfers, carried, transferred, List.filterMap_flatMap]
  congr 1
  apply List.flatMap_congr
  intro tool _
  change transferred (plan.entriesFor tool) = _
  rw [entriesFor_eq, transferred_append, transferred_transfers, transferred_entries, List.append_nil]

theorem computed_sequence (plan : TransferPlan) (tools : List Tool) :
    computed (plan.sequence tools) = Tool.computes tools := by
  rw [sequence, computed_append, computed_entriesFor, computed_transfers, List.append_nil]

end TransferPlan

/-- The capture that follows a function, if the tool has a storage endpoint. -/
def Tool.capturesOf (tool : Tool) (function : String) : List SequenceEntry :=
  tool.provenance?.toList.map fun step => .capture function step.endpoint

private theorem Tool.entries_eq (tool : Tool) : tool.entries =
    tool.functionNames.flatMap fun function => .compute tool.name function :: tool.capturesOf function := rfl

/-- An entry that is no transfer stands with the entries of one function of one tool. -/
theorem TransferPlan.own_place (split : plan.sequence tools = before ++ entry :: after) (own : entry.transfer? = none) :
    ∃ tool ∈ tools, ∃ function ∈ tool.functionNames, ∃ ahead behind, ahead <:+ before ∧ behind <+: after ∧
      .compute tool.name function :: tool.capturesOf function = ahead ++ entry :: behind := by
  have untransferred : ∀ transfers : List Transfer, entry ∉ transfers.map SequenceEntry.transfer := by
    intro transfers member
    obtain ⟨moved, _, rfl⟩ := List.mem_map.1 member
    cases own
  obtain ⟨inner, tooling, rfl⟩ := split_in_first split (untransferred _)
  obtain ⟨earlier, tool, later, ahead, behind, rfl, group, rfl, rfl⟩ := flatMap_eq_append_cons tooling
  rw [entriesFor_eq] at group
  obtain ⟨ahead, rfl, entries⟩ := split_in_second group (untransferred _)
  rw [Tool.entries_eq] at entries
  obtain ⟨others, function, more, ahead, behind, functions, single, rfl, rfl⟩ := flatMap_eq_append_cons entries
  have member : function ∈ tool.functionNames := by simp [functions]
  refine ⟨tool, by simp, function, member, ahead, behind, ?_, ?_, single⟩
  · simp only [← List.append_assoc]
    exact List.suffix_append _ _
  · simp only [List.append_assoc]
    exact List.prefix_append _ _

/-- Behind a function comes its capture. -/
theorem TransferPlan.capture_follows {name function : String}
    (split : plan.sequence tools = before ++ .compute name function :: after) :
    ∃ tool ∈ tools, tool.name = name ∧ ∃ rest, after = tool.capturesOf function ++ rest := by
  obtain ⟨tool, member, other, _, ahead, behind, _, ⟨rest, rfl⟩, single⟩ := own_place split rfl
  cases ahead with
  | nil =>
    obtain ⟨same, rfl⟩ := List.cons.inj single
    cases same
    exact ⟨tool, member, rfl, rest, rfl⟩
  | cons head ahead =>
    obtain ⟨_, captures⟩ := List.cons.inj single
    have inside : SequenceEntry.compute name function ∈ tool.capturesOf other := by simp [captures]
    obtain ⟨_, _, impossible⟩ := List.mem_map.1 inside
    cases impossible

/-- In front of a capture is its function. -/
theorem TransferPlan.function_precedes {function endpoint : String}
    (split : plan.sequence tools = before ++ .capture function endpoint :: after) :
    ∃ tool, Tool.provenance tool ∈ tools ∧ tool.endpoint = endpoint ∧
      ∃ rest, before = rest ++ [.compute tool.name function] := by
  obtain ⟨tool, member, other, _, ahead, behind, ⟨rest, rfl⟩, _, single⟩ := own_place split rfl
  cases ahead with
  | nil => cases (List.cons.inj single).1
  | cons head ahead =>
    obtain ⟨rfl, captures⟩ := List.cons.inj single
    cases tool with
    | closed name functions => cases ahead <;> cases captures
    | provenance tool =>
      cases ahead with
      | nil =>
        obtain ⟨same, _⟩ := List.cons.inj captures
        cases same
        exact ⟨tool, member, rfl, rest, rfl⟩
      | cons next ahead =>
        obtain ⟨_, none⟩ := List.cons.inj captures
        cases ahead <;> cases none

/-- A sequence has the entries that it should have, each in its place. -/
structure Woven (settings : Settings) (tools : List Tool) (plan : TransferPlan) : Prop where
  transfers : (transferred (plan.sequence tools)).Perm plan.toList
  functions : computed (plan.sequence tools) = Tool.computes tools
  /-- The record of a function is captured at once. -/
  captured : ∀ before name function after, plan.sequence tools = before ++ .compute name function :: after →
    ∀ tool, Tool.provenance tool ∈ tools → tool.name = name → ∃ rest, after = .capture function tool.endpoint :: rest
  /-- Nothing else is captured. -/
  only : ∀ before function endpoint after, plan.sequence tools = before ++ .capture function endpoint :: after →
    ∃ tool, Tool.provenance tool ∈ tools ∧ tool.endpoint = endpoint ∧
      ∃ rest, before = rest ++ [.compute tool.name function]
  /-- A transfer into a tool runs after all functions of earlier tools and before those of the tool. -/
  into : ∀ before moved after, plan.sequence tools = before ++ .transfer moved :: after → moved.kind ≠ .outbound →
    ∃ earlier tool later source consumer, tools = earlier ++ tool :: later ∧
      Moves settings tools moved source (some consumer) ∧ consumer.tool = tool.name ∧
      computed before = Tool.computes earlier ∧ computed after = Tool.computes (tool :: later)
  out : ∀ before moved after, plan.sequence tools = before ++ .transfer moved :: after → moved.kind = .outbound →
    computed before = Tool.computes tools ∧ computed after = []
  /-- A transfer into a tool is not missing in front of it. -/
  served : ∀ moved source consumer, Moves settings tools moved source (some consumer) →
    ∃ earlier tool later before after, tools = earlier ++ tool :: later ∧ consumer.tool = tool.name ∧
      plan.sequence tools = before ++ .transfer moved :: after ∧
      computed before = Tool.computes earlier ∧ computed after = Tool.computes (tool :: later)

theorem inferred_sequences_are_woven (tools : List Tool) (settings : Settings) (plan : TransferPlan)
    (names : (tools.map Tool.name).Nodup) (inferred : TransferPlan.infer tools settings = .ok plan) :
    Woven settings tools plan where
  transfers := by
    rw [plan.transferred_sequence]
    apply carried_perm inferred
    intro consumer read
    exact List.count_eq_one_of_mem names (reader_listed read)
  functions := plan.computed_sequence tools
  captured := by
    intro before name function after split tool member named
    obtain ⟨other, inside, same, rest, rfl⟩ := TransferPlan.capture_follows split
    have equal : other = .provenance tool := List.inj_on_of_nodup_map names inside member (same.trans named.symm)
    subst equal
    exact ⟨rest, rfl⟩
  only := by
    intro before function endpoint after split
    exact TransferPlan.function_precedes split
  into := by
    intro before moved after split kind
    rcases TransferPlan.transfer_place split with ⟨earlier, tool, later, rfl, group, first, second⟩ | ⟨trailing, _⟩
    · obtain ⟨source, consumer, own, moves⟩ := (TransferPlan.mem_forTool_iff inferred).1 group
      exact ⟨earlier, tool, later, source, consumer, rfl, moves, own, first, second⟩
    · obtain ⟨source, moves⟩ := (TransferPlan.mem_trailing_iff inferred).1 trailing
      exact absurd (moves.kind_eq.2.2 rfl) kind
  out := by
    intro before moved after split kind
    rcases TransferPlan.transfer_place split with ⟨earlier, tool, later, rfl, group, _⟩ | ⟨_, first, second⟩
    · obtain ⟨source, consumer, _, moves⟩ := (TransferPlan.mem_forTool_iff inferred).1 group
      cases moves.kind_eq.2.1 kind
    · exact ⟨first, second⟩
  served := by
    intro moved source consumer moves
    obtain ⟨tool, member, own⟩ := List.mem_map.1 (reader_listed moves.into_eq.1)
    obtain ⟨earlier, later, split⟩ := List.append_of_mem member
    have group : moved ∈ plan.forTool tool.name :=
      (TransferPlan.mem_forTool_iff inferred).2 ⟨source, consumer, own.symm, moves⟩
    obtain ⟨before, after, woven, first, second⟩ := TransferPlan.place_of_tool split group
    exact ⟨earlier, tool, later, before, after, split, own.symm, woven, first, second⟩

theorem chain_is_woven : (chainTools.map Tool.name).Nodup ∧
    ∃ plan, TransferPlan.infer chainTools {} = .ok plan ∧ Woven {} chainTools plan := by
  have names : (chainTools.map Tool.name).Nodup := by decide
  obtain ⟨plan, inferred, _⟩ := chain_inferred
  exact ⟨names, plan, inferred, inferred_sequences_are_woven chainTools {} plan names inferred⟩

end Provenance
