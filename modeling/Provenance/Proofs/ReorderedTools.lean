import Provenance.Proofs.ReturnedFiles

/-! Inference without a view to the order in which tools and their functions are declared. The
order only matters between several functions that write one file. When these are refused, both
orders have the same files with the same writers, and the transfers are the same up to order. -/

namespace Provenance

open TransferPlan (infer reads writes used)

/-- The same tool, with its functions declared in another order. -/
inductive Tool.Permuted : Tool → Tool → Prop where
  | provenance (name endpoint : String) (requiredInputs : List String) {functions others : OrderedMap FunctionUse}
    (permuted : functions.entries.Perm others.entries) :
    Tool.Permuted (.provenance { name, endpoint, requiredInputs, functions })
      (.provenance { name, endpoint, requiredInputs, functions := others })
  | closed (name : String) {functions others : List String} (permuted : functions.Perm others) :
    Tool.Permuted (.closed name functions) (.closed name others)

/-- The same tools in another order, and the functions of each tool in another order, too. -/
def Tool.Reordered (tools others : List Tool) : Prop :=
  ∃ middle : List Tool, tools.Perm middle ∧ List.Forall₂ Tool.Permuted middle others

/-- The same transfers before every tool and behind all of them, each as often. -/
structure TransferPlan.SameTransfers (plan other : TransferPlan) : Prop where
  forTool : ∀ tool, (plan.forTool tool).Perm (other.forTool tool)
  trailing : plan.trailing.Perm other.trailing

variable {settings : Settings} {tools others : List Tool} {plan other : TransferPlan} {moved : Transfer}
  {written rewritten : List FileUsage} {usage : FileUsage} {parameter : String} {source target : Option FileUsage}

private theorem used_of_permuted {middle : List Tool} (permuted : List.Forall₂ Tool.Permuted middle others)
    (direction : Direction) : (used direction middle).Perm (used direction others) := by
  induction permuted with
  | nil => exact .refl _
  | cons own _ ih =>
    cases own with
    | provenance name endpoint requiredInputs permuted => exact (permuted.flatMap_right _).append ih
    | closed name permuted => exact ih

/-- Reordered tools use the same files, each as often. -/
theorem Tool.Reordered.used (reordered : Tool.Reordered tools others) (direction : Direction) :
    (used direction tools).Perm (used direction others) := by
  obtain ⟨middle, same, permuted⟩ := reordered
  exact ((same.filterMap _).flatMap_right _).trans (used_of_permuted permuted direction)

theorem lastWriter?_eq_some_iff (once : (written.map FileUsage.parameter).Nodup) :
    lastWriter? written parameter = some usage ↔ usage ∈ written ∧ usage.parameter = parameter := by
  refine ⟨lastWriter?_mem, ?_⟩
  rintro ⟨member, rfl⟩
  obtain ⟨writer, last⟩ := lastWriter?_of_mem member
  obtain ⟨known, same⟩ := lastWriter?_mem last
  rw [last, List.inj_on_of_nodup_map once known member same]

/-- The one writer of a file is the last one in every order. -/
theorem lastWriter?_perm (once : (written.map FileUsage.parameter).Nodup) (reordered : written.Perm rewritten)
    (parameter : String) : lastWriter? written parameter = lastWriter? rewritten parameter := by
  have again := (reordered.map FileUsage.parameter).nodup_iff.1 once
  ext usage
  rw [lastWriter?_eq_some_iff once, lastWriter?_eq_some_iff again, reordered.mem_iff]

/-- When a second writer is refused, inference fails exactly on files that are written twice. -/
theorem infer_strict (strict : settings.producerPolicy = .reject) (tools : List Tool) :
    (((writes tools).map FileUsage.parameter).Nodup ∧ ∃ plan, infer tools settings = .ok plan) ∨
    (¬ ((writes tools).map FileUsage.parameter).Nodup ∧
      ∃ parameter first second, infer tools settings = .error (.multipleProducers parameter first second)) := by
  cases outcome : infer tools settings with
  | ok plan =>
    refine Or.inl ⟨?_, plan, rfl⟩
    by_contra twice
    obtain ⟨fault, failed⟩ := producers_error_iff.2 ⟨strict, twice⟩
    cases outcome.symm.trans (TransferPlan.infer_eq_error.2 failed)
  | error fault =>
    obtain ⟨_, again⟩ := producers_error (TransferPlan.infer_eq_error.1 outcome)
    refine Or.inr ⟨again.not_nodup, ?_⟩
    obtain ⟨_, usage, _, first, _, _, _, _, rfl⟩ := again
    exact ⟨usage.parameter, first.function, usage.function, rfl⟩

/-- The transfers before a tool are those into its functions, one for each file that is read. -/
theorem forTool_perm (inferred : infer tools settings = .ok plan) (tool : String) :
    (plan.forTool tool).Perm (((reads tools).filter (·.tool = tool)).map fun consumer =>
      consumer.transferIn settings (lastWriter? (writes tools) consumer.parameter)) := by
  obtain ⟨all, found, rfl⟩ := TransferPlan.infer_eq_ok.1 inferred
  have records : Records all (writes tools) := Records.empty.producers found
  simp only [TransferPlan.forTool, OrderedMap.get?_groups, TransferPlan.incoming, List.filter_map, List.map_map,
    records.last, Function.comp_def]
  exact ((TransferPlan.inputs_perm tools).filter _).map _

/-- A transfer moves a file alike when the same files are read and every file has the same writer. -/
theorem Moves.reordered (read : (reads tools).Perm (reads others))
    (last : ∀ parameter, lastWriter? (writes tools) parameter = lastWriter? (writes others) parameter)
    (moves : Moves settings tools moved source target) : Moves settings others moved source target := by
  cases moves with
  | peer reader writer => exact .peer (read.mem_iff.1 reader) ((last _).symm.trans writer)
  | inbound reader unwritten => exact .inbound (read.mem_iff.1 reader) ((last _).symm.trans unwritten)
  | outbound writer unread =>
    refine .outbound ((last _).symm.trans writer) ?_
    rwa [← (read.map FileUsage.parameter).mem_iff]

private theorem trailing_nodup (inferred : infer tools settings = .ok plan) : plan.trailing.Nodup := by
  have parameters := unread_nodup (reads tools) (writes tools)
  rw [← trailing_parameters inferred] at parameters
  exact parameters.of_map

private theorem same_transfers (read : (reads tools).Perm (reads others))
    (last : ∀ parameter, lastWriter? (writes tools) parameter = lastWriter? (writes others) parameter)
    (inferred : infer tools settings = .ok plan) (again : infer others settings = .ok other) :
    plan.SameTransfers other := by
  constructor
  · intro tool
    have readers := ((read.filter (·.tool = tool)).map fun consumer : FileUsage =>
      consumer.transferIn settings (lastWriter? (writes tools) consumer.parameter))
    have writers := forTool_perm again tool
    simp only [← last] at writers
    exact (forTool_perm inferred tool).trans (readers.trans writers.symm)
  · rw [List.perm_ext_iff_of_nodup (trailing_nodup inferred) (trailing_nodup again)]
    intro moved
    rw [TransferPlan.mem_trailing_iff inferred, TransferPlan.mem_trailing_iff again]
    constructor
    · intro ⟨source, moves⟩
      exact ⟨source, moves.reordered read last⟩
    · intro ⟨source, moves⟩
      exact ⟨source, moves.reordered read.symm fun parameter => (last parameter).symm⟩

/-- When a second writer is refused, tools in another order are refused together, or they have
the same transfers before each tool and behind all of them. -/
theorem reordered_tools_have_the_same_transfers (settings : Settings) (strict : settings.producerPolicy = .reject)
    (tools others : List Tool) (reordered : Tool.Reordered tools others) :
    (∃ plan other, infer tools settings = .ok plan ∧ infer others settings = .ok other ∧ plan.SameTransfers other) ∨
    (∃ parameter first second, infer tools settings = .error (.multipleProducers parameter first second)) ∧
      ∃ parameter first second, infer others settings = .error (.multipleProducers parameter first second) := by
  have read : (reads tools).Perm (reads others) := reordered.used .input
  have written : (writes tools).Perm (writes others) := reordered.used .output
  have alike := (written.map FileUsage.parameter).nodup_iff
  rcases infer_strict strict tools with ⟨once, plan, inferred⟩ | ⟨twice, refused⟩
  · rcases infer_strict strict others with ⟨_, other, again⟩ | ⟨twice, _⟩
    · exact Or.inl ⟨plan, other, inferred, again, same_transfers read (lastWriter?_perm once written) inferred again⟩
    · exact absurd (alike.1 once) twice
  · rcases infer_strict strict others with ⟨once, _⟩ | ⟨_, again⟩
    · exact absurd (alike.2 once) twice
    · exact Or.inr ⟨refused, again⟩

/-- One tool splits a text and makes an index of it, another one shows the text and ranks the index. -/
def indexingTools : List Tool :=
  [toolOf "A" [("split", [fileUse "text" .output, fileUse "log" .output]),
      ("index", [fileUse "text" .input, fileUse "index" .output])],
    toolOf "B" [("show", [fileUse "text" .input, fileUse "page" .output]), ("rank", [fileUse "index" .input])]]

/-- The same tools and functions, the last of them declared first. -/
def mirroredTools : List Tool :=
  [toolOf "B" [("rank", [fileUse "index" .input]), ("show", [fileUse "text" .input, fileUse "page" .output])],
    toolOf "A" [("index", [fileUse "text" .input, fileUse "index" .output]),
      ("split", [fileUse "text" .output, fileUse "log" .output])]]

theorem mirrored_tools_have_the_same_transfers : Tool.Reordered indexingTools mirroredTools ∧
    ∃ plan other, infer indexingTools {} = .ok plan ∧ infer mirroredTools {} = .ok other ∧ plan.SameTransfers other ∧
      plan.forTool "B" ≠ other.forTool "B" ∧ plan.trailing ≠ other.trailing := by
  have mirrored : Tool.Reordered indexingTools mirroredTools := by
    refine ⟨_, .swap _ _ _, .cons (.provenance _ _ _ ?_) (.cons (.provenance _ _ _ ?_) .nil)⟩
    · decide
    · decide
  have before : (infer indexingTools {}).toOption.map (·.forTool "B") ≠
      (infer mirroredTools {}).toOption.map (·.forTool "B") := by decide
  have behind : (infer indexingTools {}).toOption.map TransferPlan.trailing ≠
      (infer mirroredTools {}).toOption.map TransferPlan.trailing := by decide
  refine ⟨mirrored, ?_⟩
  rcases reordered_tools_have_the_same_transfers {} rfl _ _ mirrored with
    ⟨plan, other, inferred, again, same⟩ | ⟨⟨_, _, _, refused⟩, _, _, _, refusedAgain⟩
  · rw [inferred, again] at before behind
    exact ⟨plan, other, inferred, again, same, fun equal => before (congrArg some equal),
      fun equal => behind (congrArg some equal)⟩
  · rw [refused, refusedAgain] at behind
    exact absurd rfl behind

end Provenance
