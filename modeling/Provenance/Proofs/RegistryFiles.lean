import Provenance.Proofs.TransferRoutes
import Provenance.Tool.Manifest

/-! The functions that use a file, as the summaries of a registry list them and as
inference finds them. In the registry of a manifest a name stands for one declared
parameter, so both look at the same uses. -/

namespace Provenance

/-- Whoever uses the parameter uses it as a file. -/
def UsedAsFile (tools : List Tool) (parameter : String) : Prop :=
  ∀ use ∈ Tool.usages tools, use.2.name = parameter → use.2.parameter.isFile = true

theorem Tool.mem_usages {tools : List Tool} {use : String × Usage} : use ∈ Tool.usages tools ↔
    ∃ tool, Tool.provenance tool ∈ tools ∧ ∃ entry ∈ tool.functions.entries, use.1 = entry.1 ∧ use.2 ∈ entry.2.usages := by
  simp only [Tool.usages, Tool.declaredFunctions, List.mem_flatMap, List.mem_filterMap, List.mem_map]
  constructor
  · rintro ⟨entry, ⟨tool, ⟨known, member, same⟩, declared⟩, usage, inside, rfl⟩
    cases known with
    | provenance inner =>
      cases same
      exact ⟨tool, member, entry, declared, rfl, inside⟩
    | closed name functions => cases same
  · rintro ⟨tool, member, entry, declared, name, inside⟩
    exact ⟨entry, ⟨tool, ⟨_, member, rfl⟩, declared⟩, use.2, inside, by rw [← name]⟩

theorem Registry.create_eq_ok {parameters : List Parameter} {tools : List Tool} {registry : Registry}
    (made : Registry.create parameters tools = .ok registry) :
    registry.parameters = parameters ∧ registry.tools = tools := by
  unfold Registry.create at made
  dsimp only at made
  split at made
  · cases made
  · split at made
    · cases made
    · cases made
      exact ⟨rfl, rfl⟩

namespace Registry

theorem parameter?_eq_some_iff {registry : Registry} {name : String} {parameter : Parameter} :
    registry.parameter? name = some parameter ↔ parameter ∈ registry.parameters ∧ parameter.name = name := by
  have sound : ∀ {found}, registry.parameter? name = some found → found ∈ registry.parameters ∧ found.name = name := by
    intro found looked
    unfold parameter? at looked
    exact ⟨List.mem_of_find?_eq_some looked, by simpa using List.find?_some looked⟩
  constructor
  · exact sound
  · intro ⟨member, same⟩
    cases looked : registry.parameter? name with
    | none => exact absurd (decide_eq_true same) (List.find?_eq_none.1 looked parameter member)
    | some other =>
      obtain ⟨known, name⟩ := sound looked
      rw [List.inj_on_of_nodup_map registry.distinct known member (name.trans same.symm)]

/-- A summary is made for every parameter that is used. -/
theorem mem_summaries {registry : Registry} {results : List Summary} (made : registry.summaries = .ok results)
    {result : Summary} : result ∈ results ↔
      ∃ parameter ∈ registry.parameters, parameter.name ∈ (Tool.usages registry.tools).map (fun use => use.2.name) ∧
        result = summary (Tool.declaredFunctions registry.tools) parameter := by
  unfold summaries at made
  dsimp only at made
  split at made
  · cases made
  · cases made
    simp only [List.mem_filterMap, List.mem_eraseDups, Option.map_eq_some_iff, parameter?_eq_some_iff]
    constructor
    · intro ⟨name, used, parameter, ⟨member, equal⟩, same⟩
      subst equal
      exact ⟨parameter, member, used, same.symm⟩
    · intro ⟨parameter, member, used, same⟩
      exact ⟨parameter.name, used, parameter, ⟨member, rfl⟩, same.symm⟩

end Registry

namespace Manifest

variable {parameters : List Parameter}

theorem usage_declared {function : String} {entry : UsageEntry} {use : Usage}
    (made : usage parameters function entry = .ok use) : use.parameter ∈ parameters := by
  unfold usage at made
  split at made
  next parameter found =>
    cases made
    exact List.mem_of_find?_eq_some found
  next => cases made

private theorem functionUse_declared {entry : FunctionEntry} {made : String × FunctionUse}
    (read : functionUse parameters entry = .ok made) : ∀ use ∈ made.2.usages, use.parameter ∈ parameters := by
  obtain ⟨args, first, read⟩ := Outcome.bind_eq_ok.1 read
  obtain ⟨returns, second, read⟩ := Outcome.bind_eq_ok.1 read
  obtain rfl := Outcome.pure_eq_ok.1 read
  intro use member
  rcases List.mem_append.1 member with argument | result
  · obtain ⟨_, _, found⟩ := Outcome.mem_of_mapM first argument
    exact usage_declared found
  · obtain ⟨_, _, found⟩ := Outcome.mem_of_mapM second result
    exact usage_declared found

private theorem tool_declared {entry : ToolEntry} {made : ProvenanceTool}
    (read : Manifest.tool parameters entry = .ok (.provenance made)) {function : String × FunctionUse}
    (member : function ∈ made.functions.entries) : ∀ use ∈ function.2.usages, use.parameter ∈ parameters := by
  unfold Manifest.tool at read
  split at read
  · cases read
  · obtain ⟨functions, listed, read⟩ := Outcome.bind_eq_ok.1 read
    cases Outcome.pure_eq_ok.1 read
    obtain ⟨_, _, found⟩ := Outcome.mem_of_mapM listed (Entries.mem_of_mem_collect member)
    exact functionUse_declared found

/-- The functions of a manifest only use its parameters. -/
theorem registry_declared {manifest : Manifest} {registry : Registry} (made : manifest.registry = .ok registry) :
    registry.parameters = manifest.parameters.map ParameterEntry.parameter ∧
      ∀ use ∈ Tool.usages registry.tools, use.2.parameter ∈ registry.parameters := by
  obtain ⟨tools, read, made⟩ := Outcome.bind_eq_ok.1 made
  obtain ⟨parameters, rfl⟩ := Registry.create_eq_ok made
  refine ⟨parameters, ?_⟩
  intro use member
  obtain ⟨tool, inside, function, declared, _, used⟩ := Tool.mem_usages.1 member
  obtain ⟨_, _, found⟩ := Outcome.mem_of_mapM read inside
  rw [parameters]
  exact tool_declared found declared use.2 used

theorem used_as_file {manifest : Manifest} {registry : Registry} (made : manifest.registry = .ok registry)
    {entry : ParameterEntry} (member : entry ∈ manifest.parameters) (file : entry.type = "file") :
    UsedAsFile registry.tools entry.name := by
  obtain ⟨parameters, declared⟩ := registry_declared made
  intro use used name
  have listed : entry.parameter ∈ registry.parameters := by
    rw [parameters]
    exact List.mem_map_of_mem member
  have same : use.2.parameter = entry.parameter :=
    List.inj_on_of_nodup_map registry.distinct (declared use used) listed name
  rw [same, ParameterEntry.parameter, Parameter.ofType, if_pos file]
  rfl

end Manifest

/-- The last of some constant runs belongs to the last item with a run. -/
private theorem getLast?_flatMap_const {α β γ : Type} (items : List α) (run : α → List β) (value : α → γ) :
    (items.flatMap fun item => (run item).map fun _ => value item).getLast? =
      ((items.filter fun item => !(run item).isEmpty).map value).getLast? := by
  induction items using List.reverseRecOn with
  | nil => rfl
  | append_singleton items item ih =>
    rw [List.flatMap_append, List.filter_append, List.map_append, List.getLast?_append, List.getLast?_append, ih]
    congr 1
    rw [List.flatMap_singleton, List.map_const', List.getLast?_replicate]
    cases parts : run item <;> simp [parts]

namespace TransferPlan

variable {tools : List Tool} {parameter : String} {direction : Direction}

/-- Every file that functions use in one direction. -/
def used (direction : Direction) (tools : List Tool) : List FileUsage :=
  (steps tools).flatMap fun tool => tool.fileUsages direction

theorem mem_used {usage : FileUsage} : usage ∈ used direction tools ↔
    ∃ tool, Tool.provenance tool ∈ tools ∧ ∃ entry ∈ tool.functions.entries, ∃ use ∈ entry.2.usages,
      use.direction = direction ∧ use.parameter.isFile = true ∧ usage = tool.fileUsage entry.1 use := by
  have listed : ∀ tool, tool ∈ steps tools ↔ Tool.provenance tool ∈ tools := by
    intro tool
    rw [steps, List.mem_filterMap]
    constructor
    · intro ⟨known, member, same⟩
      cases known with
      | provenance inner => exact Option.some.inj same ▸ member
      | closed name functions => cases same
    · exact fun member => ⟨_, member, rfl⟩
  simp only [used, ProvenanceTool.fileUsages, List.mem_flatMap, List.mem_map, List.mem_filter, listed,
    Bool.and_eq_true, decide_eq_true_eq, and_assoc, eq_comm (a := usage)]

/-- The functions that use a file, each as often as it uses the file. -/
theorem functions_of_used (file : UsedAsFile tools parameter) (direction : Direction) :
    ((used direction tools).filter fun usage => usage.parameter = parameter).map FileUsage.function =
      (Tool.declaredFunctions tools).flatMap fun function =>
        (function.2.usages.filter fun usage => usage.direction = direction && usage.name = parameter).map
          fun _ => function.1 := by
  have declared : Tool.declaredFunctions tools = (steps tools).flatMap fun tool => tool.functions.entries := rfl
  rw [declared, List.flatMap_assoc, used, List.filter_flatMap, List.map_flatMap]
  apply List.flatMap_congr
  intro tool step
  rw [ProvenanceTool.fileUsages, List.filter_flatMap, List.map_flatMap]
  apply List.flatMap_congr
  intro function member
  rw [List.filter_map, List.map_map, List.filter_filter]
  have same : ∀ usage ∈ function.2.usages,
      (decide (usage.name = parameter) && (usage.direction = direction && usage.parameter.isFile)) =
        (usage.direction = direction && decide (usage.name = parameter)) := by
    intro usage inside
    by_cases name : usage.name = parameter
    · have listed : (function.1, usage) ∈ Tool.usages tools := by
        rw [Tool.usages, declared]
        exact List.mem_flatMap.2 ⟨function, List.mem_flatMap.2 ⟨tool, step, member⟩, List.mem_map_of_mem inside⟩
      simp [name, file _ listed name]
    · simp [name]
  apply congrArg
  exact List.filter_congr same

/-- The producer in a summary is the function that inference takes for it. -/
theorem users_last (file : UsedAsFile tools parameter) :
    (Registry.users (Tool.declaredFunctions tools) .output parameter).getLast? =
      (lastWriter? (writes tools) parameter).map FileUsage.function := by
  have runs : ∀ function : String × FunctionUse, function.2.uses .output parameter =
      !(function.2.usages.filter fun usage => usage.direction = .output && usage.name = parameter).isEmpty := by
    intro function
    rw [Bool.eq_iff_iff, FunctionUse.uses]
    simp
  have last := congrArg List.getLast? (functions_of_used file .output)
  rw [getLast?_flatMap_const, List.getLast?_map] at last
  simp only [Registry.users, runs]
  exact last.symm

theorem mem_users_iff (file : UsedAsFile tools parameter) {function : String} :
    function ∈ Registry.users (Tool.declaredFunctions tools) direction parameter ↔
      ∃ usage ∈ used direction tools, usage.parameter = parameter ∧ usage.function = function := by
  have same := congrArg (function ∈ ·) (functions_of_used file direction)
  simp only [List.mem_map, List.mem_filter, List.mem_flatMap, decide_eq_true_eq, and_assoc] at same
  rw [same]
  simp only [Registry.users, FunctionUse.uses, List.mem_map, List.mem_filter, List.any_eq_true]
  constructor
  · intro ⟨declared, ⟨member, usage, inside, used⟩, name⟩
    exact ⟨declared, member, usage, inside, used, name⟩
  · intro ⟨declared, member, usage, inside, used, name⟩
    exact ⟨declared, ⟨member, usage, inside, used⟩, name⟩

theorem mem_users {function : String} : function ∈ Registry.users (Tool.declaredFunctions tools) direction parameter ↔
    ∃ usage, (function, usage) ∈ Tool.usages tools ∧ usage.direction = direction ∧ usage.name = parameter := by
  simp only [Tool.usages, Registry.users, FunctionUse.uses, List.mem_map, List.mem_flatMap, List.mem_filter,
    List.any_eq_true, Bool.and_eq_true, decide_eq_true_eq]
  constructor
  · intro ⟨declared, ⟨member, usage, inside, used⟩, name⟩
    exact ⟨usage, ⟨declared, member, usage, inside, Prod.ext name rfl⟩, used⟩
  · intro ⟨usage, ⟨declared, member, _, inside, same⟩, used⟩
    cases same
    exact ⟨declared, ⟨member, usage, inside, used⟩, rfl⟩

/-- A parameter that is used is used by some function in one of the directions. -/
theorem name_used_iff : parameter ∈ (Tool.usages tools).map (fun use => use.2.name) ↔
    ∃ direction function, function ∈ Registry.users (Tool.declaredFunctions tools) direction parameter := by
  simp only [mem_users, List.mem_map]
  constructor
  · intro ⟨use, member, name⟩
    exact ⟨use.2.direction, use.1, use.2, member, rfl, name⟩
  · intro ⟨_, _, usage, member, _, name⟩
    exact ⟨_, member, name⟩

end TransferPlan

end Provenance
