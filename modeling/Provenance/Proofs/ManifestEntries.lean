import Provenance.Proofs.RegistryFiles

/-! What a manifest declares and what its registry keeps. A tool keeps its functions by
name, so that of several entries with one name the last stands for all of them. Every other
entry is kept whole, and what is kept is found again by the summaries and the inference. -/

namespace Provenance

variable {parameters : List Parameter} {entry : ToolEntry} {tool : ProvenanceTool} {registry : Registry}

/-- An entry as a usage: of the declared parameter of its name, with what the entry says. -/
structure UsageEntry.Stands (parameters : List Parameter) (entry : UsageEntry) (use : Usage) : Prop where
  declared : use.parameter ∈ parameters
  name : use.name = entry.parameter
  direction : use.direction = entry.direction
  value : use.localValue = entry.value

/-- A function with every usage of its entry, in order. -/
structure FunctionEntry.Stands (parameters : List Parameter) (entry : FunctionEntry) (use : FunctionUse) : Prop where
  signature : use.signature = entry.signature
  args : List.Forall₂ (UsageEntry.Stands parameters) entry.args use.args
  returns : List.Forall₂ (UsageEntry.Stands parameters) entry.returns use.returns

/-- What stands under the name of an entry is the function of this entry. -/
def FunctionEntry.KeptBy (parameters : List Parameter) (entry : FunctionEntry) (tool : ProvenanceTool) : Prop :=
  ∃ use, tool.functions.get? entry.name = some use ∧ entry.Stands parameters use

namespace ToolEntry

def lastOf? (entry : ToolEntry) (name : String) : Option FunctionEntry :=
  (entry.functions.filter fun function => function.name = name).getLast?

private theorem lastOf?_mem {name : String} {function : FunctionEntry} (last : entry.lastOf? name = some function) :
    function ∈ entry.functions ∧ function.name = name := by
  simpa using List.mem_filter.1 (List.mem_of_getLast? last)

/-- Entries with one name say the same. -/
def Consistent (entry : ToolEntry) : Prop :=
  ∀ first ∈ entry.functions, ∀ second ∈ entry.functions, first.name = second.name → first = second

theorem consistent_iff : entry.Consistent ↔ ∀ function ∈ entry.functions, entry.lastOf? function.name = some function := by
  constructor
  · intro consistent function member
    cases last : entry.lastOf? function.name with
    | none =>
      rw [lastOf?, List.getLast?_eq_none_iff, List.filter_eq_nil_iff] at last
      exact absurd (decide_eq_true rfl) (last function member)
    | some other =>
      obtain ⟨inside, same⟩ := lastOf?_mem last
      rw [consistent other inside function member same]
  · intro lasts first member second inside same
    exact Option.some.inj ((lasts first member).symm.trans (same ▸ lasts second inside))

end ToolEntry

def Summary.users (summary : Summary) : Direction → List String
  | .input => summary.input
  | .output => summary.output

/-- A usage of a function is known to the summaries, and to the inference of transfers if a
file is used. -/
structure Registry.Sees (registry : Registry) (tool : ProvenanceTool) (function : String) (entry : UsageEntry) : Prop where
  summarized : ∀ results, registry.summaries = .ok results →
    ∃ result ∈ results, result.name = entry.parameter ∧ function ∈ result.users entry.direction
  located : ∀ parameter ∈ registry.parameters, parameter.name = entry.parameter → parameter.isFile = true →
    ∃ usage ∈ TransferPlan.used entry.direction registry.tools,
      usage.parameter = entry.parameter ∧ usage.tool = tool.name ∧ usage.function = function ∧
      usage.endpoint = tool.endpoint ∧ usage.declaredPath = entry.value.getD entry.parameter

/-- The tool that an entry becomes. -/
structure ToolEntry.Makes (registry : Registry) (entry : ToolEntry) (tool : ProvenanceTool) : Prop where
  name : tool.name = entry.name
  endpoint : tool.endpoint = entry.endpoint
  requiredInputs : tool.requiredInputs = entry.requiredInputs
  order : tool.functions.keys = (entry.functions.map FunctionEntry.name).eraseDups
  kept : ∀ function ∈ entry.functions,
    function.KeptBy registry.parameters tool ↔ entry.lastOf? function.name = some function
  whole : (∀ function ∈ entry.functions, function.KeptBy registry.parameters tool) ↔ entry.Consistent
  seen : ∀ function ∈ entry.functions, function.KeptBy registry.parameters tool →
    ∀ usage ∈ function.args ++ function.returns, registry.Sees tool function.name usage

inductive ToolEntry.Becomes (registry : Registry) (entry : ToolEntry) : Tool → Prop where
  | provenance {tool : ProvenanceTool} (kind : entry.kind = .provenance) (makes : entry.Makes registry tool) :
      Becomes registry entry (.provenance tool)
  | closed (kind : entry.kind = .closed) :
      Becomes registry entry (.closed entry.name (entry.functions.map FunctionEntry.name))

private theorem UsageEntry.Stands.unique {a b : UsageEntry} {use : Usage} (left : a.Stands parameters use)
    (right : b.Stands parameters use) : a = b := by
  cases a
  cases b
  congr
  · exact left.name.symm.trans right.name
  · exact left.direction.symm.trans right.direction
  · exact left.value.symm.trans right.value

private theorem FunctionEntry.Stands.unique {a b : FunctionEntry} {use : FunctionUse} (left : a.Stands parameters use)
    (right : b.Stands parameters use) (same : a.name = b.name) : a = b := by
  have one : Relator.LeftUnique (UsageEntry.Stands parameters) := fun _ _ _ left right => left.unique right
  cases a
  cases b
  congr
  · exact left.signature.symm.trans right.signature
  · exact List.left_unique_forall₂' one left.args right.args
  · exact List.left_unique_forall₂' one left.returns right.returns

namespace Manifest

private theorem usage_stands {function : String} {entry : UsageEntry} {use : Usage}
    (read : usage parameters function entry = .ok use) : entry.Stands parameters use := by
  have declared := usage_declared read
  unfold usage at read
  split at read
  next parameter found =>
    cases read
    have name := List.find?_some found
    exact ⟨declared, of_decide_eq_true name, rfl, rfl⟩
  next => cases read

private theorem functionUse_stands {entry : FunctionEntry} {made : String × FunctionUse}
    (read : functionUse parameters entry = .ok made) : entry.name = made.1 ∧ entry.Stands parameters made.2 := by
  obtain ⟨args, first, read⟩ := Outcome.bind_eq_ok.1 read
  obtain ⟨returns, second, read⟩ := Outcome.bind_eq_ok.1 read
  obtain rfl := Outcome.pure_eq_ok.1 read
  exact ⟨rfl, rfl, (Outcome.mapM_eq_ok.1 first).imp fun _ _ => usage_stands,
    (Outcome.mapM_eq_ok.1 second).imp fun _ _ => usage_stands⟩

end Manifest

private theorem forall₂_getLast? {α β : Type} {related : α → β → Prop} {items : List α} {others : List β}
    (pairs : List.Forall₂ related items others) : Option.Rel related items.getLast? others.getLast? := by
  induction pairs with
  | nil => exact .none
  | @cons item other items others own _ ih =>
    rw [List.getLast?_cons, List.getLast?_cons]
    generalize items.getLast? = last, others.getLast? = last' at ih
    cases ih with
    | some behind => exact .some behind
    | none => exact .some own

namespace Manifest

/-- Under a name stands the function of the last entry with this name. -/
theorem functions_last {functions : List (String × FunctionUse)}
    (read : entry.functions.mapM (functionUse parameters) = .ok functions) (name : String) :
    Option.Rel (FunctionEntry.Stands parameters) (entry.lastOf? name) ((OrderedMap.ofList functions).get? name) := by
  have pairs := (Outcome.mapM_eq_ok.1 read).imp fun _ _ => functionUse_stands
  have named : List.Forall₂
      (fun entry (made : String × FunctionUse) => entry.name = made.1 ∧ entry.Stands parameters made.2)
      (entry.functions.filter fun function => function.name = name) (functions.filter fun made => made.1 = name) := by
    apply List.rel_filter _ pairs
    intro entry made own
    simp only [own.1, decide_eq_true_eq]
  have last := forall₂_getLast? named
  change Option.Rel _ _ (Entries.get? name (Entries.collect functions))
  rw [Entries.get?_collect]
  unfold ToolEntry.lastOf?
  generalize (entry.functions.filter fun function => function.name = name).getLast? = first at last ⊢
  generalize (functions.filter fun made => made.1 = name).getLast? = second at last ⊢
  cases last with
  | none => exact .none
  | some own => exact .some own.2

theorem functions_order {functions : List (String × FunctionUse)}
    (read : entry.functions.mapM (functionUse parameters) = .ok functions) :
    (OrderedMap.ofList functions).keys = (entry.functions.map FunctionEntry.name).eraseDups := by
  have names : entry.functions.map FunctionEntry.name = functions.map Prod.fst :=
    Outcome.map_eq_of_forall₂ (Outcome.mapM_eq_ok.1 read) fun _ _ read => (functionUse_stands read).1
  rw [OrderedMap.keys_ofList, names]

end Manifest

private theorem FunctionEntry.keptBy_iff (stored : ∀ name, Option.Rel (Stands parameters) (entry.lastOf? name)
    (tool.functions.get? name)) (function : FunctionEntry) :
    function.KeptBy parameters tool ↔ entry.lastOf? function.name = some function := by
  have last := stored function.name
  -- A usage of a function determines the entry it stands for, up to the name.
  constructor
  · intro ⟨use, found, stands⟩
    rw [found] at last
    generalize known : entry.lastOf? function.name = other at last
    cases last with
    | some own => rw [own.unique stands (ToolEntry.lastOf?_mem known).2]
  · intro known
    rw [known] at last
    generalize found : tool.functions.get? function.name = use at last
    cases last with
    | some own => exact ⟨_, found, own⟩

private theorem Registry.summary_users (functions : List (String × FunctionUse)) (parameter : Parameter)
    (direction : Direction) :
    (summary functions parameter).users direction = users functions direction parameter.name := by
  cases direction <;> rfl

/-- What a tool keeps of an entry is found again. -/
private theorem Registry.sees (member : Tool.provenance tool ∈ registry.tools) {function : FunctionEntry}
    (kept : function.KeptBy registry.parameters tool) {usage : UsageEntry}
    (inside : usage ∈ function.args ++ function.returns) : registry.Sees tool function.name usage := by
  obtain ⟨use, found, stands⟩ := kept
  have stored := OrderedMap.get?_eq_some_iff.1 found
  have usages : List.Forall₂ (UsageEntry.Stands registry.parameters) (function.args ++ function.returns) use.usages :=
    List.rel_append stands.args stands.returns
  obtain ⟨used, listed, own⟩ := (Outcome.forall₂_partners usages).1 usage inside
  constructor
  · intro results made
    have named : used.parameter.name ∈ (Tool.usages registry.tools).map fun use => use.2.name :=
      List.mem_map.2 ⟨(function.name, used), Tool.mem_usages.2 ⟨tool, member, _, stored, rfl, listed⟩, rfl⟩
    refine ⟨_, (mem_summaries made).2 ⟨used.parameter, own.declared, named, rfl⟩, own.name, ?_⟩
    have declared : (function.name, use) ∈ Tool.declaredFunctions registry.tools :=
      List.mem_flatMap.2 ⟨tool, List.mem_filterMap.2 ⟨_, member, rfl⟩, stored⟩
    rw [summary_users]
    refine List.mem_map.2 ⟨_, List.mem_filter.2 ⟨declared, ?_⟩, rfl⟩
    refine List.any_eq_true.2 ⟨used, listed, ?_⟩
    simp [own.direction, Usage.name]
  · intro parameter known name file
    have same : used.parameter = parameter :=
      List.inj_on_of_nodup_map registry.distinct own.declared known (own.name.trans name.symm)
    refine ⟨tool.fileUsage function.name used, ?_, own.name, rfl, rfl, rfl, ?_⟩
    · exact TransferPlan.mem_used.2 ⟨tool, member, _, stored, used, listed, own.direction, same ▸ file, rfl⟩
    · change used.localValue.getD used.name = usage.value.getD usage.parameter
      rw [own.value, own.name]

private theorem ToolEntry.makes (member : Tool.provenance tool ∈ registry.tools) (name : tool.name = entry.name)
    (endpoint : tool.endpoint = entry.endpoint) (requiredInputs : tool.requiredInputs = entry.requiredInputs)
    (order : tool.functions.keys = (entry.functions.map FunctionEntry.name).eraseDups)
    (stored : ∀ name, Option.Rel (FunctionEntry.Stands registry.parameters) (entry.lastOf? name)
      (tool.functions.get? name)) : entry.Makes registry tool where
  name := name
  endpoint := endpoint
  requiredInputs := requiredInputs
  order := order
  kept := fun function _ => function.keptBy_iff stored
  whole := by
    rw [consistent_iff]
    exact forall₂_congr fun function _ => function.keptBy_iff stored
  seen := fun _ _ kept _ inside => Registry.sees member kept inside

private theorem Manifest.tool_becomes {made : Tool} (read : Manifest.tool registry.parameters entry = .ok made)
    (member : made ∈ registry.tools) : entry.Becomes registry made := by
  unfold Manifest.tool at read
  split at read
  next kind =>
    cases read
    exact .closed kind
  next kind =>
    obtain ⟨functions, listed, read⟩ := Outcome.bind_eq_ok.1 read
    obtain rfl := Outcome.pure_eq_ok.1 read
    exact .provenance kind (ToolEntry.makes member rfl rfl rfl (functions_order listed) (functions_last listed))

/-- A registry has the declared parameters and tools in order. A tool keeps an entry of a
function, with every usage of it, exactly when no later entry of the tool has its name, so that
nothing is lost exactly when the entries with one name say the same. -/
theorem manifests_keep_last_entries (manifest : Manifest) (registry : Registry)
    (made : manifest.registry = .ok registry) :
    registry.parameters = manifest.parameters.map ParameterEntry.parameter ∧
    List.Forall₂ (ToolEntry.Becomes registry) manifest.tools registry.tools := by
  obtain ⟨tools, read, made⟩ := Outcome.bind_eq_ok.1 made
  obtain ⟨parameters, rfl⟩ := Registry.create_eq_ok made
  refine ⟨parameters, ?_⟩
  rw [← parameters] at read
  have pairs := Outcome.mapM_eq_ok.1 read
  have listed := (List.forall₂_and_left registry.tools manifest.tools).2 ⟨fun _ inside => inside, pairs.flip⟩
  exact (listed.imp fun _ _ ⟨inside, read⟩ => Manifest.tool_becomes read inside).flip

/-- A manifest with one tool, whose functions are given. -/
def manifestOf (functions : List FunctionEntry) : Manifest where
  parameters := [{ name := "text", type := "file" }, { name := "image", type := "file" }]
  tools := [{ name := "A", endpoint := "at A", functions }]

def readsText (function : String) : FunctionEntry :=
  { name := function, args := [{ parameter := "text", direction := .input }] }

def drawsImage (function : String) : FunctionEntry :=
  { name := function, returns := [{ parameter := "image", direction := .output }] }

theorem different_functions_are_kept : ∃ registry tool,
    (manifestOf [readsText "split", drawsImage "draw"]).registry = .ok registry ∧
    registry.tools = [.provenance tool] ∧ (readsText "split").KeptBy registry.parameters tool ∧
    (drawsImage "draw").KeptBy registry.parameters tool ∧
    registry.Sees tool "split" { parameter := "text", direction := .input } := by
  have made : ∃ registry tool, (manifestOf [readsText "split", drawsImage "draw"]).registry = .ok registry ∧
      registry.tools = [.provenance tool] := ⟨_, _, rfl, rfl⟩
  obtain ⟨registry, tool, made, only⟩ := made
  obtain ⟨_, becomes⟩ := manifests_keep_last_entries _ _ made
  rw [only] at becomes
  cases becomes with
  | cons first _ =>
    cases first with
    | provenance _ makes =>
      have first : (readsText "split").KeptBy registry.parameters tool := (makes.kept _ (by simp)).2 rfl
      have second : (drawsImage "draw").KeptBy registry.parameters tool := (makes.kept _ (by simp)).2 rfl
      exact ⟨registry, tool, made, only, first, second, makes.seen _ (by simp) first _ (by simp [readsText])⟩

/-- Of two entries for one function the first is lost, without a fault: what it reads is used by
no function, and no summary knows it. -/
theorem first_entry_is_lost : ∃ registry tool,
    (manifestOf [readsText "split", drawsImage "split"]).registry = .ok registry ∧
    registry.tools = [.provenance tool] ∧
    tool.functions.entries = [("split", { returns := [{ parameter := ⟨"image", .file none⟩, direction := .output }] })] ∧
    ¬ (readsText "split").KeptBy registry.parameters tool ∧
    registry.summaries = .ok [{ name := "image", type := "file", format := none, input := [], output := ["split"] }] ∧
    TransferPlan.used .input registry.tools = [] := by
  refine ⟨_, _, rfl, rfl, rfl, ?_, rfl, rfl⟩
  intro ⟨use, found, stands⟩
  cases found
  cases stands.args

end Provenance
