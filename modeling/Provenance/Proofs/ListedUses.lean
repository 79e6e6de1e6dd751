import Provenance.Proofs.ListSplits
import Provenance.Proofs.RegistryFiles

/-! The summaries of a registry against the uses that its functions make of parameters. Each
parameter that is used has one summary, at the place of its first use, and there the functions
that use it stand in the order of their tools. No other list does the same. -/

namespace Provenance

/-- The items that are wanted of a list, each once, in the order of their first places there. -/
structure Picks (items : List String) (wanted : String → Prop) (picked : List String) : Prop where
  only : ∀ item, item ∈ picked ↔ wanted item
  ordered : picked.Pairwise fun first second => items.idxOf first < items.idxOf second

/-- The first item that stands in a list for the second time. -/
def FirstRepeat (items : List String) (item : String) : Prop :=
  ∃ before after, items = before ++ item :: after ∧ before.Nodup ∧ item ∈ before

namespace Registry

/-- The functions of the provenance tools, in the order of the tools. -/
def functionNames (r : Registry) : List String := r.provenanceTools.flatMap fun tool => tool.functions.keys

/-- The parameters that functions use, each as often as it is used: function by function, the
arguments before the results. -/
def usedNames (r : Registry) : List String :=
  r.provenanceTools.flatMap fun tool => tool.functions.entries.flatMap fun function =>
    (function.2.args ++ function.2.returns).map Usage.name

/-- A function has the parameter in this direction among its arguments or its results. -/
def Uses (r : Registry) (direction : Direction) (parameter function : String) : Prop :=
  ∃ tool ∈ r.provenanceTools, ∃ use, (function, use) ∈ tool.functions.entries ∧
    ∃ usage ∈ use.args ++ use.returns, usage.direction = direction ∧ usage.name = parameter

/-- Two of the provenance tools declare the function. -/
def Shares (r : Registry) (function : String) : Prop :=
  ∃ first second, [first, second].Sublist r.provenanceTools ∧
    function ∈ first.functions.keys ∧ function ∈ second.functions.keys

/-- The summaries of all uses: what is declared of each parameter, and the functions that use it. -/
structure Lists (r : Registry) (results : List Summary) : Prop where
  names : Picks r.usedNames (· ∈ r.usedNames) (results.map Summary.name)
  declared : ∀ result ∈ results, ∃ parameter ∈ r.parameters, parameter.name = result.name ∧
    parameter.typeName = result.type ∧ parameter.format? = result.format
  readers : ∀ result ∈ results, Picks r.functionNames (r.Uses .input result.name) result.input
  writers : ∀ result ∈ results, Picks r.functionNames (r.Uses .output result.name) result.output

end Registry

variable {items picked others : List String} {wanted : String → Prop} {item : String}

private theorem Picks.nodup (picks : Picks items wanted picked) : picked.Nodup := by
  apply picks.ordered.imp
  rintro first second less rfl
  exact Nat.lt_irrefl _ less

private theorem Picks.unique (picks : Picks items wanted picked) (again : Picks items wanted others) :
    picked = others := by
  have same := (List.perm_ext_iff_of_nodup picks.nodup again.nodup).2 fun item =>
    (picks.only item).trans (again.only item).symm
  refine same.eq_of_pairwise ?_ picks.ordered again.ordered
  intro first second _ _ less more
  exact absurd (Nat.lt_trans less more) (Nat.lt_irrefl _)

private theorem picks_eraseDups (items : List String) : Picks items (· ∈ items) items.eraseDups := by
  refine ⟨fun item => List.mem_eraseDups, ?_⟩
  induction items using List.reverseRecOn with
  | nil => exact .nil
  | append_singleton items last ih =>
    -- A first place stays where it is when the list grows at its end.
    have earlier : items.eraseDups.Pairwise fun first second =>
        (items ++ [last]).idxOf first < (items ++ [last]).idxOf second := by
      refine ih.imp_of_mem ?_
      intro first second one two less
      rwa [List.idxOf_append_of_mem (List.mem_eraseDups.1 one), List.idxOf_append_of_mem (List.mem_eraseDups.1 two)]
    rw [eraseDups_concat]
    split
    next => exact earlier
    next new =>
      refine List.pairwise_append.2 ⟨earlier, List.pairwise_singleton _ _, ?_⟩
      intro first member second single
      obtain rfl := List.mem_singleton.1 single
      have old := List.mem_eraseDups.1 member
      rw [List.idxOf_append_of_mem old, List.idxOf_append_of_notMem new]
      exact Nat.lt_add_right _ (List.idxOf_lt_length_iff.2 old)

private theorem ordered_of_sublist (distinct : items.Nodup) (part : picked.Sublist items) :
    picked.Pairwise fun first second => items.idxOf first < items.idxOf second := by
  refine List.Pairwise.sublist part (List.pairwise_iff_getElem.2 ?_)
  intro first second one two less
  rwa [distinct.idxOf_getElem, distinct.idxOf_getElem]

private theorem FirstRepeat.not_nodup (repeated : FirstRepeat items item) : ¬ items.Nodup := by
  obtain ⟨before, after, rfl, _, member⟩ := repeated
  intro distinct
  exact (List.nodup_append.1 distinct).2.2 item member item List.mem_cons_self rfl

/-- Behind distinct items, one of them is the first to stand there again. -/
private theorem firstRepeat_append_cons {head : String} {rest : List String} (distinct : items.Nodup)
    (old : head ∈ items) : FirstRepeat (items ++ head :: rest) item ↔ head = item := by
  constructor
  · intro repeated
    obtain ⟨before, after, split, single, member⟩ := repeated
    rcases append_eq_append_cons_iff.1 split with ⟨behind, inside, _⟩ | ⟨ahead, rfl, later⟩
    · exact absurd distinct (FirstRepeat.not_nodup ⟨before, behind, inside, single, member⟩)
    · cases ahead with
      | nil => exact (List.cons.inj later).1
      | cons first ahead =>
        obtain ⟨rfl, _⟩ := List.cons.inj later
        exact absurd rfl ((List.nodup_append.1 single).2.2 head old head List.mem_cons_self)
  · rintro rfl
    exact ⟨items, rest, rfl, distinct, old⟩

theorem firstRepeat?_eq_some_iff {seen rest : List String} (distinct : items.Nodup)
    (known : ∀ item, item ∈ seen ↔ item ∈ items) :
    firstRepeat? seen rest = some item ↔ FirstRepeat (items ++ rest) item := by
  induction rest generalizing seen items with
  | nil =>
    have single : ¬ FirstRepeat items item := fun repeated => repeated.not_nodup distinct
    simp [firstRepeat?, single]
  | cons head rest ih =>
    by_cases old : head ∈ seen
    · rw [firstRepeat?, if_pos old, Option.some.injEq, firstRepeat_append_cons distinct ((known head).1 old)]
    · have new : head ∉ items := fun member => old ((known head).2 member)
      rw [firstRepeat?, if_neg old, List.append_cons]
      exact ih (by simpa using distinct.concat new) fun other => by simp [known, or_comm]

private theorem firstRepeat_iff : firstRepeat? [] items = some item ↔ FirstRepeat items item :=
  firstRepeat?_eq_some_iff List.nodup_nil fun _ => Iff.rfl

namespace Registry

variable {r : Registry} {results : List Summary} {direction : Direction} {parameter function : String} {fault : Failure}

private theorem functionNames_eq (r : Registry) : r.functionNames = (Tool.declaredFunctions r.tools).map Prod.fst := by
  rw [Tool.declaredFunctions, List.map_flatMap]
  rfl

private theorem usedNames_eq (r : Registry) : r.usedNames = (Tool.usages r.tools).map fun use => use.2.name := by
  simp only [Tool.usages, Tool.declaredFunctions, List.flatMap_assoc, List.map_flatMap, List.map_map]
  rfl

/-- A tool has a function once, so a function that is there twice has two tools. -/
theorem nodup_functionNames_iff : r.functionNames.Nodup ↔ ¬ ∃ function, r.Shares function := by
  rw [functionNames, List.nodup_flatMap, List.pairwise_iff_forall_sublist]
  constructor
  · rintro ⟨_, apart⟩ ⟨function, first, second, both, one, two⟩
    exact apart both one two
  · intro unshared
    refine ⟨fun tool _ => tool.functions.distinct, ?_⟩
    intro first second both function one two
    exact unshared ⟨function, first, second, both, one, two⟩

private theorem uses_iff : r.Uses direction parameter function ↔
    function ∈ users (Tool.declaredFunctions r.tools) direction parameter := by
  simp only [Uses, users, Tool.declaredFunctions, FunctionUse.uses, FunctionUse.usages, provenanceTools, List.mem_map,
    List.mem_filter, List.mem_flatMap, List.any_eq_true, Bool.and_eq_true, decide_eq_true_eq]
  constructor
  · intro uses
    obtain ⟨tool, known, use, declared, used⟩ := uses
    exact ⟨(function, use), ⟨⟨tool, known, declared⟩, used⟩, rfl⟩
  · rintro ⟨⟨_, use⟩, ⟨⟨tool, known, declared⟩, used⟩, rfl⟩
    exact ⟨tool, known, use, declared, used⟩

private theorem picks_users (distinct : r.functionNames.Nodup) (direction : Direction) (parameter : String) :
    Picks r.functionNames (r.Uses direction parameter) (users (Tool.declaredFunctions r.tools) direction parameter) := by
  refine ⟨fun function => uses_iff.symm, ordered_of_sublist distinct ?_⟩
  rw [functionNames_eq]
  exact List.filter_sublist.map _

theorem summaries_eq_error : r.summaries = .error fault ↔
    ∃ function, fault = .duplicateFunctionName function ∧ FirstRepeat r.functionNames function := by
  simp only [← firstRepeat_iff, functionNames_eq]
  unfold summaries
  dsimp only
  cases firstRepeat? [] ((Tool.declaredFunctions r.tools).map Prod.fst) with
  | none => simp
  | some function => simp [eq_comm]

theorem summaries_eq_ok : r.summaries = .ok results ↔ r.functionNames.Nodup ∧
    results = r.usedNames.eraseDups.filterMap fun name =>
      (r.parameter? name).map (summary (Tool.declaredFunctions r.tools)) := by
  have distinct : firstRepeat? [] r.functionNames = none ↔ r.functionNames.Nodup := by
    simp [firstRepeat?_eq_none_iff]
  rw [← distinct, functionNames_eq, usedNames_eq]
  unfold summaries
  dsimp only
  cases firstRepeat? [] ((Tool.declaredFunctions r.tools).map Prod.fst) with
  | none => simp [eq_comm]
  | some function => simp

/-- Summaries fail exactly on a function that two tools share. -/
theorem summaries_fail_iff : (∃ fault, r.summaries = .error fault) ↔ ∃ function, r.Shares function := by
  rw [← not_iff_not, ← nodup_functionNames_iff]
  cases outcome : r.summaries with
  | ok results => simp [(summaries_eq_ok.1 outcome).1]
  | error fault =>
    have twice : ¬ r.functionNames.Nodup := by
      intro distinct
      cases outcome.symm.trans (summaries_eq_ok.2 ⟨distinct, rfl⟩)
    simp [twice]

/-- Every name that is used is declared, so it has a summary of its own. -/
theorem names_of_summaries (made : r.summaries = .ok results) : results.map Summary.name = r.usedNames.eraseDups := by
  have named : ∀ name ∈ r.usedNames.eraseDups,
      ((r.parameter? name).map (summary (Tool.declaredFunctions r.tools))).map Summary.name = some name := by
    intro name member
    rw [List.mem_eraseDups, usedNames_eq] at member
    obtain ⟨use, used, rfl⟩ := List.mem_map.1 member
    obtain ⟨parameter, known, same⟩ := List.mem_map.1 (r.declared use used)
    rw [parameter?_eq_some_iff.2 ⟨known, same⟩]
    exact congrArg some same
  rw [(summaries_eq_ok.1 made).2, List.map_filterMap, List.filterMap_congr named, List.filterMap_some]

private theorem lists_of_summaries (made : r.summaries = .ok results) : r.Lists results := by
  have distinct := (summaries_eq_ok.1 made).1
  refine ⟨?_, ?_, ?_, ?_⟩
  · rw [names_of_summaries made]
    exact picks_eraseDups r.usedNames
  · intro result member
    obtain ⟨parameter, known, _, rfl⟩ := (mem_summaries made).1 member
    exact ⟨parameter, known, rfl, rfl, rfl⟩
  · intro result member
    obtain ⟨parameter, _, _, rfl⟩ := (mem_summaries made).1 member
    exact picks_users distinct .input parameter.name
  · intro result member
    obtain ⟨parameter, _, _, rfl⟩ := (mem_summaries made).1 member
    exact picks_users distinct .output parameter.name

/-- A summary is known by its name, because its parameter is. -/
private theorem Lists.summary_unique {others : List Summary} (lists : r.Lists results) (again : r.Lists others)
    {first second : Summary} (member : first ∈ results) (inside : second ∈ others) (same : first.name = second.name) :
    first = second := by
  obtain ⟨parameter, known, name, type, format⟩ := lists.declared first member
  obtain ⟨other, listed, name', type', format'⟩ := again.declared second inside
  obtain rfl : parameter = other :=
    List.inj_on_of_nodup_map r.distinct known listed (name.trans (same.trans name'.symm))
  have readers := again.readers second inside
  have writers := again.writers second inside
  rw [← same] at readers writers
  have input := (lists.readers first member).unique readers
  have output := (lists.writers first member).unique writers
  obtain ⟨_, _, _, _, _⟩ := first
  obtain ⟨_, _, _, _, _⟩ := second
  rw [Summary.mk.injEq]
  exact ⟨same, type.symm.trans type', format.symm.trans format', input, output⟩

private theorem Lists.unique {others : List Summary} (lists : r.Lists results) (again : r.Lists others) :
    results = others := by
  rw [← List.forall₂_eq_eq_eq]
  apply Outcome.forall₂_of_map_eq (lists.names.unique again.names)
  intro first member second inside same
  exact lists.summary_unique again member inside same

/-- A registry has summaries unless two of its provenance tools declare one function, and then it
fails with the first function that is repeated. The summaries are the one list with a summary for
every parameter that is used, in the order of first uses: with what is declared of the parameter, and
with the functions that read it and those that write it in their order, each once. -/
theorem summaries_list_the_uses (r : Registry) :
    ((∃ fault, r.summaries = .error fault) ↔ ∃ function, r.Shares function) ∧
    (∀ fault, r.summaries = .error fault ↔
      ∃ function, fault = .duplicateFunctionName function ∧ FirstRepeat r.functionNames function) ∧
    ∀ results, r.summaries = .ok results ↔ (¬ ∃ function, r.Shares function) ∧ r.Lists results := by
  refine ⟨summaries_fail_iff, fun fault => summaries_eq_error, fun results => ?_⟩
  constructor
  · intro made
    exact ⟨nodup_functionNames_iff.1 (summaries_eq_ok.1 made).1, lists_of_summaries made⟩
  · intro ⟨unshared, lists⟩
    have made := summaries_eq_ok.2 ⟨nodup_functionNames_iff.2 unshared, rfl⟩
    rw [lists.unique (lists_of_summaries made)]
    exact made

/-- A text is declared as a file, and used as a number. One function writes it in an argument and reads
it in a result, the other reads it twice. -/
def numberedText : Registry :=
  { parameters := [⟨"count", .scalar "int"⟩, ⟨"text", .file (some "txt")⟩]
    tools :=
      [.closed "Other" ["sort"],
        .provenance
          { name := "Sorter", endpoint := "at Sorter"
            functions := OrderedMap.ofList
              [("sort", { args := [⟨⟨"text", .scalar "int"⟩, .output, none⟩]
                          returns := [⟨⟨"text", .scalar "int"⟩, .input, none⟩] }),
                ("show", { args := [⟨⟨"text", .scalar "int"⟩, .input, none⟩, ⟨⟨"text", .scalar "int"⟩, .input, none⟩] })] }]
    distinct := by decide
    declared := by decide }

example : numberedText.summaries.toOption =
    some [⟨"text", "file", some "txt", ["sort", "show"], ["sort"]⟩] := by decide

end Registry

end Provenance
