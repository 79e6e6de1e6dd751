import Provenance.Proofs.PlanSteps
import Provenance.Transfer.Sequence

/-! The flow plan of a sequence reads back as the sequence. The walk through it visits
the entries in their order, and each of their states has only fields that can be
resolved, unless it is passed over. -/

namespace Provenance

open Provenance.Flow (ComputeStep Field State Step Task TransferItem TransferStep computes lookup)

namespace SequenceEntry

/-- The lookups that the state of an entry makes in the flow input. -/
def lookups : SequenceEntry → List String
  | .compute _ function =>
    ["$.input.compute_endpoint", "$.input." ++ function ++ "_function_id", "$.input." ++ function]
  | .transfer _ | .capture _ _ => []

/-- Whether an entry has a step, when transfers with a marker in their names have none. -/
def kept (marker : String) : SequenceEntry → Bool
  | .compute _ _ => true
  | .transfer moved => !decide (marker.toList <:+: moved.stateName.toList)
  | .capture _ _ => false

/-- A field that was looked up in the flow input, with its path. -/
def LookedUp (input : Json) (path : String) (field : Field) : Prop :=
  ∃ value, lookup input path = .ok value ∧ field = .indirect path value

/-- The step of an entry, but for its position. -/
def ReadsAs (input : Json) : SequenceEntry → Step → Prop
  | .compute tool function, .compute step =>
    step.name = function ∧ step.comment = some (function ++ " from " ++ tool) ∧
      step.resultPath = some ("$." ++ function) ∧
      ∃ task, step.tasks = [task] ∧ LookedUp input "$.input.compute_endpoint" task.endpoint ∧
        LookedUp input ("$.input." ++ function ++ "_function_id") task.function ∧
        LookedUp input ("$.input." ++ function) task.payload
  | .transfer moved, .transfer step =>
    step.name = moved.stateName ∧ step.sourceEndpoint = .literal (.string moved.source.endpoint) ∧
      step.destinationEndpoint = .literal (.string moved.destination.endpoint) ∧
      step.items = [{ sourcePath := .literal (.string moved.source.path)
                      destinationPath := .literal (.string moved.destination.path)
                      recursive := .literal (.bool moved.recursive) }]
  | _, _ => False

end SequenceEntry

/-- A flow input has every value that the states of a sequence look up. -/
def Supplies (input : Json) (entries : List SequenceEntry) : Prop :=
  ∀ entry ∈ entries, ∀ path ∈ entry.lookups, ∃ value, lookup input path = .ok value

theorem supplies_of_all {input : Json} {entries : List SequenceEntry}
    (found : (entries.flatMap SequenceEntry.lookups).all (fun path => (lookup input path).toOption.isSome) = true) :
    Supplies input entries := by
  intro entry member path asked
  exact Outcome.ok_of_isSome (List.all_eq_true.1 found path (List.mem_flatMap.2 ⟨entry, member, asked⟩))

namespace Flow

variable {input : Json} {fields : List (String × Json)} {state key : String}

theorem Field.resolve_literal {value : Json} (found : Entries.get? key fields = some value) :
    Field.resolve state fields key input = .ok (.literal value) := by
  rw [Field.resolve, found]

private theorem Field.resolve_indirect {path : String} {value : Json} (absent : Entries.get? key fields = none)
    (found : Entries.get? (key ++ ".$") fields = some (.string path)) (supplied : lookup input path = .ok value) :
    Field.resolve state fields key input = .ok (.indirect path value) := by
  simp only [Field.resolve, absent, found, supplied]
  rfl

private theorem objectList_single {α : Type} {members : List (String × Json)}
    {read : List (String × Json) → Except Failure α}
    {result : α} (found : Entries.get? key fields = some (.array [.object members]))
    (reads : read members = .ok result) : objectList state fields key input read = .ok [result] := by
  rw [objectList, Field.resolve_literal found]
  simp only [bind, Except.bind, Field.value, List.mapM_cons, reads, List.mapM_nil, pure, Except.pure]

end Flow

namespace SequenceEntry

variable {input : Json}

def action : SequenceEntry → Flow.ActionKind
  | .compute _ _ => .compute
  | .transfer _ | .capture _ _ => .transfer

theorem kind_state (entry : SequenceEntry) (settings : Settings) : (entry.state settings).kind? = some entry.action := by
  have compute : Flow.ActionKind.ofAction? Flow.computeAction = some .compute := by decide
  have transfer : Flow.ActionKind.ofAction? Flow.transferAction = some .transfer := by decide
  cases entry with
  | compute _ _ => exact compute
  | transfer _ | capture _ _ => exact transfer

theorem computeState_reads {tool function : String}
    (supplied : ∀ path ∈ (SequenceEntry.compute tool function).lookups, ∃ value, lookup input path = .ok value)
    (position : Nat) : ∃ step, ComputeStep.ofState function (computeState tool function) input position = .ok step ∧
      ReadsAs input (.compute tool function) (.compute step) := by
  simp only [lookups, List.forall_mem_cons] at supplied
  obtain ⟨⟨endpoint, first⟩, ⟨id, second⟩, ⟨payload, third⟩, -⟩ := supplied
  refine ⟨{ name := function, comment := some (function ++ " from " ++ tool)
            tasks := [{ endpoint := .indirect "$.input.compute_endpoint" endpoint
                        function := .indirect ("$.input." ++ function ++ "_function_id") id
                        payload := .indirect ("$.input." ++ function) payload }]
            resultPath := some ("$." ++ function), position }, ?_, rfl, rfl, rfl, _, rfl,
    ⟨endpoint, first, rfl⟩, ⟨id, second, rfl⟩, ⟨payload, third, rfl⟩⟩
  refine Outcome.bind_eq_ok.2 ⟨_, Flow.objectList_single rfl ?_, rfl⟩
  refine Outcome.bind_eq_ok.2 ⟨_, Flow.Field.resolve_indirect rfl rfl first, ?_⟩
  refine Outcome.bind_eq_ok.2 ⟨_, Flow.Field.resolve_indirect rfl rfl second, ?_⟩
  exact Outcome.bind_eq_ok.2 ⟨_, Flow.Field.resolve_indirect rfl rfl third, rfl⟩

theorem transferState_reads (input : Json) (moved : Transfer) :
    ∃ step, TransferStep.ofState moved.stateName (transferState moved) input = .ok step ∧
      ReadsAs input (.transfer moved) (.transfer step) := by
  refine ⟨{ name := moved.stateName
            sourceEndpoint := .literal (.string moved.source.endpoint)
            destinationEndpoint := .literal (.string moved.destination.endpoint)
            items := [{ sourcePath := .literal (.string moved.source.path)
                        destinationPath := .literal (.string moved.destination.path)
                        recursive := .literal (.bool moved.recursive) }] }, ?_, rfl, rfl, rfl, rfl⟩
  refine Outcome.bind_eq_ok.2 ⟨_, Field.resolve_literal rfl, ?_⟩
  refine Outcome.bind_eq_ok.2 ⟨_, Field.resolve_literal rfl, ?_⟩
  refine Outcome.bind_eq_ok.2 ⟨_, Flow.objectList_single rfl ?_, rfl⟩
  refine Outcome.bind_eq_ok.2 ⟨_, Field.resolve_literal rfl, ?_⟩
  refine Outcome.bind_eq_ok.2 ⟨_, Field.resolve_literal rfl, ?_⟩
  exact Outcome.bind_eq_ok.2 ⟨_, Field.resolve_literal rfl, rfl⟩

end SequenceEntry

namespace Flow

/-- A state that was told how its flow goes on. -/
def State.Linked (state linked : State) : Prop :=
  linked = state.terminal ∨ ∃ next, linked = state.chainTo next

variable {state linked : State} {name : String} {position : Nat} {input : Json} {marker : Option String}

private theorem State.Linked.kind_eq (link : state.Linked linked) : linked.kind? = state.kind? := by
  obtain rfl | ⟨next, rfl⟩ := link <;> rfl

private theorem State.Linked.compute_eq (link : state.Linked linked) :
    ComputeStep.ofState name linked input position = ComputeStep.ofState name state input position := by
  obtain rfl | ⟨next, rfl⟩ := link <;> rfl

private theorem State.Linked.transfer_eq (link : state.Linked linked) :
    TransferStep.ofState name linked input = TransferStep.ofState name state input := by
  obtain rfl | ⟨next, rfl⟩ := link <;> rfl

theorem State.Linked.fault_eq (link : state.Linked linked) :
    linked.fault? input marker name = state.fault? input marker name := by
  obtain rfl | ⟨next, rfl⟩ := link <;> rfl

private theorem State.read_compute (kind : state.kind? = some .compute) {step : ComputeStep}
    (read : ComputeStep.ofState name state input position = .ok step) :
    state.read input marker name position = .ok [.compute step] := by
  rw [State.read, kind]
  exact congrArg (Except.map fun step => [Step.compute step]) read

private theorem State.read_transfer (kind : state.kind? = some .transfer) {step : TransferStep}
    (read : TransferStep.ofState name state input = .ok step) :
    ∃ steps, state.read input marker name position = .ok steps := by
  rw [State.read, kind]
  dsimp only
  split
  · exact ⟨[], rfl⟩
  · exact ⟨[.transfer step], congrArg (Except.map fun step => [Step.transfer step]) read⟩

private theorem State.read_capture (kind : state.kind? = some .transfer) (capture : isCapture marker name = true) :
    state.read input marker name position = .ok [] := by
  rw [State.read, kind]
  exact if_pos capture

theorem keys_chain (states : List (String × State)) : (chain states).map Prod.fst = states.map Prod.fst := by
  induction states using chain.induct with
  | case1 => rfl
  | case2 name state => rfl
  | case3 name state next following rest ih =>
    rw [chain, List.map_cons, ih]
    rfl

theorem mem_chain {states : List (String × State)} (member : (name, state) ∈ states) :
    ∃ linked, (name, linked) ∈ chain states ∧ state.Linked linked := by
  induction states using chain.induct with
  | case1 => cases member
  | case2 first only =>
    obtain same := List.mem_singleton.1 member
    cases same
    exact ⟨_, List.mem_singleton_self _, Or.inl rfl⟩
  | case3 first one next following rest ih =>
    rcases List.mem_cons.1 member with same | later
    · cases same
      exact ⟨_, List.mem_cons_self, Or.inr ⟨next, rfl⟩⟩
    · obtain ⟨linked, inside, link⟩ := ih later
      exact ⟨linked, List.mem_cons_of_mem _ inside, link⟩

/-- A plan that has the states of a chain walks through all of them. -/
theorem chain_path {p : Plan} {rest : List (String × State)}
    (stored : ∀ entry ∈ chain ((name, state) :: rest), p.state? entry.1 = some entry.2) :
    p.FullPathFrom name (name :: rest.map Prod.fst) := by
  induction rest generalizing name state with
  | nil =>
    have final := stored (name, state.terminal) (List.mem_singleton_self _)
    exact ⟨Plan.PathFrom.single p name, name, state.terminal, rfl, final, rfl⟩
  | cons head rest ih =>
    obtain ⟨next, following⟩ := head
    rw [chain] at stored
    obtain ⟨first, others⟩ := List.forall_mem_cons.1 stored
    have leads : p.Leads name next := ⟨state.chainTo next, first, rfl⟩
    exact (ih others).cons leads

end Flow

variable {entries : List SequenceEntry} {entry : SequenceEntry} {settings : Settings} {input : Json} {marker : String}

/-- The captures of a sequence are known by a marker in their names. -/
def CapturesMarked (marker : String) (entries : List SequenceEntry) : Prop :=
  ∀ function endpoint, SequenceEntry.capture function endpoint ∈ entries →
    marker.toList <:+: (SequenceEntry.capture function endpoint).stateName.toList

private theorem stored_states (distinct : (entries.map SequenceEntry.stateName).Nodup) (settings : Settings) :
    ∀ pair ∈ Flow.chain (entries.map fun entry => (entry.stateName, entry.state settings)),
      (Flow.Plan.ofSequence entries settings).state? pair.1 = some pair.2 := by
  intro pair member
  have keys := Flow.keys_chain (entries.map fun entry => (entry.stateName, entry.state settings))
  rw [List.map_map] at keys
  apply OrderedMap.get?_eq_some_iff.2
  rw [Flow.Plan.ofSequence, OrderedMap.entries_ofList (by rw [keys]; exact distinct)]
  exact member

theorem state_of_entry (distinct : (entries.map SequenceEntry.stateName).Nodup) (member : entry ∈ entries)
    (settings : Settings) :
    ∃ linked, (Flow.Plan.ofSequence entries settings).state? entry.stateName = some linked ∧
      (entry.state settings).Linked linked := by
  have listed : (entry.stateName, entry.state settings) ∈
      entries.map fun entry => (entry.stateName, entry.state settings) := List.mem_map_of_mem member
  obtain ⟨linked, inside, link⟩ := Flow.mem_chain listed
  exact ⟨linked, stored_states distinct settings _ inside, link⟩

theorem ofSequence_path (distinct : (entries.map SequenceEntry.stateName).Nodup) (nonempty : entries ≠ []) :
    (Flow.Plan.ofSequence entries settings).FullPathFrom (Flow.Plan.ofSequence entries settings).start
      (entries.map SequenceEntry.stateName) := by
  have stored := stored_states distinct settings
  cases entries with
  | nil => exact absurd rfl nonempty
  | cons first rest =>
    have path := Flow.chain_path stored
    rw [List.map_map] at path
    exact path

/-- Nothing is at fault in the state of an entry, if only captures have the marker. -/
private theorem entry_readable (member : entry ∈ entries) (marked : CapturesMarked marker entries)
    (supplied : Supplies input entries) :
    (entry.state settings).fault? input (some marker) entry.stateName = none := by
  apply Outcome.fault?_eq_none.2
  cases entry with
  | compute tool function =>
    obtain ⟨step, read, _⟩ := SequenceEntry.computeState_reads (supplied _ member) 0
    exact ⟨_, Flow.State.read_compute (SequenceEntry.kind_state _ settings) read⟩
  | transfer moved =>
    obtain ⟨step, read, _⟩ := SequenceEntry.transferState_reads input moved
    exact Flow.State.read_transfer (SequenceEntry.kind_state _ settings) read
  | capture function endpoint =>
    have capture := marked function endpoint member
    exact ⟨[], Flow.State.read_capture (SequenceEntry.kind_state _ settings) (by simpa [Flow.isCapture_eq] using capture)⟩

theorem ofSequence_completes (nonempty : entries ≠ []) (distinct : (entries.map SequenceEntry.stateName).Nodup)
    (marked : CapturesMarked marker entries) (supplied : Supplies input entries) (settings : Settings) :
    (Flow.Plan.ofSequence entries settings).Completes input (some marker) (entries.map SequenceEntry.stateName) := by
  refine ⟨ofSequence_path distinct nonempty, distinct, ?_⟩
  rw [List.forall_mem_map]
  intro entry member
  obtain ⟨linked, stored, link⟩ := state_of_entry distinct member settings
  exact ⟨linked, stored, link.fault_eq.trans (entry_readable member marked supplied)⟩

/-- The states that are passed over are those of the entries without a step. -/
private theorem skips_eq (distinct : (entries.map SequenceEntry.stateName).Nodup)
    (marked : CapturesMarked marker entries) (member : entry ∈ entries) :
    (!(Flow.Plan.ofSequence entries settings).skips (some marker) entry.stateName) = entry.kept marker := by
  obtain ⟨linked, stored, link⟩ := state_of_entry distinct member settings
  have kind := link.kind_eq.trans (entry.kind_state settings)
  have skips : (Flow.Plan.ofSequence entries settings).skips (some marker) entry.stateName =
      (decide (entry.action = .transfer) && decide (marker.toList <:+: entry.stateName.toList)) := by
    simp only [Flow.Plan.skips, stored, Option.any_some, kind, Option.some.injEq]
  rw [skips]
  cases entry with
  | compute tool function => rfl
  | transfer moved => rfl
  | capture function endpoint =>
    have capture := marked function endpoint member
    rw [decide_eq_true capture]
    rfl

private theorem state_under_name (distinct : (entries.map SequenceEntry.stateName).Nodup) (member : entry ∈ entries)
    {name : String} (same : entry.stateName = name) {found : State} {action : Flow.ActionKind}
    (known : (Flow.Plan.ofSequence entries settings).state? name = some found) (kind : found.kind? = some action) :
    entry.action = action ∧ (entry.state settings).Linked found := by
  subst same
  obtain ⟨linked, stored, link⟩ := state_of_entry distinct member settings
  obtain rfl := Option.some.inj (stored.symm.trans known)
  rw [link.kind_eq, entry.kind_state] at kind
  exact ⟨Option.some.inj kind, link⟩

/-- A step under the name of an entry is the step of the entry. -/
private theorem reads_as_of_yields (distinct : (entries.map SequenceEntry.stateName).Nodup)
    (supplied : Supplies input entries) (member : entry ∈ entries) (counted : entry.kept marker = true) {step : Step}
    (yields : (Flow.Plan.ofSequence entries settings).Yields input step) (same : entry.stateName = step.name) :
    entry.ReadsAs input step := by
  cases step with
  | compute step =>
    obtain ⟨found, known, kind, read⟩ := yields
    obtain ⟨action, link⟩ := state_under_name distinct member same known kind
    cases entry with
    | compute tool function =>
      change function = step.name at same
      rw [link.compute_eq, ← same] at read
      obtain ⟨other, reread, reads⟩ := SequenceEntry.computeState_reads (supplied _ member) step.position
      cases reread.symm.trans read
      exact reads
    | transfer _ | capture _ _ => cases action
  | transfer step =>
    obtain ⟨found, known, kind, read⟩ := yields
    obtain ⟨action, link⟩ := state_under_name distinct member same known kind
    cases entry with
    | compute _ _ => cases action
    | transfer moved =>
      change moved.stateName = step.name at same
      rw [link.transfer_eq, ← same] at read
      obtain ⟨other, reread, reads⟩ := SequenceEntry.transferState_reads input moved
      cases reread.symm.trans read
      exact reads
    | capture _ _ => cases counted

/-- The steps that represent the states of a sequence are those of its entries. -/
theorem reads_of_represents (distinct : (entries.map SequenceEntry.stateName).Nodup)
    (marked : CapturesMarked marker entries) (supplied : Supplies input entries) {first : Nat} {steps : List Step}
    (represents : (Flow.Plan.ofSequence entries settings).Represents input (some marker) first
      (entries.map SequenceEntry.stateName) steps) :
    List.Forall₂ (SequenceEntry.ReadsAs input) (entries.filter fun entry => entry.kept marker) steps := by
  have names : (entries.filter fun entry => entry.kept marker).map SequenceEntry.stateName = steps.map Step.name := by
    rw [represents.names, List.filter_map]
    apply congrArg
    apply List.filter_congr
    intro entry member
    exact (skips_eq distinct marked member).symm
  apply Outcome.forall₂_of_map_eq names
  intro entry member step inside same
  obtain ⟨member, counted⟩ := List.mem_filter.1 member
  exact reads_as_of_yields distinct supplied member counted (represents.yields step inside) same

/-- The flow plan of a sequence with distinct names reads as the entries of the sequence
in their order, but for the captures and the transfers that are named like one. A
transfer is as recursive as it was in the sequence. -/
theorem sequences_read_back (entries : List SequenceEntry) (settings : Settings) (marker : String) (input : Json)
    (nonempty : entries ≠ []) (distinct : (entries.map SequenceEntry.stateName).Nodup)
    (marked : CapturesMarked marker entries) (supplied : Supplies input entries) :
    ∃ steps, (Flow.Plan.ofSequence entries settings).steps input (some marker) = .ok steps ∧
      List.Forall₂ (SequenceEntry.ReadsAs input) (entries.filter fun entry => entry.kept marker) steps ∧
      (computes steps).map ComputeStep.position = List.range (computes steps).length := by
  obtain ⟨steps, read, represents⟩ := (ofSequence_completes nonempty distinct marked supplied settings).ok
  refine ⟨steps, read, reads_of_represents distinct marked supplied represents, ?_⟩
  rw [represents.positions, List.range_eq_range']

def fetchEntries : List SequenceEntry :=
  [.transfer
      { label := "_auto_FP_text_in_make", kind := .inbound, parameter := "text", source := ⟨"hub", "/text"⟩
        destination := ⟨"at A", "A/make/text"⟩ },
    .compute "A" "make", .capture "make" "at A", .compute "B" "show"]

def fetchInput : Json :=
  .object [("input", .object [("compute_endpoint", .string "there"), ("make_function_id", .string "1"),
    ("make", .object []), ("show_function_id", .string "2"), ("show", .null)])]

theorem fetch_entries_read_back : ∃ steps,
    (Flow.Plan.ofSequence fetchEntries {}).steps fetchInput (some Flow.defaultMarker) = .ok steps ∧
      List.Forall₂ (SequenceEntry.ReadsAs fetchInput)
        (fetchEntries.filter fun entry => entry.kept Flow.defaultMarker) steps ∧
      (computes steps).map ComputeStep.position = List.range (computes steps).length := by
  have distinct : (fetchEntries.map SequenceEntry.stateName).Nodup := by decide
  have marked : CapturesMarked Flow.defaultMarker fetchEntries := by
    intro function endpoint member
    simp [fetchEntries] at member
    obtain ⟨rfl, rfl⟩ := member
    decide
  have supplied : Supplies fetchInput fetchEntries := supplies_of_all (by decide)
  exact sequences_read_back fetchEntries {} Flow.defaultMarker fetchInput (by simp [fetchEntries]) distinct marked supplied

def folderEntries : List SequenceEntry :=
  [.transfer
      { label := "_auto_FP_text_in_make", kind := .inbound, parameter := "text", source := ⟨"hub", "/texts"⟩
        destination := ⟨"at A", "A/make/texts"⟩, recursive := true }]

/-- A transfer of a whole folder is read as one, although inference makes no such transfer. -/
theorem folder_is_read_as_a_folder :
    folderEntries ≠ [] ∧ (folderEntries.map SequenceEntry.stateName).Nodup ∧
    CapturesMarked Flow.defaultMarker folderEntries ∧ Supplies .null folderEntries ∧
    ∃ steps, (Flow.Plan.ofSequence folderEntries {}).steps .null (some Flow.defaultMarker) = .ok steps ∧
      ¬ ∀ step, .transfer step ∈ steps → ∀ item ∈ step.items, item.recursive = .literal (.bool false) := by
  have nonempty : folderEntries ≠ [] := List.cons_ne_nil _ _
  have distinct : (folderEntries.map SequenceEntry.stateName).Nodup := List.nodup_singleton _
  have marked : CapturesMarked Flow.defaultMarker folderEntries := by
    intro function endpoint member
    cases List.mem_singleton.1 member
  have supplied : Supplies .null folderEntries := supplies_of_all rfl
  refine ⟨nonempty, distinct, marked, supplied, ?_⟩
  obtain ⟨steps, read, represents⟩ := (ofSequence_completes nonempty distinct marked supplied {}).ok
  refine ⟨steps, read, fun plain => ?_⟩
  have reads := reads_of_represents distinct marked supplied represents
  have kept : (folderEntries.filter fun entry => entry.kept Flow.defaultMarker) = folderEntries := by decide
  rw [kept] at reads
  obtain ⟨step, _, own, _, rfl⟩ := List.forall₂_cons_left_iff.1 reads
  cases step with
  | compute step => exact own
  | transfer step =>
    obtain ⟨_, _, _, items⟩ := own
    have whole := plain step List.mem_cons_self _ (items ▸ List.mem_singleton_self _)
    cases whole

end Provenance
