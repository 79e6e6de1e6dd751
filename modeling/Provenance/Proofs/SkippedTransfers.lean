import Provenance.Proofs.PlannedTransfers
import Provenance.Proofs.StateNames

/-! The entries of a sequence for which its flow plan has no steps. A plan is read without
the transfers whose names contain a marker. Those are the captures, and besides them the
transfers of files and functions that have the marker in names of their own. -/

namespace Provenance

open Provenance.Flow (ComputeStep Field State Step TransferStep computes lookup)

variable {entries : List SequenceEntry} {entry : SequenceEntry} {settings : Settings} {input : Json} {marker : String}
  {steps : List Step}

namespace Flow

variable {fields : List (String × Json)} {state key path : String}

private theorem Field.lookup_of_resolve {field : Field} (absent : Entries.get? key fields = none)
    (found : Entries.get? (key ++ ".$") fields = some (.string path))
    (resolved : Field.resolve state fields key input = .ok field) : ∃ value, lookup input path = .ok value := by
  simp only [Field.resolve, absent, found] at resolved
  obtain ⟨value, supplied, _⟩ := Outcome.bind_eq_ok.1 resolved
  exact ⟨value, supplied⟩

private theorem read_of_objectList {α : Type} {members : List (String × Json)}
    {read : List (String × Json) → Except Failure α}
    {results : List α} (found : Entries.get? key fields = some (.array [.object members]))
    (listed : objectList state fields key input read = .ok results) : ∃ result, read members = .ok result := by
  rw [objectList, Field.resolve_literal found] at listed
  simp only [bind, Except.bind, Field.value, List.mapM_cons, List.mapM_nil, pure, Except.pure] at listed
  cases outcome : read members with
  | ok result => exact ⟨result, rfl⟩
  | error fault => simp [outcome] at listed

end Flow

/-- A function whose state can be read has all that the state looks up. -/
private theorem SequenceEntry.computeState_supplied {tool function : String} {position : Nat} {step : ComputeStep}
    (read : ComputeStep.ofState function (computeState tool function) input position = .ok step) :
    ∀ path ∈ (SequenceEntry.compute tool function).lookups, ∃ value, lookup input path = .ok value := by
  obtain ⟨tasks, listed, _⟩ := Outcome.bind_eq_ok.1 read
  obtain ⟨task, read⟩ := Flow.read_of_objectList rfl listed
  obtain ⟨endpoint, first, read⟩ := Outcome.bind_eq_ok.1 read
  obtain ⟨id, second, read⟩ := Outcome.bind_eq_ok.1 read
  obtain ⟨payload, third, _⟩ := Outcome.bind_eq_ok.1 read
  simp only [lookups, List.forall_mem_cons]
  exact ⟨Flow.Field.lookup_of_resolve rfl rfl first, Flow.Field.lookup_of_resolve rfl rfl second,
    Flow.Field.lookup_of_resolve rfl rfl third, by simp⟩

/-- Without entries there is no state to start at. -/
private theorem nonempty_of_steps {mark : Option String}
    (read : (Flow.Plan.ofSequence entries settings).steps input mark = .ok steps) : entries ≠ [] := by
  intro empty
  subst empty
  obtain ⟨names, completes, _⟩ := Flow.Plan.steps_ok_iff.1 read
  obtain ⟨last, state, _, found, _⟩ := completes.path.ends
  cases found

private theorem supplies_of_steps {mark : Option String} (distinct : (entries.map SequenceEntry.stateName).Nodup)
    (read : (Flow.Plan.ofSequence entries settings).steps input mark = .ok steps) : Supplies input entries := by
  obtain ⟨names, completes, _⟩ := Flow.Plan.steps_ok_iff.1 read
  have path : (Flow.Plan.ofSequence entries settings).FullPathFrom _ _ :=
    ofSequence_path distinct (nonempty_of_steps read)
  have walked : entries.map SequenceEntry.stateName = names := path.unique completes.path
  intro entry member
  cases entry with
  | transfer _ | capture _ _ => simp [SequenceEntry.lookups]
  | compute tool function =>
    obtain ⟨linked, stored, link⟩ := state_of_entry distinct member settings
    have visited : (SequenceEntry.compute tool function).stateName ∈ names := walked ▸ List.mem_map_of_mem member
    obtain ⟨state, found, readable⟩ := completes.readable _ visited
    cases stored.symm.trans found
    rw [link.fault_eq] at readable
    obtain ⟨own, outcome⟩ := Outcome.fault?_eq_none.1 readable
    rw [State.read, SequenceEntry.kind_state] at outcome
    simp only [SequenceEntry.action] at outcome
    cases step : ComputeStep.ofState function (SequenceEntry.computeState tool function) input 0 with
    | ok step => exact SequenceEntry.computeState_supplied step
    | error fault =>
      have failed := congrArg (Except.map fun step => [Step.compute step]) step
      cases outcome.symm.trans failed

/-- A sequence whose plan can be read is read as its entries, but for those with the marker. -/
private theorem reads_of_steps (distinct : (entries.map SequenceEntry.stateName).Nodup)
    (marked : CapturesMarked marker entries)
    (read : (Flow.Plan.ofSequence entries settings).steps input (some marker) = .ok steps) :
    List.Forall₂ (SequenceEntry.ReadsAs input) (entries.filter fun entry => entry.kept marker) steps := by
  have supplied := supplies_of_steps distinct read
  obtain ⟨same, reread, represents⟩ :=
    (ofSequence_completes (nonempty_of_steps read) distinct marked supplied settings).ok
  cases reread.symm.trans read
  exact reads_of_represents distinct marked supplied represents

def Mentions (word name : String) : Prop := word.toList <:+: name.toList

private theorem mentions_joined {word first second : String} (clear : '_' ∉ word.toList) :
    Mentions word (first ++ "_" ++ second) ↔ Mentions word first ∨ Mentions word second := by
  have letters : (first ++ "_" ++ second).toList = first.toList ++ '_' :: second.toList := by
    simp [String.toList_append]
  rw [Mentions, letters, infix_joined clear]
  exact Iff.rfl

/-- The file of a transfer or a function at one of its ends is named with a word. -/
def Transfer.NamedWith (word : String) (moved : Transfer) (source target : Option FileUsage) : Prop :=
  Mentions word moved.parameter ∨ (∃ producer, source = some producer ∧ Mentions word producer.function) ∨
    ∃ consumer, target = some consumer ∧ Mentions word consumer.function

variable {tools : List Tool} {plan : TransferPlan} {moved : Transfer} {source target : Option FileUsage}

theorem Moves.label_eq (moves : Moves settings tools moved source target) :
    moved.label = routeLabel moved.parameter source target := by
  cases moves with
  | peer _ _ | inbound _ _ => exact transferIn_label
  | outbound _ _ => exact transferOut_label

/-- The name of a transfer has the marker from its file and its functions only. -/
theorem Moves.marked_iff (moves : Moves settings tools moved source target) :
    Mentions Flow.defaultMarker moved.stateName ↔ moved.NamedWith Flow.defaultMarker source target := by
  have clear : '_' ∉ Flow.defaultMarker.toList := by decide
  have start : "Transfer" ++ "_auto_FP_" = "Transfer" ++ "_" ++ "auto" ++ "_" ++ "FP" ++ "_" := by decide
  have name : moved.stateName = "Transfer" ++ "_" ++ "auto" ++ "_" ++ "FP" ++ "_" ++ moved.parameter ++ "_" ++
      source.elim "in" FileUsage.function ++ "_" ++ target.elim "out" FileUsage.function := by
    rw [Transfer.stateName, moves.label_eq, routeLabel, ← start]
    simp only [String.append_assoc]
  have words : ∀ word ∈ ["Transfer", "auto", "FP", "in", "out"], ¬ Mentions Flow.defaultMarker word := by
    unfold Mentions
    decide
  simp only [List.forall_mem_cons] at words
  obtain ⟨transfer, auto, fp, into, out, _⟩ := words
  rw [name]
  simp only [mentions_joined clear, transfer, auto, fp, false_or, or_assoc, Transfer.NamedWith]
  cases source <;> cases target <;> simp [into, out]

private theorem SequenceEntry.kept_transfer :
    (SequenceEntry.transfer moved).kept marker = false ↔ Mentions marker moved.stateName := by
  simp [kept, Mentions]

private theorem TransferPlan.moves_of_entry (inferred : TransferPlan.infer tools settings = .ok plan)
    (member : .transfer moved ∈ plan.sequence tools) : ∃ source target, Moves settings tools moved source target := by
  obtain ⟨before, after, split⟩ := List.append_of_mem member
  apply (TransferPlan.mem_toList_iff inferred).1
  rw [TransferPlan.mem_toList]
  rcases transfer_place split with ⟨_, tool, _, _, group, _⟩ | ⟨trailing, _⟩
  · exact Or.inl ⟨tool.name, group⟩
  · exact Or.inr trailing

/-- A transfer of which a file or a function at one of its ends is named with the marker. -/
def Transfer.Marked (settings : Settings) (tools : List Tool) (moved : Transfer) : Prop :=
  ∃ source target, Moves settings tools moved source target ∧ moved.NamedWith Flow.defaultMarker source target

private theorem SequenceEntry.left_iff (inferred : TransferPlan.infer tools settings = .ok plan)
    (member : entry ∈ plan.sequence tools) : entry.kept Flow.defaultMarker = false ↔
      (∃ function endpoint, entry = .capture function endpoint) ∨
        ∃ moved, entry = .transfer moved ∧ moved.Marked settings tools := by
  cases entry with
  | compute tool function => simp [kept]
  | capture function endpoint => simp [kept]
  | transfer moved =>
    obtain ⟨source, target, moves⟩ := plan.moves_of_entry inferred member
    rw [kept_transfer, moves.marked_iff]
    constructor
    · intro named
      exact Or.inr ⟨moved, rfl, source, target, moves, named⟩
    · intro either
      rcases either with ⟨_, _, impossible⟩ | ⟨other, same, source', target', moves', named⟩
      · cases impossible
      · cases same
        exact moves.marked_iff.1 (moves'.marked_iff.2 named)

/-- Files and functions without a word give a transfer without it. -/
theorem Moves.not_named {word : String} (moves : Moves settings tools moved source target)
    (plain : ∀ usage ∈ TransferPlan.reads tools ++ TransferPlan.writes tools,
      ¬ Mentions word usage.parameter ∧ ¬ Mentions word usage.function) : ¬ moved.NamedWith word source target := by
  intro named
  have written : ∀ producer, source = some producer → producer ∈ TransferPlan.writes tools := by
    intro producer same
    subst same
    exact moves.written.1
  have read : ∀ consumer, target = some consumer → consumer ∈ TransferPlan.reads tools := by
    intro consumer same
    subst same
    exact moves.into_eq.1
  rcases named with file | ⟨producer, same, function⟩ | ⟨consumer, same, function⟩
  · cases moves with
    | peer used _ | inbound used _ => exact (plain _ (List.mem_append_left _ used)).1 file
    | outbound last _ => exact (plain _ (List.mem_append_right _ (lastWriter?_mem last).1)).1 file
  · exact (plain producer (List.mem_append_right _ (written producer same))).2 function
  · exact (plain consumer (List.mem_append_left _ (read consumer same))).2 function

theorem SequenceEntry.ReadsAs.name {step : Step} (reads : entry.ReadsAs input step) : step.name = entry.stateName := by
  cases entry <;> cases step <;> first | exact reads.1 | exact reads.elim

/-- What a plan is read as, and what is left out of it. -/
structure ReadsWithout (settings : Settings) (tools : List Tool) (entries : List SequenceEntry) (input : Json)
    (steps : List Step) : Prop where
  reads : List.Forall₂ (SequenceEntry.ReadsAs input) (entries.filter fun entry => entry.kept Flow.defaultMarker) steps
  left : ∀ entry ∈ entries, entry.kept Flow.defaultMarker = false ↔
    (∃ function endpoint, entry = .capture function endpoint) ∨
      ∃ moved, entry = .transfer moved ∧ moved.Marked settings tools
  transfers : ∀ moved, .transfer moved ∈ entries →
    ((∃ step ∈ steps, SequenceEntry.ReadsAs input (.transfer moved) step) ↔ ¬ moved.Marked settings tools)

private theorem reads_without (inferred : TransferPlan.infer tools settings = .ok plan)
    (distinct : ((plan.sequence tools).map SequenceEntry.stateName).Nodup)
    (read : (Flow.Plan.ofSequence (plan.sequence tools) settings).steps input (some Flow.defaultMarker) = .ok steps) :
    ReadsWithout settings tools (plan.sequence tools) input steps := by
  have reads := reads_of_steps distinct (captures_marked _) read
  obtain ⟨forward, backward⟩ := Outcome.forall₂_partners reads
  refine ⟨reads, fun entry member => SequenceEntry.left_iff inferred member, ?_⟩
  intro moved member
  have marked : moved.Marked settings tools ↔ (SequenceEntry.transfer moved).kept Flow.defaultMarker = false := by
    rw [SequenceEntry.left_iff inferred member]
    simp
  rw [marked, Bool.not_eq_false]
  constructor
  · intro ⟨step, inside, own⟩
    obtain ⟨entry, listed, other⟩ := backward step inside
    obtain ⟨stored, counted⟩ := List.mem_filter.1 listed
    have same : entry = .transfer moved :=
      List.inj_on_of_nodup_map distinct stored member (other.name.symm.trans own.name)
    exact same ▸ counted
  · intro counted
    exact forward _ (List.mem_filter.2 ⟨member, counted⟩)

/-- The plan that is generated for some tools is read without its captures, and without the
transfers that have the marker in the name of a file or a function. If no name has it,
only the captures are left out. -/
theorem generated_plans_lose_named_transfers (tools : List Tool) (settings : Settings) (plan : TransferPlan)
    (input : Json) (steps : List Step) (standard : settings.marker = some Flow.defaultMarker)
    (inferred : TransferPlan.infer tools settings = .ok plan)
    (distinct : ((plan.sequence tools).map SequenceEntry.stateName).Nodup)
    (read : (Flow.Plan.ofSequence (plan.sequence tools) settings).steps input settings.marker = .ok steps) :
    ReadsWithout settings tools (plan.sequence tools) input steps ∧
    ((∀ usage ∈ TransferPlan.reads tools ++ TransferPlan.writes tools,
        ¬ Mentions Flow.defaultMarker usage.parameter ∧ ¬ Mentions Flow.defaultMarker usage.function) →
      ∀ entry ∈ plan.sequence tools, entry.kept Flow.defaultMarker = false ↔
        ∃ function endpoint, entry = .capture function endpoint) := by
  rw [standard] at read
  refine ⟨reads_without inferred distinct read, ?_⟩
  intro plain entry member
  rw [SequenceEntry.left_iff inferred member]
  constructor
  · intro either
    rcases either with capture | ⟨moved, _, source, target, moves, named⟩
    · exact capture
    · exact absurd named (moves.not_named plain)
  · exact Or.inl

/-- A file is made by one tool and shown by another. -/
def shownTools (file : String) : List Tool :=
  [toolOf "A" [("make", [fileUse file .output])], toolOf "B" [("show", [fileUse file .input])]]

def shownFile (file : String) : Transfer := (chainFile file "B" "show").transferIn {} (some (chainFile file "A" "make"))

def shownEntries (file : String) : List SequenceEntry :=
  [.compute "A" "make", .capture "make" "at A", .transfer (shownFile file), .compute "B" "show",
    .capture "show" "at B"]

theorem text_is_read_without_captures : ∃ plan steps, TransferPlan.infer (shownTools "text") {} = .ok plan ∧
    ((plan.sequence (shownTools "text")).map SequenceEntry.stateName).Nodup ∧
    (Flow.Plan.ofSequence (plan.sequence (shownTools "text")) {}).steps fetchInput
      ({} : Settings).marker = .ok steps ∧
    ReadsWithout {} (shownTools "text") (plan.sequence (shownTools "text")) fetchInput steps := by
  have inferred : ∃ plan, TransferPlan.infer (shownTools "text") {} = .ok plan ∧
      plan.sequence (shownTools "text") = shownEntries "text" := ⟨_, rfl, rfl⟩
  obtain ⟨plan, inferred, woven⟩ := inferred
  have distinct : ((shownEntries "text").map SequenceEntry.stateName).Nodup := by decide
  have readable : ((Flow.Plan.ofSequence (shownEntries "text") {}).steps fetchInput
      ({} : Settings).marker).toOption.isSome = true := by decide +kernel
  obtain ⟨steps, read⟩ := Outcome.ok_of_isSome readable
  rw [← woven] at distinct read
  exact ⟨plan, steps, inferred, distinct, read,
    (generated_plans_lose_named_transfers _ _ _ _ _ rfl inferred distinct read).1⟩

theorem file_named_like_a_capture_is_lost : ∃ plan steps, TransferPlan.infer (shownTools "provenance") {} = .ok plan ∧
    ((plan.sequence (shownTools "provenance")).map SequenceEntry.stateName).Nodup ∧
    (Flow.Plan.ofSequence (plan.sequence (shownTools "provenance")) {}).steps fetchInput
      ({} : Settings).marker = .ok steps ∧
    SequenceEntry.transfer (shownFile "provenance") ∈ plan.sequence (shownTools "provenance") ∧
    steps.map Step.name = ["make", "show"] := by
  have inferred : ∃ plan, TransferPlan.infer (shownTools "provenance") {} = .ok plan ∧
      plan.sequence (shownTools "provenance") = shownEntries "provenance" := ⟨_, rfl, rfl⟩
  obtain ⟨plan, inferred, woven⟩ := inferred
  have names : ((Flow.Plan.ofSequence (shownEntries "provenance") {}).steps fetchInput
      ({} : Settings).marker).toOption.map (fun steps => steps.map Step.name) = some ["make", "show"] := by
    decide +kernel
  obtain ⟨steps, read, names⟩ := Option.map_eq_some_iff.1 names
  refine ⟨plan, steps, inferred, ?_, ?_, ?_, names⟩
  · rw [woven]
    decide
  · rw [woven]
    exact Outcome.toOption_eq_some.1 read
  · rw [woven]
    simp [shownEntries]

end Provenance
