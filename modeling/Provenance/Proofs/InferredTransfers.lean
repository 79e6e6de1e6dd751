import Mathlib.Data.List.Count
import Provenance.Proofs.MapEntries
import Provenance.Proofs.Outcomes
import Provenance.Transfer.Inference

/-! Inferred transfers against the files that are used. Every file that is read is
delivered once, every file that only is written is returned once, and both start at
the last function that writes the file. -/

namespace Provenance

/-- The last function that writes a file. -/
def lastWriter? (outputs : List FileUsage) (parameter : String) : Option FileUsage :=
  (outputs.filter fun usage => usage.parameter = parameter).getLast?

/-- The first file that is written again. -/
def Rewritten (outputs : List FileUsage) (fault : Failure) : Prop :=
  ∃ before usage after first, outputs = before ++ usage :: after ∧ (before.map FileUsage.parameter).Nodup ∧
    first ∈ before ∧ first.parameter = usage.parameter ∧
    fault = .multipleProducers usage.parameter first.function usage.function

structure Delivers (settings : Settings) (producer : Option FileUsage) (consumer : FileUsage)
    (transfer : Transfer) : Prop where
  parameter : transfer.parameter = consumer.parameter
  destination : transfer.destination = ⟨consumer.endpoint, consumer.localizedPath⟩
  kind : transfer.kind = if producer.isSome then .peerToPeer else .inbound
  source : transfer.source = match producer with
    | some writer => ⟨writer.endpoint, writer.localizedPath⟩
    | none => ⟨settings.orchestrator, match settings.inboundSource with
      | .declared => consumer.declaredPath
      | .localized => consumer.localizedPath⟩

structure Returns (settings : Settings) (producer : FileUsage) (transfer : Transfer) : Prop where
  parameter : transfer.parameter = producer.parameter
  kind : transfer.kind = .outbound
  source : transfer.source = ⟨producer.endpoint, producer.localizedPath⟩
  destination : transfer.destination = ⟨settings.orchestrator, producer.declaredPath⟩

def unread (inputs outputs : List FileUsage) : List String :=
  (outputs.map FileUsage.parameter).eraseDups.filter fun parameter => !(inputs.map FileUsage.parameter).contains parameter

theorem mem_unread {inputs outputs : List FileUsage} {parameter : String} : parameter ∈ unread inputs outputs ↔
    parameter ∈ outputs.map FileUsage.parameter ∧ parameter ∉ inputs.map FileUsage.parameter := by
  simp [unread]

theorem unread_nodup (inputs outputs : List FileUsage) : (unread inputs outputs).Nodup := (nodup_eraseDups _).filter _

/-- The transfers are in one-to-one correspondence with the files to be moved. -/
structure TransferPlan.Covers (plan : TransferPlan) (settings : Settings) (inputs outputs : List FileUsage) : Prop where
  delivered : ∃ deliveries, deliveries.Perm plan.byTool.listed ∧
    List.Forall₂ (fun consumer delivery => delivery.1 = consumer.tool ∧
      Delivers settings (lastWriter? outputs consumer.parameter) consumer delivery.2) inputs deliveries
  returned : List.Forall₂ (fun parameter transfer => ∃ producer, lastWriter? outputs parameter = some producer ∧
    Returns settings producer transfer) (unread inputs outputs) plan.trailing

variable {policy : ProducerPolicy} {settings : Settings} {known all : OrderedMap FileUsage}
  {earlier later written : List FileUsage}

/-- The producers of the files that were written so far. -/
structure Records (known : OrderedMap FileUsage) (earlier : List FileUsage) : Prop where
  keys : known.keys = (earlier.map FileUsage.parameter).eraseDups
  last : ∀ parameter, known.get? parameter = lastWriter? earlier parameter

theorem lastWriter?_concat (earlier : List FileUsage) (usage : FileUsage) (parameter : String) :
    lastWriter? (earlier ++ [usage]) parameter =
      if usage.parameter = parameter then some usage else lastWriter? earlier parameter := by
  by_cases same : usage.parameter = parameter <;> simp [lastWriter?, same]

theorem lastWriter?_mem {parameter : String} {usage : FileUsage} (last : lastWriter? written parameter = some usage) :
    usage ∈ written ∧ usage.parameter = parameter := by
  simpa using List.mem_filter.1 (List.mem_of_getLast? last)

theorem Records.insert (records : Records known earlier) (usage : FileUsage) :
    Records (known.insert usage.parameter usage) (earlier ++ [usage]) := by
  refine ⟨?_, fun parameter => ?_⟩
  · rw [List.map_append]
    exact OrderedMap.keys_insert_after records.keys _ _
  · rw [OrderedMap.get?_insert, lastWriter?_concat, records.last]

theorem Records.producers (records : Records known earlier) (made : producers policy known later = .ok all) :
    Records all (earlier ++ later) := by
  induction later generalizing known earlier with
  | nil =>
    cases made
    rwa [List.append_nil]
  | cons usage rest ih =>
    rw [List.append_cons]
    unfold Provenance.producers at made
    split at made
    · cases made
    · exact ih (records.insert usage) made

theorem producers_lastWriterWins (known : OrderedMap FileUsage) (outputs : List FileUsage) :
    ∃ all, producers .lastWriterWins known outputs = .ok all := by
  induction outputs generalizing known with
  | nil => exact ⟨known, rfl⟩
  | cons usage rest ih => exact ih (known.insert usage.parameter usage)

/-- Refusing a second producer means that every file is written once. -/
theorem Records.reject (records : Records known earlier) (distinct : (earlier.map FileUsage.parameter).Nodup) :
    (∃ all, Provenance.producers .reject known later = .ok all ∧ ((earlier ++ later).map FileUsage.parameter).Nodup) ∨
    ∃ fault, Provenance.producers .reject known later = .error fault ∧ Rewritten (earlier ++ later) fault := by
  induction later generalizing known earlier with
  | nil => exact Or.inl ⟨known, rfl, by rwa [List.append_nil]⟩
  | cons usage rest ih =>
    have last := records.last usage.parameter
    cases found : known.get? usage.parameter with
    | some first =>
      obtain ⟨member, same⟩ := lastWriter?_mem (last.symm.trans found)
      refine Or.inr ⟨.multipleProducers usage.parameter first.function usage.function, ?_,
        earlier, usage, rest, first, rfl, distinct, member, same, rfl⟩
      simp only [Provenance.producers, found]
    | none =>
      have new : usage.parameter ∉ earlier.map FileUsage.parameter := by
        rw [← List.mem_eraseDups, ← records.keys]
        exact OrderedMap.get?_eq_none_iff.1 found
      have next : Provenance.producers .reject known (usage :: rest) =
          Provenance.producers .reject (known.insert usage.parameter usage) rest := by
        simp only [Provenance.producers, found]
      rw [next, List.append_cons]
      exact ih (records.insert usage) (by simpa using distinct.concat new)

theorem Rewritten.not_nodup {fault : Failure} (rewritten : Rewritten written fault) :
    ¬ (written.map FileUsage.parameter).Nodup := by
  obtain ⟨before, usage, after, first, rfl, _, member, same, _⟩ := rewritten
  intro distinct
  rw [List.map_append, List.nodup_append] at distinct
  exact distinct.2.2 _ (List.mem_map_of_mem member) _ List.mem_cons_self same

theorem Records.empty : Records {} [] := ⟨rfl, fun _ => rfl⟩

theorem producers_error {fault : Failure} (failed : producers policy {} written = .error fault) :
    policy = .reject ∧ Rewritten written fault := by
  cases policy with
  | lastWriterWins =>
    obtain ⟨all, made⟩ := producers_lastWriterWins {} written
    cases made.symm.trans failed
  | reject =>
    obtain ⟨all, made, _⟩ | ⟨other, refused, rewritten⟩ := Records.empty.reject List.nodup_nil
    · cases made.symm.trans failed
    · cases refused.symm.trans failed
      exact ⟨rfl, rewritten⟩

theorem producers_error_iff : (∃ fault, producers policy {} written = .error fault) ↔
    policy = .reject ∧ ¬ (written.map FileUsage.parameter).Nodup := by
  constructor
  · rintro ⟨fault, failed⟩
    obtain ⟨strict, rewritten⟩ := producers_error failed
    exact ⟨strict, rewritten.not_nodup⟩
  · rintro ⟨rfl, twice⟩
    obtain ⟨all, _, distinct⟩ | ⟨fault, refused, _⟩ := Records.empty.reject List.nodup_nil
    · exact absurd distinct twice
    · exact ⟨fault, refused⟩

theorem transferOut_returns (settings : Settings) (producer : FileUsage) :
    Returns settings producer (producer.transferOut settings) := ⟨rfl, rfl, rfl, rfl⟩

namespace TransferPlan

/-- The files that are read, in the order of the tools and their functions. -/
def reads (tools : List Tool) : List FileUsage := (steps tools).flatMap ProvenanceTool.fileInputs

def writes (tools : List Tool) : List FileUsage := (steps tools).flatMap ProvenanceTool.fileOutputs

theorem infer_eq_ok {tools : List Tool} {plan : TransferPlan} : infer tools settings = .ok plan ↔
    ∃ all, outputs tools settings = .ok all ∧
      plan = { byTool := OrderedMap.groups (incoming (inputs tools) all settings)
               trailing := outgoing (inputs tools) all settings } := by
  simp only [infer, Outcome.bind_eq_ok, Outcome.pure_eq_ok]
  exact exists_congr fun all => and_congr_right fun _ => eq_comm

theorem infer_eq_error {tools : List Tool} {fault : Failure} : infer tools settings = .error fault ↔
    outputs tools settings = .error fault := by
  simp only [infer, Outcome.bind_eq_error]
  refine ⟨fun failed => failed.resolve_right ?_, Or.inl⟩
  rintro ⟨_, _, impossible⟩
  cases impossible

theorem inputs_perm (tools : List Tool) : (inputs tools).values.flatten.Perm (reads tools) := by
  have grouped := (OrderedMap.listed_groups ((reads tools).map fun usage => (usage.parameter, usage))).map Prod.snd
  rw [List.map_map] at grouped
  rw [OrderedMap.values_flatten]
  exact grouped.trans (by simp [Function.comp_def])

theorem inputs_contains (tools : List Tool) (parameter : String) :
    (inputs tools).contains parameter = ((reads tools).map FileUsage.parameter).contains parameter := by
  have keys : (inputs tools).keys = ((reads tools).map FileUsage.parameter).eraseDups := by
    rw [inputs, OrderedMap.keys_groups, List.map_map]
    rfl
  rw [Bool.eq_iff_iff, OrderedMap.contains, OrderedMap.isSome_get?_iff, keys]
  simp

/-- Every file that is only written goes out once, from the last function that writes it. -/
theorem outgoing_listed {tools : List Tool} (records : Records all (writes tools)) :
    List.Forall₂ (fun parameter transfer => ∃ producer, lastWriter? (writes tools) parameter = some producer ∧
      transfer = producer.transferOut settings) (unread (reads tools) (writes tools))
      (outgoing (inputs tools) all settings) := by
  have stored : ∀ entry ∈ all.entries, lastWriter? (writes tools) entry.1 = some entry.2 := by
    intro entry member
    rw [← records.last]
    exact OrderedMap.get?_eq_some_iff.2 member
  -- Both sides are the producers left over, seen by their keys and by their values.
  have left : unread (reads tools) (writes tools) =
      (all.entries.filter fun entry => !(inputs tools).contains entry.1).map Prod.fst := by
    rw [unread, ← records.keys, OrderedMap.keys, List.filter_map]
    simp only [Function.comp_def, inputs_contains]
  have right : outgoing (inputs tools) all settings =
      (all.entries.filter fun entry => !(inputs tools).contains entry.1).map
        fun entry => entry.2.transferOut settings := by
    have same : ∀ entry ∈ all.entries,
        (!(inputs tools).contains entry.2.parameter) = !(inputs tools).contains entry.1 := by
      intro entry member
      rw [(lastWriter?_mem (stored entry member)).2]
    rw [outgoing, OrderedMap.values, List.filter_map, List.map_map]
    exact congrArg (List.map _) (List.filter_congr same)
  rw [left, right, List.forall₂_map_left_iff, List.forall₂_map_right_iff, List.forall₂_same]
  intro entry member
  exact ⟨entry.2, stored entry (List.mem_of_mem_filter member), rfl⟩

theorem outgoing_returns {tools : List Tool} (records : Records all (writes tools)) :
    List.Forall₂ (fun parameter transfer => ∃ producer, lastWriter? (writes tools) parameter = some producer ∧
      Returns settings producer transfer) (unread (reads tools) (writes tools))
      (outgoing (inputs tools) all settings) := by
  refine (outgoing_listed records).imp fun parameter transfer sent => ?_
  obtain ⟨producer, last, rfl⟩ := sent
  exact ⟨producer, last, transferOut_returns settings producer⟩

end TransferPlan

def toolOf (name : String) (functions : List (String × List Usage)) : Tool :=
  .provenance
    { name, endpoint := "at " ++ name
      functions := OrderedMap.ofList (functions.map fun (function, args) => (function, { args })) }

def fileUse (name : String) (direction : Direction) : Usage := { parameter := ⟨name, .file none⟩, direction }

end Provenance
