import Provenance.Proofs.RegistryFiles

/-! The files that go back to the orchestrator. Each goes back once, under the path that
its last writer declares. No tool or function is named in this path, so two files meet at
the orchestrator exactly when they are declared under one path. -/

namespace Provenance

open TransferPlan (infer reads writes)

/-- The path that the last function to write a file declares for it. -/
def returnPath (tools : List Tool) (parameter : String) : Option String :=
  (lastWriter? (writes tools) parameter).map FileUsage.declaredPath

variable {tools : List Tool} {settings : Settings} {plan : TransferPlan} {moved : Transfer} {parameter : String}

/-- Every result goes back once. -/
theorem trailing_parameters (inferred : infer tools settings = .ok plan) :
    plan.trailing.map Transfer.parameter = unread (reads tools) (writes tools) := by
  obtain ⟨all, found, rfl⟩ := TransferPlan.infer_eq_ok.1 inferred
  have records : Records all (writes tools) := Records.empty.producers found
  rw [← List.map_id (unread _ _), eq_comm]
  apply Outcome.map_eq_of_forall₂ (TransferPlan.outgoing_returns records)
  intro parameter moved ⟨writer, last, returns⟩
  rw [returns.parameter, (lastWriter?_mem last).2, id]

/-- A result goes to the orchestrator, to the path that is declared for it. -/
theorem trailing_destination (inferred : infer tools settings = .ok plan) (member : moved ∈ plan.trailing) :
    moved.destination.endpoint = settings.orchestrator ∧
      returnPath tools moved.parameter = some moved.destination.path := by
  obtain ⟨source, moves⟩ := (TransferPlan.mem_trailing_iff inferred).1 member
  obtain ⟨writer, rfl, rfl, last, _⟩ := moves.out_eq
  refine ⟨rfl, ?_⟩
  change (lastWriter? (writes tools) writer.parameter).map FileUsage.declaredPath = some writer.declaredPath
  rw [last, Option.map_some]

private theorem same_destination_iff (inferred : infer tools settings = .ok plan) {other : Transfer}
    (member : moved ∈ plan.trailing) (inside : other ∈ plan.trailing) :
    moved.destination = other.destination ↔ returnPath tools moved.parameter = returnPath tools other.parameter := by
  obtain ⟨endpoint, path⟩ := trailing_destination inferred member
  obtain ⟨endpoint', path'⟩ := trailing_destination inferred inside
  rw [path, path', Option.some.injEq]
  constructor
  · exact congrArg Location.path
  · intro same
    calc moved.destination
      _ = ⟨settings.orchestrator, moved.destination.path⟩ := by rw [← endpoint]
      _ = ⟨settings.orchestrator, other.destination.path⟩ := by rw [same]
      _ = other.destination := by rw [← endpoint']

theorem destinations_nodup_iff (inferred : infer tools settings = .ok plan) :
    (plan.trailing.map Transfer.destination).Nodup ↔
      ((unread (reads tools) (writes tools)).map (returnPath tools)).Nodup := by
  rw [← trailing_parameters inferred, List.map_map, List.Nodup, List.Nodup, List.pairwise_map, List.pairwise_map]
  apply List.Pairwise.iff_of_mem
  intro moved other member inside
  exact not_congr (same_destination_iff inferred member inside)

/-- A result without a path of its own goes back under its name. -/
theorem returnPath_unset (unset : ∀ use ∈ Tool.usages tools, use.2.direction = .output → use.2.localValue = none)
    (written : parameter ∈ (writes tools).map FileUsage.parameter) : returnPath tools parameter = some parameter := by
  obtain ⟨usage, member, same⟩ := List.mem_map.1 written
  obtain ⟨writer, last⟩ := lastWriter?_of_mem member
  rw [same] at last
  obtain ⟨inside, name⟩ := lastWriter?_mem last
  obtain ⟨tool, known, function, declared, use, used, output, _, located⟩ := TransferPlan.mem_used.1 inside
  have listed : (function.1, use) ∈ Tool.usages tools := Tool.mem_usages.2 ⟨tool, known, function, declared, rfl, used⟩
  have path : writer.declaredPath = writer.parameter := by
    rw [located]
    change use.localValue.getD use.name = use.name
    rw [unset _ listed output, Option.getD_none]
  rw [returnPath, last, Option.map_some, path, name]

/-- Different transfers to the orchestrator return different files, each to the path that is
declared for it. Two of them go to one place exactly when their files have one path there, so
the results are kept apart exactly when their paths are different, as they are when no written
file is given a path. -/
theorem results_meet_at_equal_paths (tools : List Tool) (settings : Settings) (plan : TransferPlan)
    (inferred : infer tools settings = .ok plan) :
    (plan.trailing.map Transfer.parameter).Nodup ∧
    (∀ moved ∈ plan.trailing, moved.destination.endpoint = settings.orchestrator ∧
      returnPath tools moved.parameter = some moved.destination.path) ∧
    (∀ moved ∈ plan.trailing, ∀ other ∈ plan.trailing, moved.destination = other.destination ↔
      returnPath tools moved.parameter = returnPath tools other.parameter) ∧
    ((plan.trailing.map Transfer.destination).Nodup ↔
      ((unread (reads tools) (writes tools)).map (returnPath tools)).Nodup) ∧
    ((∀ use ∈ Tool.usages tools, use.2.direction = .output → use.2.localValue = none) →
      (plan.trailing.map Transfer.destination).Nodup) := by
  refine ⟨?_, fun moved => trailing_destination inferred, ?_, destinations_nodup_iff inferred, ?_⟩
  · rw [trailing_parameters inferred]
    exact unread_nodup _ _
  · intro moved member other inside
    exact same_destination_iff inferred member inside
  · intro unset
    rw [destinations_nodup_iff inferred]
    have names : (unread (reads tools) (writes tools)).map (returnPath tools) =
        (unread (reads tools) (writes tools)).map some := by
      apply List.map_congr_left
      intro parameter left
      exact returnPath_unset unset (mem_unread.1 left).1
    rw [names]
    exact (unread_nodup _ _).map fun _ _ => Option.some.inj

/-- A tool writes a text and another one draws an image, each under a path of its own. -/
def drawingTools (text image : String) : List Tool :=
  let output (name path : String) : Usage := { fileUse name .output with localValue := some path }
  [toolOf "A" [("write", [output "text" text])], toolOf "B" [("draw", [output "image" image])]]

theorem text_and_image_are_kept_apart : ∃ plan, infer (drawingTools "out.txt" "out.png") {} = .ok plan ∧
    plan.trailing.length = 2 ∧ (plan.trailing.map Transfer.destination).Nodup := by
  have inferred : ∃ plan, infer (drawingTools "out.txt" "out.png") {} = .ok plan ∧ plan.trailing.length = 2 :=
    ⟨_, rfl, rfl⟩
  obtain ⟨plan, inferred, both⟩ := inferred
  have paths : ((unread (reads (drawingTools "out.txt" "out.png")) (writes (drawingTools "out.txt" "out.png"))).map
      (returnPath (drawingTools "out.txt" "out.png"))).Nodup := by decide
  exact ⟨plan, inferred, both, (results_meet_at_equal_paths _ _ _ inferred).2.2.2.1.2 paths⟩

/-- Both results are written to one path at the orchestrator. -/
theorem image_overwrites_the_text : ∃ plan moved other, infer (drawingTools "out" "out") {} = .ok plan ∧
    plan.trailing = [moved, other] ∧ moved ≠ other ∧ moved.destination = other.destination :=
  ⟨_, _, _, rfl, rfl, by decide, rfl⟩

end Provenance
