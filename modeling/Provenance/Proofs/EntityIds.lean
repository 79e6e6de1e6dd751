import Provenance.Proofs.DraftEntities
import Provenance.Proofs.ListSplits

/-! The ids of the steps, tools, connections and parameters of a flow. All of them are
names inside the workflow, put together from names of states and paths, so that two may
come to the same. Parameters of one name share a node. A document can be built exactly
when all others have names of their own. -/

namespace Provenance.Graph

open Provenance.Flow (ComputeStep Step computes)

/-- The nodes of entities in a document. Each has the one type of its entity, and only
parameters of one name have a node together. -/
structure Document.TellsApart (d : Document) (settings : Settings) (steps : List Step) : Prop where
  present : ∀ entity ∈ entities settings steps, ∃ node ∈ d.nodes,
    node.id = entity.id settings.workflow ∧ node.types = [entity.type]
  only : ∀ node ∈ d.nodes, (∃ type ∈ Entity.allTypes, node.hasType type = true) →
    ∃ entity ∈ entities settings steps, node.id = entity.id settings.workflow ∧ node.types = [entity.type]
  apart : ∀ a ∈ entities settings steps, ∀ b ∈ entities settings steps,
    a.id settings.workflow = b.id settings.workflow → a = b ∨ (a.isParameter = true ∧ b.isParameter = true)

private theorem Draft.document_tells_apart {draft : Draft} {settings : Settings} {steps : List Step} {d : Document}
    (distinct : ((computes steps).map ComputeStep.name).Nodup) (drafted : Draft.ofFlow settings steps = .ok draft)
    (made : draft.document settings = .ok d) : d.TellsApart settings steps := by
  have collects := Document.ofNodes_collects made
  refine ⟨?_, ?_, ?_⟩
  · intro entity member
    obtain ⟨node, emits⟩ := (Draft.emits_iff distinct drafted).2 member
    obtain ⟨known, stored, own, same⟩ := collects.stored (emits.emitted settings)
    exact ⟨known, stored, own.trans emits.id, same.types.trans emits.types⟩
  · intro node member ⟨type, listed, typed⟩
    rcases (Draft.ofFlow_holds drafted).around_or_emits (collects.only node member) with around | ⟨entity, emits⟩
    · exact absurd typed (Draft.around_untyped around listed)
    · exact ⟨entity, (Draft.emits_iff distinct drafted).1 ⟨node, emits⟩, emits.id, emits.types⟩
  · intro a first b second same
    obtain ⟨x, emits⟩ := (Draft.emits_iff distinct drafted).2 first
    obtain ⟨y, emits'⟩ := (Draft.emits_iff distinct drafted).2 second
    by_contra clash
    rw [not_or] at clash
    exact Draft.not_clash made emits emits' ⟨clash.1, localId_inj same, clash.2⟩

/-- Steps whose names have no slashes and are none of the words that ids are made with,
and that no path at the orchestrator is named like. -/
structure PlainSteps (settings : Settings) (steps : List Step) : Prop where
  unsplit : ∀ step ∈ computes steps, '/' ∉ step.name.toList
  unreserved : ∀ step ∈ computes steps, step.name ≠ "main" ∧ step.name ≠ "connection"
  unused : ∀ step ∈ computes steps, ∀ path, (.orchestrator, path) ∈ usedPaths settings [] steps →
    trimmed path ≠ step.name

private theorem joined_inj {first second rest others : String} (clear : '/' ∉ first.toList)
    (unsplit : '/' ∉ second.toList)
    (same : first ++ "/" ++ rest = second ++ "/" ++ others) : first = second ∧ rest = others := by
  have mark : "/".toList = ['/'] := by decide
  have letters := congrArg String.toList same
  simp only [String.toList_append, mark, List.append_assoc, List.singleton_append] at letters
  obtain ⟨heads, tails⟩ := split_at_mark clear unsplit letters
  exact ⟨String.toList_inj.1 heads, String.toList_inj.1 tails⟩

namespace Entity

/-- The text before the first slash of a name and the text behind it. -/
def segments : Entity → String × Option String
  | .step name => ("main", some name)
  | .tool name => (name, none)
  | .connection number => ("connection", some (toString number))
  | .parameter owner path => (owner.name, some path)

variable {settings : Settings} {steps : List Step} {a b : Entity}

theorem localName_eq (entity : Entity) : entity.localName =
    match entity.segments with
    | (head, none) => head
    | (head, some rest) => head ++ "/" ++ rest := by
  cases entity with
  | step name =>
    have main : "main/" = "main" ++ "/" := by decide
    simp [localName, segments, main]
  | tool name => rfl
  | connection number =>
    have words : "connection/" = "connection" ++ "/" := by decide
    simp [localName, segments, words]
  | parameter owner path => rfl

private theorem mem_entities_step {name : String} :
    .step name ∈ entities settings steps ↔ ∃ step ∈ computes steps, step.name = name := by
  simp [entities]

private theorem mem_entities_tool {name : String} :
    .tool name ∈ entities settings steps ↔ ∃ step ∈ computes steps, step.name = name := by
  simp [entities]

private theorem mem_entities_parameter {owner : Site} {path : String} :
    .parameter owner path ∈ entities settings steps ↔
    ∃ used, (owner, used) ∈ usedPaths settings [] steps ∧ trimmed used = path := by
  simp [entities]

private theorem head_clear (plain : PlainSteps settings steps) (member : a ∈ entities settings steps) :
    '/' ∉ a.segments.1.toList := by
  have main : '/' ∉ "main".toList := by decide
  have word : '/' ∉ "connection".toList := by decide
  cases a with
  | step name => exact main
  | tool name =>
    obtain ⟨step, runs, rfl⟩ := mem_entities_tool.1 member
    exact plain.unsplit step runs
  | connection number => exact word
  | parameter owner path =>
    obtain ⟨used, listed, _⟩ := mem_entities_parameter.1 member
    cases owner with
    | orchestrator => exact main
    | step name =>
      obtain ⟨step, runs, rfl⟩ := step_of_usedPath listed
      exact plain.unsplit step runs

private theorem segments_inj (plain : PlainSteps settings steps) (first : a ∈ entities settings steps)
    (second : b ∈ entities settings steps) (same : a.localName = b.localName) : a.segments = b.segments := by
  have clear := head_clear plain first
  have clear' := head_clear plain second
  have joined : ∀ head rest : String, '/' ∈ (head ++ "/" ++ rest).toList := by simp
  rw [localName_eq, localName_eq] at same
  rcases left : a.segments with ⟨head, _ | rest⟩ <;> rcases right : b.segments with ⟨head', _ | rest'⟩ <;>
    simp only [left, right] at same clear clear' ⊢
  · rw [same]
  · exact absurd (same ▸ joined head' rest') clear
  · exact absurd (same ▸ joined head rest) clear'
  · obtain ⟨rfl, rfl⟩ := joined_inj clear clear' same
    rfl

private theorem owner_unreserved (plain : PlainSteps settings steps) {name path : String}
    (member : .parameter (.step name) path ∈ entities settings steps) : name ≠ "main" ∧ name ≠ "connection" := by
  obtain ⟨used, listed, _⟩ := mem_entities_parameter.1 member
  obtain ⟨step, runs, rfl⟩ := step_of_usedPath listed
  exact plain.unreserved step runs

private theorem step_ne_parameter (plain : PlainSteps settings steps) {name path : String} {owner : Site}
    (first : .step name ∈ entities settings steps) (second : .parameter owner path ∈ entities settings steps) :
    (step name).segments ≠ (parameter owner path).segments := by
  intro same
  obtain ⟨main, inner⟩ := Prod.mk.inj same
  cases owner with
  | orchestrator =>
    obtain ⟨step, runs, rfl⟩ := mem_entities_step.1 first
    obtain ⟨used, listed, rfl⟩ := mem_entities_parameter.1 second
    exact plain.unused step runs used listed (Option.some.inj inner).symm
  | step other => exact (owner_unreserved plain second).1 main.symm

private theorem connection_ne_parameter (plain : PlainSteps settings steps) {number : Nat} {path : String}
    {owner : Site} (member : .parameter owner path ∈ entities settings steps) :
    (connection number).segments ≠ (parameter owner path).segments := by
  intro same
  have word := congrArg Prod.fst same
  cases owner with
  | orchestrator => exact absurd word (by decide : "connection" ≠ "main")
  | step other => exact (owner_unreserved plain member).2 word.symm

/-- Among steps with plain names, every entity has a name of its own. -/
theorem localName_inj (plain : PlainSteps settings steps) (first : a ∈ entities settings steps)
    (second : b ∈ entities settings steps) (same : a.localName = b.localName) : a = b := by
  have segments := segments_inj plain first second same
  cases a with
  | step name =>
    cases b with
    | step other => exact congrArg Entity.step (Option.some.inj (congrArg Prod.snd segments))
    | tool other => cases congrArg Prod.snd segments
    | connection number => exact absurd (congrArg Prod.fst segments) (by decide : "main" ≠ "connection")
    | parameter owner path => exact absurd segments (step_ne_parameter plain first second)
  | tool name =>
    cases b with
    | tool other => exact congrArg Entity.tool same
    | step _ | connection _ | parameter _ _ => cases congrArg Prod.snd segments
  | connection number =>
    cases b with
    | step name => exact absurd (congrArg Prod.fst segments) (by decide : "connection" ≠ "main")
    | tool name => cases congrArg Prod.snd segments
    | connection other =>
      have ids : connectionId "" number = connectionId "" other := congrArg (localId "") same
      exact congrArg Entity.connection (connectionId_injective "" ids)
    | parameter owner path => exact absurd segments (connection_ne_parameter plain second)
  | parameter owner path =>
    cases b with
    | step name => exact absurd segments.symm (step_ne_parameter plain second first)
    | tool name => cases congrArg Prod.snd segments
    | connection number => exact absurd segments.symm (connection_ne_parameter plain first)
    | parameter other rest =>
      obtain ⟨heads, tails⟩ := Prod.mk.inj segments
      rw [Option.some.inj tails]
      cases owner with
      | orchestrator =>
        cases other with
        | orchestrator => rfl
        | step name => exact absurd heads.symm (owner_unreserved plain second).1
      | step name =>
        cases other with
        | orchestrator => exact absurd heads (owner_unreserved plain first).1
        | step other => exact congrArg (fun name => parameter (.step name) rest) heads

end Entity

variable {plan : Flow.Plan} {input : Json} {settings : Settings} {steps : List Step} {d : Document}

private theorem Document.ofPlan_drafted (read : plan.steps input settings.marker = .ok steps)
    (attributed : ∀ hop ∈ hops [] steps, ∀ side, ¬ hop.Unattributed settings side) :
    ∃ draft, Draft.ofFlow settings steps = .ok draft ∧
      Document.ofPlan plan input settings = draft.document settings := by
  cases drafted : Draft.ofFlow settings steps with
  | error fault =>
    obtain ⟨hop, member, blamed⟩ := List.exists_of_findSome?_eq_some (Draft.ofFlow_error_iff.1 drafted)
    obtain ⟨side, unattributed, _⟩ := Hop.refusal?_eq_some_iff.1 blamed
    exact absurd unattributed (attributed hop member side)
  | ok draft =>
    refine ⟨draft, rfl, ?_⟩
    rw [Document.ofPlan_eq read, drafted]
    rfl

private theorem Document.attributed_of_ofPlan (read : plan.steps input settings.marker = .ok steps)
    (accepted : ∀ state side, Document.ofPlan plan input settings ≠ .error (.unattributedTransfer state side)) :
    ∀ hop ∈ hops [] steps, ∀ side, ¬ hop.Unattributed settings side := by
  intro hop member side unattributed
  obtain ⟨state, place, refused⟩ := Hop.refused_iff.2 ⟨hop, member, side, unattributed⟩
  exact accepted state place ((Document.ofPlan_unattributed_iff read).2 refused)

/-- A plan whose transfers all have their ends comes to a document exactly if no two of its
entities clash, and is refused for the id of two that do. In the document different
entities have different ids, except for parameters of one name. Plain names never clash. -/
theorem documents_tell_entities_apart (plan : Flow.Plan) (input : Json) (settings : Settings) (steps : List Step)
    (apart : settings.Apart) (read : plan.steps input settings.marker = .ok steps)
    (attributed : ∀ hop ∈ hops [] steps, ∀ side, ¬ hop.Unattributed settings side) :
    ((∃ d, Document.ofPlan plan input settings = .ok d) ↔
      ∀ a ∈ entities settings steps, ∀ b ∈ entities settings steps, ¬ a.Clash b) ∧
    (∀ fault, Document.ofPlan plan input settings = .error fault →
      ∃ a ∈ entities settings steps, ∃ b ∈ entities settings steps,
        a.Clash b ∧ fault = .graphIdCollision (a.id settings.workflow)) ∧
    (∀ d, Document.ofPlan plan input settings = .ok d → d.TellsApart settings steps) ∧
    (PlainSteps settings steps → (∃ d, Document.ofPlan plan input settings = .ok d) ∧
      ∀ a ∈ entities settings steps, ∀ b ∈ entities settings steps,
        a.id settings.workflow = b.id settings.workflow → a = b) := by
  obtain ⟨names, completes, represents⟩ := Flow.Plan.steps_ok_iff.1 read
  have distinct : ((computes steps).map ComputeStep.name).Nodup :=
    (represents.names_nodup completes.distinct).sublist (Flow.computes_names_sublist steps)
  obtain ⟨draft, drafted, same⟩ := Document.ofPlan_drafted read attributed
  have emits : ∀ entity, (∃ node, draft.Emits settings.workflow entity node) ↔ entity ∈ entities settings steps :=
    fun _ => Draft.emits_iff distinct drafted
  have refused : ∀ fault, draft.document settings = .error fault →
      ∃ a ∈ entities settings steps, ∃ b ∈ entities settings steps,
        a.Clash b ∧ fault = .graphIdCollision (a.id settings.workflow) := by
    intro fault failed
    obtain ⟨a, b, x, y, first, second, clash, collision⟩ :=
      Draft.clash_of_refused apart (Draft.ofFlow_holds drafted) failed
    exact ⟨a, (emits a).1 ⟨x, first⟩, b, (emits b).1 ⟨y, second⟩, clash, collision⟩
  have built : (∀ a ∈ entities settings steps, ∀ b ∈ entities settings steps, ¬ a.Clash b) →
      ∃ d, draft.document settings = .ok d := by
    intro clear
    cases made : draft.document settings with
    | ok d => exact ⟨d, rfl⟩
    | error fault =>
      obtain ⟨a, first, b, second, clash, _⟩ := refused fault made
      exact absurd clash (clear a first b second)
  rw [same]
  refine ⟨⟨?_, built⟩, refused, fun d made => Draft.document_tells_apart distinct drafted made, ?_⟩
  · intro ⟨d, made⟩ a first b second
    obtain ⟨x, emitted⟩ := (emits a).2 first
    obtain ⟨y, emitted'⟩ := (emits b).2 second
    exact Draft.not_clash made emitted emitted'
  · intro plain
    refine ⟨built ?_, ?_⟩
    · intro a first b second clash
      exact clash.different (Entity.localName_inj plain first second clash.name)
    · intro a first b second ids
      exact Entity.localName_inj plain first second (localId_inj ids)

private theorem plainSettings_apart : plainSettings.Apart where
  distinct := by decide
  metadata := by decide
  root := by decide
  outside := by decide

theorem passing_documents_tell_entities_apart :
    ∃ steps d, passPlan.steps .null plainSettings.marker = .ok steps ∧ plainSettings.Apart ∧
      (∀ hop ∈ hops [] steps, ∀ side, ¬ hop.Unattributed plainSettings side) ∧
      Document.ofPlan passPlan .null plainSettings = .ok d ∧ d.TellsApart plainSettings steps := by
  have walked : (passPlan.steps .null plainSettings.marker).toOption.isSome = true := by cbv
  have built : (Document.ofPlan passPlan .null plainSettings).toOption.isSome = true := by decide +kernel
  obtain ⟨steps, read⟩ := Outcome.ok_of_isSome walked
  obtain ⟨d, made⟩ := Outcome.ok_of_isSome built
  have attributed := Document.attributed_of_ofPlan read (by simp [made])
  have all := documents_tell_entities_apart passPlan .null plainSettings steps plainSettings_apart read attributed
  exact ⟨steps, d, read, plainSettings_apart, attributed, made, all.2.2.1 d made⟩

/-- A flow that fetches a file at a path that is the name of the step it is fetched for. -/
def namesakePlan : Flow.Plan :=
  { start := "Fetch"
    states := OrderedMap.ofList
      [("Fetch", movingState "hub" "lab" [("/Sort", "/b")] (some "Sort")), ("Sort", idleState none)] }

/-- A flow that writes a file to the same path at the orchestrator and at a step of its name. -/
def sharedPlan : Flow.Plan :=
  { start := "Fetch"
    states := OrderedMap.ofList
      [("Fetch", movingState "hub" "lab" [("/a", "/a")] (some "main")), ("main", idleState none)] }

/-- The id that a document is refused for. -/
def collision? : Except Failure Document → Option String
  | .error (.graphIdCollision id) => some id
  | _ => none

private theorem collision?_eq_some {outcome : Except Failure Document} {id : String} :
    collision? outcome = some id ↔ outcome = .error (.graphIdCollision id) := by
  constructor
  · intro collides
    unfold collision? at collides
    split at collides
    next => rw [Option.some.inj collides]
    next => cases collides
  · intro refused
    rw [refused]
    rfl

theorem paths_may_take_the_id_of_a_step :
    plainSettings.Apart ∧
    (∃ steps, namesakePlan.steps .null plainSettings.marker = .ok steps ∧
      (∀ hop ∈ hops [] steps, ∀ side, ¬ hop.Unattributed plainSettings side) ∧
      Document.ofPlan namesakePlan .null plainSettings = .error (.graphIdCollision "wf#main/Sort")) ∧
    (∃ steps d, sharedPlan.steps .null plainSettings.marker = .ok steps ∧
      (∀ hop ∈ hops [] steps, ∀ side, ¬ hop.Unattributed plainSettings side) ∧
      Document.ofPlan sharedPlan .null plainSettings = .ok d ∧
      (Entity.parameter .orchestrator "a") ∈ entities plainSettings steps ∧
      (Entity.parameter (.step "main") "a") ∈ entities plainSettings steps ∧
      (Entity.parameter .orchestrator "a").id plainSettings.workflow =
        (Entity.parameter (.step "main") "a").id plainSettings.workflow) := by
  have fetched : (namesakePlan.steps .null plainSettings.marker).toOption.isSome = true := by cbv
  have shared : ((sharedPlan.steps .null plainSettings.marker).toOption.map fun steps =>
      (entities plainSettings steps).filter Entity.isParameter) =
      some [.parameter .orchestrator "a", .parameter (.step "main") "a"] := by cbv
  have built : (Document.ofPlan sharedPlan .null plainSettings).toOption.isSome = true := by decide +kernel
  have collides : collision? (Document.ofPlan namesakePlan .null plainSettings) = some "wf#main/Sort" := by
    decide +kernel
  have refused := collision?_eq_some.1 collides
  obtain ⟨steps, read⟩ := Outcome.ok_of_isSome fetched
  obtain ⟨others, walked, parameters⟩ := Option.map_eq_some_iff.1 shared
  obtain ⟨d, made⟩ := Outcome.ok_of_isSome built
  have walked := Outcome.toOption_eq_some.1 walked
  have listed : ∀ entity ∈ [Entity.parameter .orchestrator "a", .parameter (.step "main") "a"],
      entity ∈ entities plainSettings others := by
    intro entity member
    rw [← parameters] at member
    exact (List.mem_filter.1 member).1
  refine ⟨plainSettings_apart, ⟨steps, read, ?_, refused⟩, ⟨others, d, walked, ?_, made, ?_, ?_, by decide⟩⟩
  · exact Document.attributed_of_ofPlan read (by simp [refused])
  · exact Document.attributed_of_ofPlan walked (by simp [made])
  · exact listed _ (by simp)
  · exact listed _ (by simp)

end Provenance.Graph
