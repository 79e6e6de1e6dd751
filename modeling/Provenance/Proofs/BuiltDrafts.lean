import Provenance.Graph.OfPlan
import Provenance.Graph.OfTools
import Provenance.Proofs.DraftWiring
import Provenance.Proofs.Outcomes

/-! Drafts of flow plans and of registries are wired. Both start from steps that
are only described, and add every connection after the ports it joins. -/

namespace Provenance.Graph

open Provenance.Flow (ComputeStep TransferItem Step)

namespace Draft

/-- Describing steps changes descriptions and nothing else. -/
theorem describe_part {α : Type} (items : List α) (name : α → String) (text : α → Option String) (d : Draft)
    (site : Site) : ∃ description, (items.foldl (fun draft item => draft.alter (.step (name item)) fun part =>
      { part with description := text item }) d).part site = { d.part site with description } := by
  induction items generalizing d with
  | nil => exact ⟨(d.part site).description, rfl⟩
  | cons item rest ih =>
    obtain ⟨description, same⟩ := ih (d.alter (.step (name item)) fun part => { part with description := text item })
    refine ⟨description, same.trans ?_⟩
    rw [part_alter]
    split
    next here => rw [here]
    next => rfl

private theorem describe_unconnected {α : Type} (items : List α) (name : α → String) (text : α → Option String)
    {d : Draft} (none : ∀ site, (d.part site).connections = []) (site : Site) :
    ((items.foldl (fun draft item => draft.alter (.step (name item)) fun part =>
      { part with description := text item }) d).part site).connections = [] := by
  obtain ⟨_, same⟩ := describe_part items name text d site
  rw [same]
  exact none site

private theorem empty_unconnected (site : Site) : (({} : Draft).part site).connections = [] := by
  cases site <;> rfl

theorem ofSteps_unconnected (steps : List Step) (site : Site) : ((ofSteps steps).part site).connections = [] :=
  describe_unconnected _ ComputeStep.name ComputeStep.comment empty_unconnected site

private theorem Wired.addResult {d : Draft} (wired : d.Wired) (step : ComputeStep) : (d.addResult step).Wired := by
  unfold Draft.addResult
  split
  · exact wired
  · exact wired.addSource _ _

private theorem Wired.addItem {d : Draft} (wired : d.Wired) (source destination : Site) (item : TransferItem) :
    (addItem source destination d item).Wired :=
  (wired.addSource _ _).connectTo (offers_addSource.2 (Or.inr rfl))

private theorem Wired.addItems {d : Draft} (wired : d.Wired) (source destination : Site) (items : List TransferItem) :
    (items.foldl (Draft.addItem source destination) d).Wired := by
  induction items generalizing d with
  | nil => exact wired
  | cons item rest ih => exact ih (wired.addItem source destination item)

private theorem Wired.addSteps {settings : Settings} {steps : List Step} {previous : Option String} {d after : Draft}
    (wired : d.Wired) (added : d.addSteps settings previous steps = .ok after) : after.Wired := by
  induction steps generalizing previous d with
  | nil => cases added; exact wired
  | cons step rest ih =>
    cases step with
    | compute step => exact ih (wired.addResult step) added
    | transfer step =>
      obtain ⟨source, _, later⟩ := Outcome.bind_eq_ok.1 added
      obtain ⟨destination, _, later⟩ := Outcome.bind_eq_ok.1 later
      exact ih (wired.addItems source destination step.items) later

theorem ofFlow_wired {settings : Settings} {steps : List Step} {d : Draft} (made : ofFlow settings steps = .ok d) :
    d.Wired :=
  (Wired.of_unconnected (ofSteps_unconnected steps)).addSteps made

theorem ofSequence_unconnected (entries : List SequenceEntry) (site : Site) :
    ((ofSequence entries).part site).connections = [] :=
  describe_unconnected _ Prod.snd (fun item => some (item.2 ++ " function of " ++ item.1)) empty_unconnected site

/-- What is written by some functions is offered by each of them. -/
private theorem addWriters_facts {d : Draft} (wired : d.Wired) (summary : Summary) (functions : List String) :
    let written := functions.foldl
      (fun draft function => draft.addSource (.step function) (portOf summary (.step function))) d
    written.Wired ∧ (∀ name, d.Offers name → written.Offers name) ∧
      ∀ function ∈ functions, written.Offers (portOf summary (.step function)).name := by
  induction functions generalizing d with
  | nil => exact ⟨wired, fun _ offered => offered, by simp⟩
  | cons function rest ih =>
    obtain ⟨wired, kept, offered⟩ := ih (wired.addSource (.step function) (portOf summary (.step function)))
    refine ⟨wired, fun name old => kept name (offers_addSource.2 (Or.inl old)), fun other member => ?_⟩
    rcases List.mem_cons.1 member with rfl | later
    · exact kept _ (offers_addSource.2 (Or.inr rfl))
    · exact offered other later

private theorem Wired.connectAll {d : Draft} (wired : d.Wired) {source : String} (offered : d.Offers source)
    (port : Site → Port) (sites : List Site) :
    (sites.foldl (fun draft site => draft.connectTo site source (port site)) d).Wired := by
  induction sites generalizing d with
  | nil => exact wired
  | cons site rest ih => exact ih (wired.connectTo offered) (offers_connectTo.2 offered)

/-- A producer is one of the functions that write the parameter. -/
theorem producerOf_mem {policy : ProducerPolicy} {summary : Summary} {function : String}
    (chosen : producerOf policy summary = .ok (some function)) : function ∈ summary.output := by
  unfold producerOf at chosen
  split at chosen
  · cases chosen
  · exact List.mem_of_getLast? (Except.ok.inj chosen)

theorem Wired.addParameter {settings : Settings} {d after : Draft} {summary : Summary} (wired : d.Wired)
    (added : d.addParameter settings summary = .ok after) : after.Wired := by
  obtain ⟨producer, chosen, rest⟩ := Outcome.bind_eq_ok.1 added
  obtain ⟨wired, _, offered⟩ := addWriters_facts wired summary summary.output
  cases producer with
  | some function =>
    cases rest
    exact wired.connectAll (offered function (producerOf_mem chosen)) _ _
  | none =>
    cases rest
    exact (wired.addSource _ _).connectAll (offers_addSource.2 (Or.inr rfl)) _ _

end Draft

/-- The graph of a registry is that of a draft with all its summaries. -/
theorem Document.ofRegistry_eq_ok {registry : Registry} {settings : Settings} {d : Document} :
    Document.ofRegistry registry settings = .ok d ↔ ∃ plan summaries draft,
      TransferPlan.infer registry.tools settings = .ok plan ∧ registry.summaries = .ok summaries ∧
      summaries.foldlM (Draft.addParameter settings) (Draft.ofSequence (plan.sequence registry.tools)) = .ok draft ∧
      draft.document settings = .ok d := by
  simp only [ofRegistry, Outcome.bind_eq_ok, exists_and_left]

end Provenance.Graph
