import Provenance.Proofs.ComparedItems

/-! A comparison asks for more the wider its scope is. What succeeds in a scope succeeds in
every scope within it. -/

namespace Provenance

open Provenance.Graph (linkJson)
open Finding (Pass)

/-- A scope that asks for nothing that another does not ask for. -/
structure Scope.Within (narrow wide : Scope) : Prop where
  parts : narrow.parts ⊆ wide.parts
  references : narrow.references ⊆ wide.references
  skipped : wide.skipped ⊆ narrow.skipped
  classify : narrow.classify = wide.classify

namespace Comparator

variable {narrow wide : Comparator} {value : Json} {path : List String} {items found : List Json}

private theorem Meets.narrows (smaller : ∀ value, narrow.inScope value = true → wide.inScope value = true)
    (checks : ∀ actual path, Pass (check wide value actual path) → Pass (check narrow value actual path))
    {found : Option Json} (met : wide.Meets value (check wide value) found path) :
    narrow.Meets value (check narrow value) found path := by
  intro scope
  have met := met (smaller value scope)
  cases found with
  | some actual => exact checks actual path met
  | none =>
    cases value with
    | array items =>
      have none : ∀ item ∈ items, ¬ wide.inScope item = true := by simpa [mayBeMissing] using met
      have fewer : ∀ item ∈ items, ¬ narrow.inScope item = true := fun item member scope =>
        none item member (smaller item scope)
      simpa [mayBeMissing] using fewer
    | null | bool _ | number _ | string _ | object _ => cases met

/-- The last item in the narrow scope need not be the last in the wide one, where full
items stand behind it. Then it is a link, and any item of its id meets a link. -/
private theorem ItemsPass.narrows (smaller : ∀ value, narrow.inScope value = true → wide.inScope value = true)
    (checks : ∀ item ∈ items, ∀ actual path, Pass (check wide item actual path) → Pass (check narrow item actual path))
    (pass : wide.ItemsPass items found path) : narrow.ItemsPass items found path where
  expectedNamed item member scope := pass.expectedNamed item member (smaller item scope)
  foundNamed := pass.foundNamed
  matched id item last := by
    obtain ⟨member, named⟩ := Json.lastNamed_eq_some last
    obtain ⟨listed, scope⟩ := List.mem_filter.1 member
    obtain ⟨kept, lastKept⟩ := Json.exists_lastNamed (List.mem_filter.2 ⟨listed, smaller item scope⟩) named
    obtain ⟨other, lastFound, met⟩ := pass.matched id kept lastKept
    refine ⟨other, lastFound, ?_⟩
    rcases link_or_last last with rfl | lastOfAll
    · exact check_link_of_named (Json.lastNamed_eq_some lastFound).2
    · obtain rfl := Option.some.inj (lastKept.symm.trans (Json.lastNamed_filter lastOfAll (smaller item scope)))
      exact checks kept listed other _ met

theorem check_narrows (smaller : ∀ value, narrow.inScope value = true → wide.inScope value = true) (value : Json) :
    ∀ actual path, Pass (check wide value actual path) → Pass (check narrow value actual path) := by
  induction value using Json.induction with
  | scalar value scalar =>
    intro actual path pass
    rwa [check_scalar scalar] at pass ⊢
  | array items ih =>
    intro actual path pass
    rw [check_array_pass] at pass ⊢
    split at pass
    next linked => exact (if_pos linked).symm ▸ pass.narrows smaller ih
    next plain => exact (if_neg plain).symm ▸ pass
  | object members ih =>
    intro actual path pass
    obtain ⟨found, rfl, each⟩ := check_object_pass.1 pass
    exact check_object_pass.2 ⟨found, rfl, fun entry member => (each entry member).narrows smaller (ih entry member)⟩

end Comparator

theorem Scope.Within.inScope {narrow wide : Scope} (within : narrow.Within wide) {context : Json}
    {nodes : OrderedMap Json} (value : Json) (scope : (narrow.indexed context nodes).inScope value = true) :
    (wide.indexed context nodes).inScope value = true := by
  refine Comparator.inScope_iff.2 fun id node named stored => ?_
  have asked := Comparator.inScope_iff.1 scope id node named stored
  dsimp only [Scope.indexed] at asked ⊢
  rw [within.classify] at asked
  exact asked.imp (fun part => within.parts part) (And.imp_right fun reference => within.references reference)

/-- What succeeds in a scope succeeds in every scope within it. -/
theorem narrower_scopes_succeed (narrow wide : Scope) (within : narrow.Within wide) (expected actual : Json)
    (passed : wide.compare expected actual = .ok ()) : narrow.compare expected actual = .ok () := by
  obtain ⟨nodes, read, passed⟩ := Scope.compare_eq_ok.1 passed
  obtain ⟨context, found, actualRead, pass⟩ := Comparator.compare_eq_ok.1 passed
  refine Scope.compare_eq_ok.2 ⟨nodes, read, Comparator.compare_eq_ok.2 ⟨context, found, actualRead, ?_⟩⟩
  rw [Comparator.findings_pass_iff] at pass ⊢
  intro id node stored kept scope
  obtain ⟨other, known, met⟩ := pass id node stored (fun skipped => kept (within.skipped skipped))
    (within.inScope node scope)
  exact ⟨other, known, Comparator.check_narrows within.inScope node other _ met⟩

/-- A crate that mentions a run twice, by its id alone and then with a note. -/
def twiceMentioned : Json :=
  .object [("@context", .string "here"), ("@graph", .array
    [.object [("@id", .string "crate"), ("@type", .string "Dataset"), ("mentions", .array
        [linkJson "run", .object [("@id", .string "run"), ("note", .string "late")]])],
      .object [("@id", .string "run"), ("@type", .string "CreateAction"), ("name", .string "run")]])]

def onceMentioned : Json :=
  .object [("@context", .string "here"), ("@graph", .array
    [.object [("@id", .string "run"), ("@type", .string "CreateAction"), ("name", .string "run")],
      .object [("@id", .string "crate"), ("@type", .string "Dataset"), ("mentions",
        .object [("@id", .string "run"), ("note", .string "late")])]])]

def runScope : Scope where
  parts := [.orchestration, .retrospective]
  references := [.retrospective]
  classify := Category.ofNode
  skipped := []

/-- The note is out of scope here, so the link counts. -/
def crateScope : Scope := { runScope with parts := [.orchestration], skipped := ["run"] }

theorem mentions_succeed_in_the_crate : crateScope.Within runScope ∧
    runScope.compare twiceMentioned onceMentioned = .ok () ∧
    crateScope.compare twiceMentioned onceMentioned = .ok () := by
  have within : crateScope.Within runScope :=
    ⟨by simp [crateScope, runScope], fun _ member => member, List.nil_subset _, rfl⟩
  have passes : (runScope.compare twiceMentioned onceMentioned).toOption.isSome = true := by decide +kernel
  obtain ⟨_, passed⟩ := Outcome.ok_of_isSome passes
  exact ⟨within, passed, narrower_scopes_succeed crateScope runScope within twiceMentioned onceMentioned passed⟩

end Provenance
