import Provenance.Proofs.ComparisonChecks
import Provenance.Proofs.JsonValues

/-! A comparison of valid documents decides scoped containment. Every node that is
asked for is found with its values, and links count as far as they lead into the scope. -/

namespace Provenance

open Provenance.Graph (linkJson)
open Schema (Lists NodeAccepted Plain Refers Scalar Shaped idsOf validate)

namespace Json

/-- A document has a node under an id. -/
def HasNode (document : Json) (id : String) (node : List (String × Json)) : Prop :=
  ∃ items, document.get? "@graph" = some (.array items) ∧ .object node ∈ items ∧
    Entries.get? "@id" node = some (.string id)

private theorem HasNode.named {document : Json} {id : String} {node : List (String × Json)}
    (stored : document.HasNode id node) : Entries.get? "@id" node = some (.string id) := by
  obtain ⟨_, _, _, named⟩ := stored
  exact named

private theorem HasNode.distinct {document : Json} {id : String} {node : List (String × Json)}
    (stored : document.HasNode id node) (distinct : document.Distinct) : (node.map Prod.fst).Nodup := by
  obtain ⟨items, graph, member, _⟩ := stored
  exact (itemsDistinct_iff.1 (distinct.get? graph) _ member).1

theorem textAt?_eq_some {members : List (String × Json)} {name text : String} :
    (Json.object members).textAt? name = some text ↔ Entries.get? name members = some (.string text) := by
  have own : (Json.object members).textAt? name = (Entries.get? name members).bind text? := rfl
  rw [own]
  cases Entries.get? name members with
  | none => simp
  | some value => cases value <;> simp [text?]

end Json

/-- What a comparison is asked to look at. -/
structure Scope where
  parts : List Category
  /-- The categories whose nodes count where a link leads to them. -/
  references : List Category
  classify : Json → Category
  skipped : List String

/-- What is found in the place of a value of an expected node, when links matter
that lead into the scope. -/
structure Holds (covers : String → Prop) (value : Json) (found : Option Json) : Prop where
  scalar : Scalar value → ∃ actual, found = some actual ∧ value.agrees actual = true
  scalars : ∀ items, value = .array items → items ≠ [] → (∀ item ∈ items, Scalar item) →
    ∃ actual, found = some actual ∧ value.agrees actual = true
  empty : value = .array [] → found = none ∨ found = some (.array [])
  link : ∀ target, value = linkJson target → covers target → found = some (linkJson target)
  links : ∀ targets, value = .array (targets.map linkJson) → targets ≠ [] →
    (found = none ∧ ∀ target ∈ targets, ¬ covers target) ∨
    ∃ actual others, found = some actual ∧ Refers actual others ∧ ∀ target ∈ targets, covers target → target ∈ others

namespace Scope

/-- An id is in scope when it is no node of the expected document, or a node of a
category that is asked for. -/
def Covers (scope : Scope) (expected : Json) (target : String) : Prop :=
  (∀ node, ¬ expected.HasNode target node) ∨
  ∃ node, expected.HasNode target node ∧
    (scope.classify (.object node) ∈ scope.parts ∨ scope.classify (.object node) ∈ scope.references)

/-- A node of the expected document is found in the actual one with its values. -/
def Finds (scope : Scope) (expected actual : Json) (id : String) (node : List (String × Json)) : Prop :=
  ∃ other, actual.HasNode id other ∧
    ∀ key value, (key, value) ∈ node → Holds (scope.Covers expected) value (Entries.get? key other)

/-- The actual document holds what the scope asks for of the expected one. -/
structure Contains (scope : Scope) (expected actual : Json) : Prop where
  context : expected.get? "@context" = actual.get? "@context"
  nodes : ∀ id node, expected.HasNode id node → id ∉ scope.skipped → scope.classify (.object node) ∈ scope.parts →
    scope.Finds expected actual id node

end Scope

namespace Schema

/-- A node has a member beside its id. -/
theorem NodeAccepted.not_bare {table : Table} {ids types : List String} {node : List (String × Json)} {id : String}
    (accepted : NodeAccepted table ids node types) (named : Entries.get? "@id" node = some (.string id)) :
    Comparator.isBare (.object node) = false := by
  have typed : ∃ value, Entries.get? "@type" node = some value := by
    cases accepted.typed with
    | single written => exact ⟨_, written⟩
    | several _ written => exact ⟨_, written⟩
  obtain ⟨value, written⟩ := typed
  match node with
  | [] => rfl
  | _ :: _ :: _ => rfl
  | [(key, only)] =>
    simp only [Entries.get?, Option.ite_none_right_eq_some] at named written
    exact absurd (named.1.symm.trans written.1) (by decide)

end Schema

namespace Comparator

/-- An index holds the nodes of a valid document and nothing else. -/
structure Indexes (nodes : OrderedMap Json) (document : Json) : Prop where
  found : ∀ id value, nodes.get? id = some value ↔ ∃ node, value = .object node ∧ document.HasNode id node
  shaped : ∀ id node, document.HasNode id node → ∀ key value, Entries.get? key node = some value → Shaped value
  whole : ∀ id node, document.HasNode id node → isBare (.object node) = false

private theorem index_valid {table : Schema.Table} {document : Json} (valid : validate table document = .ok ()) :
    ∃ nodes, index document = .ok nodes ∧ Indexes nodes document := by
  obtain ⟨_, items, graph, accepted⟩ := Schema.validate_iff.1 valid
  obtain ⟨listed, read⟩ := Schema.identify_succeeds accepted.identified accepted.distinct 0 [] (by simp)
  obtain ⟨lists, distinct, _⟩ := Schema.identify_lists read
  have named : ∀ node ∈ listed, Entries.get? "@id" node.2 = some (.string node.1) :=
    fun node member => Json.textAt?_eq_some.1 (lists.named node member)
  have own : ∀ id node, document.HasNode id node ↔ (id, node) ∈ listed := by
    intro id node
    constructor
    · rintro ⟨again, same, member, known⟩
      rw [graph] at same
      cases same
      rw [lists.objects] at member
      obtain ⟨⟨other, _⟩, inside, object⟩ := List.mem_map.1 member
      cases object
      have stored := named _ inside
      rw [known] at stored
      cases stored
      exact inside
    · intro inside
      exact ⟨items, graph, lists.objects ▸ List.mem_map_of_mem inside, named _ inside⟩
  have nodes : ∀ id node, document.HasNode id node → ∃ types, NodeAccepted table (idsOf items) node types := by
    intro id node inside
    obtain ⟨members, types, same, accepted⟩ := accepted.nodes (.object node)
      (lists.objects ▸ List.mem_map_of_mem ((own id node).1 inside))
    cases same
    exact ⟨types, accepted⟩
  have keys : (listed.map fun node => (node.1, Json.object node.2)).map Prod.fst = listed.map Prod.fst := by
    rw [List.map_map]
    rfl
  refine ⟨.ofList (listed.map fun node => (node.1, Json.object node.2)), ?_, ?_, ?_, ?_⟩
  · unfold index
    simp only [graph, Option.bind_some, Json.items?, Outcome.bind_eq_ok, Outcome.mapM_eq_ok, Outcome.pure_eq_ok]
    refine ⟨_, ?_, rfl⟩
    rw [lists.objects, List.forall₂_map_left_iff, List.forall₂_map_right_iff, List.forall₂_same]
    intro node member
    simp only [lists.named node member]
  · intro id value
    rw [OrderedMap.get?_eq_some_iff, OrderedMap.entries_ofList (keys ▸ distinct), List.mem_map]
    constructor
    · rintro ⟨⟨id, node⟩, inside, same⟩
      cases same
      exact ⟨node, rfl, (own _ _).2 inside⟩
    · rintro ⟨node, rfl, inside⟩
      exact ⟨(id, node), (own _ _).1 inside, rfl⟩
  · intro id node inside key value stored
    obtain ⟨types, accepted⟩ := nodes id node inside
    exact accepted.shaped (named _ ((own _ _).1 inside)) stored
  · intro id node inside
    obtain ⟨types, accepted⟩ := nodes id node inside
    exact accepted.not_bare (named _ ((own _ _).1 inside))

/-- What a comparator was asked to look at. -/
def scope (c : Comparator) : Scope where
  parts := c.parts
  references := c.references
  classify := c.classify
  skipped := c.skipped

variable {c : Comparator}

theorem inScope_named {members : List (String × Json)} {id : String}
    (named : (Json.object members).textAt? "@id" = some id) : c.inScope (.object members) = true ↔
      ∀ node, c.nodes.get? id = some node → c.classify node ∈ c.parts ∨
        isBare (.object members) = true ∧ c.classify node ∈ c.references := by
  have own : (c.nodeId? (.object members)).bind c.nodes.get? = c.nodes.get? id := by
    simp only [nodeId?, named, Option.filter_some]
    by_cases known : c.nodes.contains id = true
    · rw [if_pos known, Option.bind_some]
    · rw [if_neg known, Option.bind_none, Option.not_isSome_iff_eq_none.1 known]
  unfold inScope
  rw [own]
  cases c.nodes.get? id <;> simp

private theorem inScope_link {expected : Json} (indexes : Indexes c.nodes expected) (target : String) :
    c.inScope (linkJson target) = true ↔ c.scope.Covers expected target := by
  have bare : isBare (linkJson target) = true := rfl
  have named : (linkJson target).textAt? "@id" = some target := rfl
  unfold Scope.Covers scope
  dsimp only
  rw [linkJson] at bare named ⊢
  rw [inScope_named named]
  simp only [bare, true_and, indexes.found]
  constructor
  · intro each
    by_cases inside : ∃ node, expected.HasNode target node
    · obtain ⟨node, inside⟩ := inside
      exact Or.inr ⟨node, inside, each _ ⟨node, rfl, inside⟩⟩
    · exact Or.inl fun node stored => inside ⟨node, stored⟩
  · rintro (outside | ⟨node, inside, asked⟩) _ ⟨other, rfl, stored⟩
    · exact absurd stored (outside other)
    · have same : c.nodes.get? target = some (.object node) := (indexes.found _ _).2 ⟨node, rfl, inside⟩
      have again : c.nodes.get? target = some (.object other) := (indexes.found _ _).2 ⟨other, rfl, stored⟩
      cases same.symm.trans again
      exact asked

private theorem inScope_node {expected : Json} (indexes : Indexes c.nodes expected) {id : String}
    {node : List (String × Json)} (inside : expected.HasNode id node) :
    c.inScope (.object node) = true ↔ c.classify (.object node) ∈ c.parts := by
  have named : (Json.object node).textAt? "@id" = some id := Json.textAt?_eq_some.2 inside.named
  rw [inScope_named named, (indexes.found id _).2 ⟨node, rfl, inside⟩,
    indexes.whole id node inside]
  simp

end Comparator

section Holds

open Comparator (Meets check)

variable {covers : String → Prop} {value : Json} {found : Option Json} {items : List Json} {targets : List String}
  {target : String}

private theorem holds_scalar (plain : Scalar value) :
    Holds covers value found ↔ ∃ actual, found = some actual ∧ value.agrees actual = true := by
  refine ⟨fun holds => holds.scalar plain, fun equal => ⟨fun _ => equal, ?_, ?_, ?_, ?_⟩⟩
  · rintro items rfl
    cases plain
  · rintro rfl
    cases plain
  · rintro target rfl
    cases plain
  · rintro targets rfl
    cases plain

private theorem holds_empty : Holds covers (.array []) found ↔ found = none ∨ found = some (.array []) := by
  refine ⟨fun holds => holds.empty rfl, fun empty => ⟨?_, ?_, fun _ => empty, ?_, ?_⟩⟩
  · intro scalar
    cases scalar
  · intro items same some
    cases same
    exact absurd rfl some
  · intro target same
    cases same
  · intro targets same some
    exact absurd (List.map_eq_nil_iff.1 (Json.array.inj same).symm) some

private theorem holds_scalars (nonempty : items ≠ []) (scalars : ∀ item ∈ items, Scalar item) :
    Holds covers (.array items) found ↔ ∃ actual, found = some actual ∧ (Json.array items).agrees actual = true := by
  refine ⟨fun holds => holds.scalars items rfl nonempty scalars, fun equal => ⟨?_, ?_, ?_, ?_, ?_⟩⟩
  · intro scalar
    cases scalar
  · exact fun _ _ _ _ => equal
  · intro same
    exact absurd (Json.array.inj same) nonempty
  · intro target same
    cases same
  · intro targets same some
    obtain ⟨first, rest, rfl⟩ := List.exists_cons_of_ne_nil some
    have scalar := scalars (linkJson first) (Json.array.inj same ▸ List.mem_cons_self)
    cases scalar

private theorem holds_link :
    Holds covers (linkJson target) found ↔ (covers target → found = some (linkJson target)) := by
  refine ⟨fun holds => holds.link target rfl, fun link => ⟨?_, ?_, ?_, ?_, ?_⟩⟩
  · intro scalar
    cases scalar
  · intro items same
    cases same
  · intro same
    cases same
  · intro other same
    cases same
    exact link
  · intro targets same
    cases same

private theorem holds_links (nonempty : targets ≠ []) : Holds covers (.array (targets.map linkJson)) found ↔
    (found = none ∧ ∀ target ∈ targets, ¬ covers target) ∨
    ∃ actual others, found = some actual ∧ Refers actual others ∧
      ∀ target ∈ targets, covers target → target ∈ others := by
  refine ⟨fun holds => holds.links targets rfl nonempty, fun links => ⟨?_, ?_, ?_, ?_, ?_⟩⟩
  · intro scalar
    cases scalar
  · intro items same _ scalars
    obtain ⟨first, rest, rfl⟩ := List.exists_cons_of_ne_nil nonempty
    have scalar := scalars (linkJson first) (Json.array.inj same ▸ List.mem_cons_self)
    cases scalar
  · intro same
    exact absurd (List.map_eq_nil_iff.1 (Json.array.inj same)) nonempty
  · intro target same
    cases same
  · intro others same _
    have injective : Function.Injective linkJson := by
      intro first second same
      cases same
      rfl
    cases List.map_injective_iff.2 injective (Json.array.inj same)
    exact links

/-- A value of a valid node is met exactly when it holds where it is looked for. -/
theorem meets_iff_holds {c : Comparator} {path : List String} (shaped : Shaped value)
    (given : ∀ actual, found = some actual → Shaped actual) :
    c.Meets value (check c value) found path ↔ Holds (fun target => c.inScope (linkJson target) = true) value found := by
  obtain plain | ⟨targets, refers⟩ := shaped
  · cases plain with
    | scalar scalar => rw [Comparator.meets_scalar scalar, holds_scalar scalar]
    | @list items scalars =>
      by_cases empty : items = []
      · subst empty
        rw [Comparator.meets_empty, holds_empty]
      · rw [Comparator.meets_scalars scalars empty, holds_scalars empty scalars]
  · cases refers with
    | link => rw [Comparator.meets_link given, holds_link]
    | list =>
      by_cases empty : targets = []
      · subst empty
        exact Comparator.meets_empty.trans holds_empty.symm
      · rw [Comparator.meets_links empty given, holds_links empty]

end Holds

namespace Comparator

variable {c : Comparator} {expected actual : Json}

/-- A node passes against the actual node of its id. -/
private theorem check_node_pass (indexes : Indexes c.nodes expected) (distinct : expected.Distinct)
    {found : OrderedMap Json} (actualIndexes : Indexes found actual) {id : String} {node other : List (String × Json)}
    (inside : expected.HasNode id node) (stored : actual.HasNode id other) {path : List String} :
    Finding.Pass (check c (.object node) (.object other) path) ↔
      ∀ key value, (key, value) ∈ node → Holds (c.scope.Covers expected) value (Entries.get? key other) := by
  have own : check c (.object node) (.object other) path = c.checkMembers (memberChecks c node) other path := rfl
  have covers : (fun target => c.inScope (linkJson target) = true) = c.scope.Covers expected :=
    funext fun target => propext (inScope_link indexes target)
  rw [own, checkMembers_pass, memberChecks_eq, List.forall_mem_map, ← covers]
  constructor
  · intro each key value member
    have shaped := indexes.shaped id node inside key value ((Entries.get?_eq_some_iff (inside.distinct distinct)).2 member)
    exact (meets_iff_holds shaped (actualIndexes.shaped id other stored key)).1 (each _ member)
  · rintro each ⟨key, value⟩ member
    have shaped := indexes.shaped id node inside key value ((Entries.get?_eq_some_iff (inside.distinct distinct)).2 member)
    exact (meets_iff_holds shaped (actualIndexes.shaped id other stored key)).2 (each key value member)

private theorem findings_pass (indexes : Indexes c.nodes expected) (distinct : expected.Distinct)
    {found : OrderedMap Json} (actualIndexes : Indexes found actual) : Finding.Pass (c.findings found) ↔
      ∀ id node, expected.HasNode id node → id ∉ c.skipped → c.classify (.object node) ∈ c.parts →
        c.scope.Finds expected actual id node := by
  rw [findings_pass_iff]
  constructor
  · intro each id node inside kept part
    obtain ⟨value, stored, pass⟩ := each id _ ((indexes.found id _).2 ⟨node, rfl, inside⟩) kept
      ((inScope_node indexes inside).2 part)
    obtain ⟨other, rfl, known⟩ := (actualIndexes.found id value).1 stored
    exact ⟨other, known, (check_node_pass indexes distinct actualIndexes inside known).1 pass⟩
  · intro each id value stored kept scope
    obtain ⟨node, rfl, inside⟩ := (indexes.found id value).1 stored
    obtain ⟨other, known, holds⟩ := each id node inside kept ((inScope_node indexes inside).1 scope)
    exact ⟨_, (actualIndexes.found id _).2 ⟨other, rfl, known⟩,
      (check_node_pass indexes distinct actualIndexes inside known).2 holds⟩

theorem compare_eq_ok : c.compare actual = .ok () ↔ (contextOf actual).agrees c.context = true ∧
    ∃ found, index actual = .ok found ∧ Finding.Pass (c.findings found) := by
  unfold compare
  by_cases agree : (contextOf actual).agrees c.context = true
  · simp [agree, Outcome.bind_eq_ok, Finding.outcome_eq_ok]
  · simp [agree, Outcome.bind_eq_ok, throw, throwThe, MonadExceptOf.throw]

private theorem context_agrees {first second : Schema.Table} (valid : validate first expected = .ok ())
    (actualValid : validate second actual = .ok ()) : (contextOf actual).agrees (contextOf expected) = true ↔
      expected.get? "@context" = actual.get? "@context" := by
  obtain ⟨⟨text, written⟩, _⟩ := Schema.validate_iff.1 valid
  obtain ⟨⟨other, found⟩, _⟩ := Schema.validate_iff.1 actualValid
  rw [contextOf, contextOf, written, found, Option.getD_some, Option.getD_some, string_agrees, Option.some.injEq]

/-- On valid documents a comparison succeeds exactly when the actual document holds
what the scope asks for of the expected one. -/
theorem comparison_decides_scoped_containment (first second : Schema.Table) (scope : Scope) (expected actual : Json)
    (distinct : expected.Distinct) (valid : validate first expected = .ok ())
    (actualValid : validate second actual = .ok ()) :
    ∃ comparator, Comparator.create expected scope.parts scope.references = .ok comparator ∧
      ({ comparator with classify := scope.classify, skipped := scope.skipped }.compare actual = .ok () ↔
        scope.Contains expected actual) := by
  obtain ⟨nodes, read, indexes⟩ := index_valid valid
  obtain ⟨found, actualRead, actualIndexes⟩ := index_valid actualValid
  refine ⟨{ context := contextOf expected, nodes, parts := scope.parts, references := scope.references }, ?_, ?_⟩
  · rw [create, read]
    rfl
  · rw [compare_eq_ok, context_agrees valid actualValid]
    constructor
    · rintro ⟨context, again, same, pass⟩
      cases actualRead.symm.trans same
      exact ⟨context, (findings_pass indexes distinct actualIndexes).1 pass⟩
    · rintro ⟨context, each⟩
      exact ⟨context, found, actualRead, (findings_pass indexes distinct actualIndexes).2 each⟩

def runTable : Schema.Table :=
  .ofList [("Thing", { allowed := ["mentions", "position"], references := ["mentions"] }), ("Dataset", {}),
    ("HowToStep", {}), ("CreateAction", {})]

/-- A crate with a step and a run of it, and a crate with the step only. -/
def crateWithRun : Json :=
  .object [("@context", .string "here"), ("@graph", .array
    [.object [("@id", .string "crate"), ("@type", .string "Dataset"), ("mentions", .array [linkJson "step", linkJson "run"])],
      .object [("@id", .string "step"), ("@type", .string "HowToStep"), ("position", .string "0")],
      .object [("@id", .string "run"), ("@type", .string "CreateAction")]])]

def crateWithStep : Json :=
  .object [("@context", .string "here"), ("@graph", .array
    [.object [("@id", .string "step"), ("@type", .string "HowToStep"), ("position", .string "0")],
      .object [("@id", .string "crate"), ("@type", .string "Dataset"), ("mentions", linkJson "step")]])]

def planScope : Scope where
  parts := [.prospective, .orchestration]
  references := []
  classify := Category.ofNode
  skipped := []

theorem crate_with_step_is_contained : crateWithRun.Distinct ∧ validate runTable crateWithRun = .ok () ∧
    validate runTable crateWithStep = .ok () ∧ planScope.Contains crateWithRun crateWithStep := by
  have distinct : crateWithRun.Distinct := by
    simp [crateWithRun, linkJson, Json.Distinct, Json.ItemsDistinct, Json.MembersDistinct]
  have valid : validate runTable crateWithRun = .ok () := rfl
  have validStep : validate runTable crateWithStep = .ok () := rfl
  obtain ⟨comparator, created, decides⟩ :=
    comparison_decides_scoped_containment runTable runTable planScope crateWithRun crateWithStep distinct valid validStep
  have passes : ((create crateWithRun planScope.parts planScope.references).bind fun comparator =>
      { comparator with classify := planScope.classify, skipped := planScope.skipped }.compare
        crateWithStep).toOption.isSome = true := by decide +kernel
  rw [created] at passes
  obtain ⟨_, done⟩ := Outcome.ok_of_isSome passes
  exact ⟨distinct, valid, validStep, decides.1 done⟩

end Comparator

end Provenance
