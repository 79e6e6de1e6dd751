import Provenance.Proofs.ComparedItems

/-! What is out of scope never matters to a comparison. Of an actual document only the nodes
count that are asked for, and of an expected node out of scope only its category. -/

namespace Provenance

open Provenance.Graph (linkJson)

namespace Entries

variable {α β : Type} {related : α → β → Prop} {first : List (String × α)} {second : List (String × β)}

/-- Entries with the same keys in the same order and with related values. -/
abbrev Related (related : α → β → Prop) (first : List (String × α)) (second : List (String × β)) : Prop :=
  List.Forall₂ (fun a b => a.1 = b.1 ∧ related a.2 b.2) first second

private theorem Related.insert (all : Related related first second) (key : String) {a : α} {b : β} (own : related a b) :
    Related related (insert key a first) (insert key b second) := by
  induction all with
  | nil => exact .cons ⟨rfl, own⟩ .nil
  | @cons entry other rest others head tail ih =>
    obtain ⟨k, v⟩ := entry
    obtain ⟨_, w⟩ := other
    obtain ⟨rfl, values⟩ := head
    unfold Entries.insert
    split
    · exact .cons ⟨rfl, own⟩ tail
    · exact .cons ⟨rfl, values⟩ ih

private theorem Related.collect (all : Related related first second) :
    Related related (collect first) (collect second) := by
  have grow : ∀ earlier others, Related related earlier others →
      Related related (first.foldl (fun entries pair => Entries.insert pair.1 pair.2 entries) earlier)
        (second.foldl (fun entries pair => Entries.insert pair.1 pair.2 entries) others) := by
    induction all with
    | nil => exact fun _ _ written => written
    | @cons pair other _ _ head _ ih =>
      intro earlier others written
      rw [List.foldl_cons, List.foldl_cons, ← head.1]
      exact ih _ _ (written.insert pair.1 head.2)
  exact grow [] [] .nil

private theorem Related.map_get? {γ : Type} {f : α → γ} {g : β → γ} (all : Related related first second)
    (each : ∀ a b, related a b → f a = g b) (key : String) : (get? key first).map f = (get? key second).map g := by
  induction all with
  | nil => rfl
  | @cons entry other _ _ head _ ih =>
    obtain ⟨k, v⟩ := entry
    obtain ⟨_, w⟩ := other
    obtain ⟨rfl, values⟩ := head
    unfold Entries.get?
    split
    · exact congrArg some (each v w values)
    · exact ih

end Entries

namespace Comparator

variable {c other : Comparator} {value first second : Json}

/-- Actual documents in which a comparator looks at the same content. -/
structure Alike (c : Comparator) (first second : Json) : Prop where
  firstIdentified : first.Identified
  secondIdentified : second.Identified
  context : contextOf first = contextOf second
  nodes : ∀ id node, c.nodes.get? id = some node → id ∉ c.skipped → c.inScope node = true →
    first.node? id = second.node? id

private theorem Alike.compare (alike : c.Alike first second) : c.compare first = c.compare second := by
  obtain ⟨found, read⟩ := index_succeeds alike.firstIdentified
  obtain ⟨others, readOther⟩ := index_succeeds alike.secondIdentified
  have same : c.findings found = c.findings others := by
    refine List.flatMap_congr fun ⟨id, node⟩ member => ?_
    obtain ⟨stored, asked⟩ := List.mem_filter.1 member
    simp only [Bool.and_eq_true, Bool.not_eq_true', List.contains_eq_mem, decide_eq_false_iff_not] at asked
    have nodes := alike.nodes id node (OrderedMap.get?_eq_some_iff.2 stored) asked.1 asked.2
    rw [← index_get? read, ← index_get? readOther] at nodes
    simp only [nodes]
  unfold Comparator.compare
  simp only [alike.context, read, readOther, bind, Except.bind, same]

/-- Scope looks at the categories of expected nodes, and at nothing else of them. -/
private theorem inScope_congr (parts : c.parts = other.parts) (references : c.references = other.references)
    (categories : ∀ id, (c.nodes.get? id).map c.classify = (other.nodes.get? id).map other.classify) :
    c.inScope = other.inScope := by
  have category : ∀ (c : Comparator) value, c.inScope value = true ↔ ∀ id category, value.textAt? "@id" = some id →
      (c.nodes.get? id).map c.classify = some category →
        category ∈ c.parts ∨ isBare value = true ∧ category ∈ c.references := by
    intro c value
    rw [inScope_iff]
    constructor
    · intro each id _ named stored
      obtain ⟨node, known, rfl⟩ := Option.map_eq_some_iff.1 stored
      exact each id node named known
    · exact fun each id node named stored => each id _ named (Option.map_eq_some_iff.2 ⟨node, stored, rfl⟩)
  funext value
  rw [Bool.eq_iff_iff, category c, category other, parts, references]
  simp only [categories]

private theorem checkMembers_congr (same : c.inScope = other.inScope) : c.checkMembers = other.checkMembers := by
  have missing : c.mayBeMissing = other.mayBeMissing := by
    funext value
    cases value <;> simp [mayBeMissing, same]
  funext expected actual path
  simp only [checkMembers, same, missing]

/-- A check looks at a comparator through what it has in scope. -/
private theorem check_congr (same : c.inScope = other.inScope) (value : Json) : check c value = check other value := by
  have members := checkMembers_congr same
  induction value using Json.induction with
  | scalar value scalar => cases scalar <;> rfl
  | array items ih =>
    have checks : itemChecks c items = itemChecks other items := by
      rw [itemChecks_eq, itemChecks_eq]
      exact List.map_congr_left fun item member => by rw [ih item member]
    funext actual path
    simp only [check, checks, checkItems, same, members]
  | object entries ih =>
    have checks : memberChecks c entries = memberChecks other entries := by
      rw [memberChecks_eq, memberChecks_eq]
      exact List.map_congr_left fun entry member => by rw [ih entry member]
    funext actual path
    simp only [check, checks, members]

/-- Two nodes of which a comparison does not tell one from the other: the same node, or
nodes of one category that are out of scope. -/
def Interchangeable (c other : Comparator) (a b : Json) : Prop :=
  a = b ∨ c.inScope a = false ∧ other.inScope b = false ∧ c.classify a = other.classify b

private theorem comparedNodes_congr (skipped : c.skipped = other.skipped) (same : c.inScope = other.inScope)
    {first second : List (String × Json)} (all : Entries.Related (c.Interchangeable other) first second) :
    (first.filter fun (id, node) => !c.skipped.contains id && c.inScope node) =
      second.filter fun (id, node) => !other.skipped.contains id && other.inScope node := by
  induction all with
  | nil => rfl
  | @cons entry partner rest others head tail ih =>
    obtain ⟨id, node⟩ := entry
    obtain ⟨_, third⟩ := partner
    obtain ⟨rfl, either⟩ := head
    rw [List.filter_cons, List.filter_cons, ih]
    rcases either with rfl | ⟨hidden, alsoHidden, _⟩
    · simp only [skipped, same]
    · simp [hidden, alsoHidden]

private theorem compare_congr (c other : Comparator) (context : c.context = other.context)
    (parts : c.parts = other.parts)
    (references : c.references = other.references) (classify : c.classify = other.classify)
    (skipped : c.skipped = other.skipped)
    (nodes : Entries.Related (c.Interchangeable other) c.nodes.entries other.nodes.entries) (actual : Json) :
    c.compare actual = other.compare actual := by
  have category : ∀ a b, c.Interchangeable other a b → c.classify a = other.classify b := by
    rintro a b (rfl | ⟨_, _, same⟩)
    · rw [classify]
    · exact same
  have scope := inScope_congr parts references (nodes.map_get? category)
  have compared : c.comparedNodes = other.comparedNodes := comparedNodes_congr skipped scope nodes
  have findings : c.findings = other.findings := by
    funext found
    simp only [Comparator.findings, compared, check_congr scope]
  simp only [Comparator.compare, context, findings]

end Comparator

/-- A document with one node in the place of another, both of one id. -/
structure Json.Replaces (replaced expected node other : Json) : Prop where
  context : replaced.get? "@context" = expected.get? "@context"
  graph : ∃ before after, expected.get? "@graph" = some (.array (before ++ node :: after)) ∧
    replaced.get? "@graph" = some (.array (before ++ other :: after))
  id : ∃ id, node.textAt? "@id" = some id ∧ other.textAt? "@id" = some id

/-- Items with the keys of others are kept under these keys. -/
private theorem Keyed.exists_related {α : Type} {key : α → Option String} {related : α → α → Prop}
    {items others : List α} {pairs : List (String × α)} (keyed : Keyed key items pairs)
    (all : List.Forall₂ (fun a b => key a = key b ∧ related a b) items others) :
    ∃ partners, Keyed key others partners ∧ Entries.Related related pairs partners := by
  obtain ⟨rfl, keys⟩ := keyed
  induction pairs generalizing others with
  | nil =>
    cases all
    exact ⟨[], .nil, .nil⟩
  | cons pair rest ih =>
    obtain ⟨own, tail⟩ := List.forall_mem_cons.1 keys
    cases all with
    | cons head behind =>
      obtain ⟨partners, keyed, related⟩ := ih tail behind
      exact ⟨_, keyed.cons (head.1.symm.trans own), .cons ⟨rfl, head.2⟩ related⟩

private theorem Json.Replaces.indexes {replaced expected node other : Json}
    (replaces : replaced.Replaces expected node other)
    {nodes : OrderedMap Json} (read : Comparator.index expected = .ok nodes) :
    ∃ others, Comparator.index replaced = .ok others ∧
      Entries.Related (fun a b => a = b ∨ a = node ∧ b = other) nodes.entries others.entries := by
  obtain ⟨before, after, graph, otherGraph⟩ := replaces.graph
  obtain ⟨id, named, otherNamed⟩ := replaces.id
  obtain ⟨items, pairs, stored, keyed, rfl⟩ := Comparator.index_eq_ok.1 read
  cases graph.symm.trans stored
  have kept : ∀ items : List Json, List.Forall₂ (fun a b => a.textAt? "@id" = b.textAt? "@id" ∧
      (a = b ∨ a = node ∧ b = other)) items items := fun items => List.forall₂_same.2 fun _ _ => ⟨rfl, Or.inl rfl⟩
  have all := List.rel_append (kept before)
    (.cons ⟨named.trans otherNamed.symm, Or.inr ⟨rfl, rfl⟩⟩ (kept after))
  obtain ⟨partners, otherKeyed, related⟩ := keyed.exists_related all
  exact ⟨_, Comparator.index_eq_ok.2 ⟨_, partners, otherGraph, otherKeyed, rfl⟩, related.collect⟩

/-- Content out of scope never influences a comparison. Actual documents in which the asked
nodes are the same come to the same outcome. So do expected documents of which one has
another node out of scope in the place of one, with its id and its category. -/
theorem out_of_scope_content_is_ignored :
    (∀ (c : Comparator) (first second : Json), c.Alike first second → c.compare first = c.compare second) ∧
    (∀ (scope : Scope) (expected replaced node other : Json) (c : Comparator), scope.comparator expected = .ok c →
      replaced.Replaces expected node other → scope.classify node = scope.classify other → c.inScope node = false →
      ∃ d, scope.comparator replaced = .ok d ∧
        (d.inScope other = false → ∀ actual, c.compare actual = d.compare actual)) := by
  refine ⟨fun c first second alike => alike.compare, ?_⟩
  intro scope expected replaced node other c created replaces category hidden
  obtain ⟨nodes, read, rfl⟩ := Scope.comparator_eq_ok.1 created
  obtain ⟨others, readOther, related⟩ := replaces.indexes read
  have replacing : scope.comparator replaced = .ok (scope.indexed (Comparator.contextOf replaced) others) :=
    Scope.comparator_eq_ok.2 ⟨others, readOther, rfl⟩
  refine ⟨_, replacing, fun alsoHidden actual => ?_⟩
  have context : Comparator.contextOf expected = Comparator.contextOf replaced := by
    simp only [Comparator.contextOf, replaces.context]
  have interchangeable : Entries.Related (Comparator.Interchangeable
      (scope.indexed (Comparator.contextOf expected) nodes) (scope.indexed (Comparator.contextOf replaced) others))
      nodes.entries others.entries := by
    refine related.imp ?_
    rintro a b ⟨keys, either⟩
    refine ⟨keys, either.imp_right ?_⟩
    rintro ⟨rfl, rfl⟩
    exact ⟨hidden, alsoHidden, category⟩
  exact Comparator.compare_congr (scope.indexed _ nodes) (scope.indexed _ others) context rfl rfl rfl rfl interchangeable actual

def runNamed (name : String) : Json :=
  .object [("@id", .string "run"), ("@type", .string "CreateAction"), ("name", .string name)]

def mentioningCrate : Json :=
  .object [("@id", .string "crate"), ("@type", .string "Dataset"), ("mentions", linkJson "run")]

/-- A crate that mentions a run of a name. -/
def crateMentioning (name : String) : Json :=
  .object [("@context", .string "here"), ("@graph", .array [mentioningCrate, runNamed name])]

/-- Where runs are out of scope a comparison does not look at the names of runs. -/
theorem renamed_runs_are_ignored : ∃ c d, Comparator.planScope.comparator (crateMentioning "early") = .ok c ∧
    Comparator.planScope.comparator (crateMentioning "late") = .ok d ∧
    c.Alike (crateMentioning "early") (crateMentioning "late") ∧
    c.compare (crateMentioning "early") = c.compare (crateMentioning "late") ∧
    ∀ actual, c.compare actual = d.compare actual := by
  have identified : ∀ name, (crateMentioning name).Identified := fun name =>
    ⟨_, rfl, by simp [mentioningCrate, runNamed, Json.textAt?, Json.get?, Entries.get?, Json.text?]⟩
  let c := Comparator.planScope.indexed (.string "here") (.ofList [("crate", mentioningCrate), ("run", runNamed "early")])
  have created : Comparator.planScope.comparator (crateMentioning "early") = .ok c := rfl
  have hidden : c.inScope (runNamed "early") = false := by decide +kernel
  have alike : c.Alike (crateMentioning "early") (crateMentioning "late") := by
    refine ⟨identified _, identified _, rfl, fun id node stored _ scope => ?_⟩
    have member : (id, node) ∈ [("crate", mentioningCrate), ("run", runNamed "early")] :=
      OrderedMap.get?_eq_some_iff.1 stored
    rcases List.mem_pair.1 member with own | own <;> cases own
    · rfl
    · rw [hidden] at scope
      cases scope
  have replaces : (crateMentioning "late").Replaces (crateMentioning "early") (runNamed "early") (runNamed "late") :=
    ⟨rfl, ⟨[mentioningCrate], [], rfl, rfl⟩, "run", rfl, rfl⟩
  obtain ⟨d, replacing, same⟩ := out_of_scope_content_is_ignored.2 Comparator.planScope (crateMentioning "early")
    (crateMentioning "late") (runNamed "early") (runNamed "late") c created replaces rfl hidden
  have alsoHidden : d.inScope (runNamed "late") = false := by
    cases replacing
    decide +kernel
  exact ⟨c, d, created, replacing, alike, out_of_scope_content_is_ignored.1 c _ _ alike, same alsoHidden⟩

end Provenance
