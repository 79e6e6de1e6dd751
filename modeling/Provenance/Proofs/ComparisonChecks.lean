import Provenance.Comparison.Comparator
import Provenance.Proofs.SchemaAcceptance

/-! What the checks of a comparison decide about one value. Only the shapes that a
valid document has are looked at: scalars, lists of scalars, links and lists of links. -/

namespace Provenance

open Provenance.Graph (linkJson)
open Schema (Plain Refers Scalar Shaped)

namespace Finding

/-- Nothing that was found is a failure. -/
def Pass (findings : List Finding) : Prop := ∀ finding ∈ findings, finding.failure? = none

variable {findings : List Finding} {path : List String}

theorem outcome_eq_ok : outcome findings = .ok () ↔ Pass findings := by
  rw [Pass, ← List.findSome?_eq_none_iff, outcome]
  cases findings.findSome? failure? <;> simp

@[simp] theorem pass_nil : Pass [] := fun _ member => by cases member

@[simp] theorem not_pass_mismatch {difference : Mismatch} : ¬ Pass (mismatch path difference) :=
  fun pass => by cases pass _ List.mem_cons_self

@[simp] theorem pass_linked {count : Nat} : Pass (.linked count path :: findings) ↔ Pass findings :=
  ⟨fun pass finding member => pass finding (List.mem_cons_of_mem _ member), List.forall_mem_cons.2 ∘ And.intro rfl⟩

private theorem pass_flatMap {α : Type} {items : List α} {findings : α → List Finding} :
    Pass (items.flatMap findings) ↔ ∀ item ∈ items, Pass (findings item) := by
  simp only [Pass, List.mem_flatMap]
  exact ⟨fun pass item member finding found => pass finding ⟨item, member, found⟩,
    fun pass finding ⟨item, member, found⟩ => pass item member finding found⟩

end Finding

namespace Comparator

open Finding (Pass)

variable {c : Comparator} {path : List String} {value actual : Json} {members found : List (String × Json)}
  {targets others : List String} {target : String}

theorem memberChecks_eq : memberChecks c members = members.map fun entry => (entry.1, entry.2, check c entry.2) := by
  induction members with
  | nil => rfl
  | cons entry rest ih => rw [memberChecks, ih, List.map_cons]

theorem itemChecks_eq {items : List Json} : itemChecks c items = items.map fun item => (item, check c item) := by
  induction items with
  | nil => rfl
  | cons item rest ih => rw [itemChecks, ih, List.map_cons]

/-- A value is met by what is found in its place, or need not be met. -/
def Meets (c : Comparator) (value : Json) (check : Check) (found : Option Json) (path : List String) : Prop :=
  c.inScope value = true →
    match found with
    | some actual => Pass (check actual path)
    | none => c.mayBeMissing value = true

theorem checkMembers_pass {expected : List (String × Json × Check)} : Pass (c.checkMembers expected found path) ↔
    ∀ entry ∈ expected, c.Meets entry.2.1 entry.2.2 (Entries.get? entry.1 found) (path ++ [entry.1]) := by
  rw [checkMembers, Finding.pass_flatMap]
  refine forall₂_congr fun ⟨key, value, check⟩ _ => ?_
  unfold Meets
  dsimp only
  cases c.inScope value with
  | false => simp
  | true =>
    cases Entries.get? key found with
    | some actual => simp
    | none => cases c.mayBeMissing value <;> simp

theorem checkEqual_pass : Pass (checkEqual value actual path) ↔ value.agrees actual = true := by
  rw [checkEqual]
  split
  next agree => simp [agree]
  next differ => simp [differ]

theorem check_scalar (scalar : Scalar value) : check c value actual path = checkEqual value actual path := by
  cases scalar <;> rfl

private theorem check_scalars {items : List Json} (scalars : ∀ item ∈ items, Scalar item) :
    check c (.array items) actual path = checkEqual (.array items) actual path := by
  have plain : isObjectList (.array items) = false := by
    cases items with
    | nil => rfl
    | cons first rest =>
      have scalar := scalars first List.mem_cons_self
      cases scalar <;> rfl
  simp only [check, plain, Bool.false_eq_true, if_false]

private theorem inScope_scalar (scalar : Scalar value) : c.inScope value = true := by
  cases scalar <;> rfl

theorem meets_scalar (scalar : Scalar value) {found : Option Json} :
    c.Meets value (check c value) found path ↔ ∃ actual, found = some actual ∧ value.agrees actual = true := by
  have required : c.mayBeMissing value = false := by cases scalar <;> rfl
  unfold Meets
  cases found with
  | none => simp [inScope_scalar scalar, required]
  | some actual => simp [inScope_scalar scalar, check_scalar scalar, checkEqual_pass]

theorem meets_scalars {items : List Json} (scalars : ∀ item ∈ items, Scalar item) (nonempty : items ≠ [])
    {found : Option Json} : c.Meets (.array items) (check c (.array items)) found path ↔
      ∃ actual, found = some actual ∧ (Json.array items).agrees actual = true := by
  have scope : c.inScope (.array items) = true := rfl
  have required : c.mayBeMissing (.array items) = false := by
    obtain ⟨first, rest, rfl⟩ := List.exists_cons_of_ne_nil nonempty
    simp [mayBeMissing, inScope_scalar (scalars first List.mem_cons_self)]
  unfold Meets
  cases found with
  | none => simp [scope, required]
  | some actual => simp [scope, check_scalars scalars, checkEqual_pass]

private theorem empty_agrees : (Json.array []).agrees actual = true ↔ actual = .array [] := by
  cases actual with
  | array items => cases items <;> simp [Json.agrees, Json.itemsAgree]
  | null | bool _ | number _ | string _ | object _ => simp [Json.agrees]

theorem meets_empty {found : Option Json} : c.Meets (.array []) (check c (.array [])) found path ↔
    found = none ∨ found = some (.array []) := by
  have scope : c.inScope (.array []) = true := rfl
  have optional : c.mayBeMissing (.array []) = true := rfl
  have equal : ∀ actual, check c (.array []) actual path = checkEqual (.array []) actual path :=
    fun _ => check_scalars (List.forall_mem_nil _)
  unfold Meets
  cases found with
  | none => simp [optional]
  | some actual => simp [scope, equal, checkEqual_pass, empty_agrees]

theorem string_agrees {text : String} : (Json.string text).agrees actual = true ↔ actual = .string text := by
  cases actual with
  | string other => simp [Json.agrees, eq_comm (a := text)]
  | null | bool _ | number _ | array _ | object _ => simp [Json.agrees]

theorem check_object_link {found : List (String × Json)} :
    Pass (check c (linkJson target) (.object found) path) ↔ Entries.get? "@id" found = some (.string target) := by
  have own : check c (linkJson target) (.object found) path =
      c.checkMembers (memberChecks c [("@id", .string target)]) found path := rfl
  rw [own, checkMembers_pass, memberChecks_eq, List.map_singleton, List.forall_mem_singleton,
    meets_scalar (.string target)]
  simp [string_agrees]

/-- A link is met by the same link. -/
theorem check_link_pass (shaped : Shaped actual) :
    Pass (check c (linkJson target) actual path) ↔ actual = linkJson target := by
  cases actual with
  | object found =>
    rw [check_object_link]
    obtain plain | ⟨others, refers⟩ := shaped
    · cases plain with
      | scalar scalar => cases scalar
    · cases refers with
      | link id => simp [Entries.get?, linkJson]
  | null | bool _ | number _ | string _ | array _ => simp [linkJson, check]

theorem meets_link {found : Option Json}
    (shaped : ∀ actual, found = some actual → Shaped actual) :
    c.Meets (linkJson target) (check c (linkJson target)) found path ↔
      (c.inScope (linkJson target) = true → found = some (linkJson target)) := by
  have required : c.mayBeMissing (linkJson target) = false := rfl
  unfold Meets
  cases found with
  | none => simp [required]
  | some actual => simp [check_link_pass (shaped actual rfl)]

private theorem byId_map {α β : Type} {json : β → Json} {item : α → β} {id : α → String} {items : List α}
    (named : ∀ a ∈ items, (json (item a)).textAt? "@id" = some (id a)) :
    byId json (items.map item) = .ok (items.map fun a => (id a, item a)) := by
  induction items with
  | nil => rfl
  | cons first rest ih =>
    obtain ⟨head, others⟩ := List.forall_mem_cons.1 named
    have later := ih others
    unfold byId at later ⊢
    rw [List.map_cons, List.mapM_cons, later]
    simp only [head]
    rfl

private theorem link_named (id : String) : (linkJson id).textAt? "@id" = some id := rfl

/-- A value without links has no items with ids, unless it has no items. -/
private theorem byId_plain (plain : Plain actual) (some : actual ≠ .array []) :
    ∃ item, byId id (actualItems actual) = .error item := by
  have unnamed : ∀ {item : Json}, Scalar item → item.textAt? "@id" = none := by
    intro item scalar
    cases scalar <;> rfl
  cases plain with
  | scalar scalar =>
    have alone : actualItems actual = [actual] := by cases scalar <;> rfl
    refine ⟨actual, ?_⟩
    rw [alone, byId, List.mapM_cons]
    simp only [id, unnamed scalar]
    rfl
  | @list items scalars =>
    obtain ⟨first, rest, rfl⟩ := List.exists_cons_of_ne_nil fun none => some (congrArg Json.array none)
    refine ⟨first, ?_⟩
    rw [actualItems, byId, List.mapM_cons]
    simp only [id, unnamed (scalars first List.mem_cons_self)]
    rfl

private theorem byId_refers (refers : Refers actual others) :
    byId id (actualItems actual) = .ok (others.map fun target => (target, linkJson target)) := by
  have listed : actualItems actual = others.map linkJson := by cases refers <;> rfl
  rw [listed]
  exact byId_map fun target _ => link_named target

def linksInScope (c : Comparator) (targets : List String) : List String :=
  targets.filter fun target => c.inScope (linkJson target)

private theorem byId_expected :
    byId Prod.fst ((itemChecks c (targets.map linkJson)).filter fun item => c.inScope item.1) =
    .ok ((c.linksInScope targets).map fun target => (target, linkJson target, check c (linkJson target))) := by
  have inside : (itemChecks c (targets.map linkJson)).filter (fun item => c.inScope item.1) =
      (c.linksInScope targets).map fun target => (linkJson target, check c (linkJson target)) := by
    rw [itemChecks_eq, List.map_map, List.filter_map]
    rfl
  rw [inside]
  exact byId_map fun target _ => link_named target

private theorem collected_links :
    Entries.get? target (Entries.collect (others.map fun target => (target, linkJson target))) =
    if target ∈ others then some (linkJson target) else none := by
  have keys : target ∈ (Entries.collect (others.map fun target => (target, linkJson target))).map Prod.fst ↔
      target ∈ others := by
    rw [Entries.mem_keys_collect]
    simp
  split
  next listed =>
    obtain ⟨value, found⟩ := Option.isSome_iff_exists.1 (Entries.isSome_get?_iff.2 (keys.2 listed))
    obtain ⟨other, _, same⟩ := List.mem_map.1 (Entries.mem_of_mem_collect (Entries.mem_of_get? found))
    cases same
    exact found
  next unlisted => exact Entries.get?_eq_none_iff.2 fun known => unlisted (keys.1 known)

/-- Links are met by links to the same targets, and maybe to others. -/
private theorem checkMembers_links : Pass (c.checkMembers
      (Entries.collect ((c.linksInScope targets).map fun target => (target, linkJson target, check c (linkJson target))))
      (Entries.collect (others.map fun target => (target, linkJson target))) path) ↔
    ∀ target ∈ targets, c.inScope (linkJson target) = true → target ∈ others := by
  have meets : ∀ target, c.Meets (linkJson target) (check c (linkJson target))
      (Entries.get? target (Entries.collect (others.map fun target => (target, linkJson target)))) (path ++ [target]) ↔
      (c.inScope (linkJson target) = true → target ∈ others) := by
    intro target
    rw [meets_link, collected_links]
    · simp
    · intro actual found
      rw [collected_links] at found
      split at found
      · cases found
        exact Or.inr ⟨_, .link target⟩
      · cases found
  rw [checkMembers_pass]
  constructor
  · intro each target member scope
    have listed : target ∈ c.linksInScope targets := List.mem_filter.2 ⟨member, scope⟩
    have key : target ∈ (Entries.collect ((c.linksInScope targets).map fun target =>
        (target, linkJson target, check c (linkJson target)))).map Prod.fst :=
      Entries.mem_keys_collect.2 (List.mem_map.2 ⟨_, List.mem_map_of_mem listed, rfl⟩)
    obtain ⟨entry, inside, rfl⟩ := List.mem_map.1 key
    obtain ⟨other, _, same⟩ := List.mem_map.1 (Entries.mem_of_mem_collect inside)
    cases same
    exact (meets other).1 (each _ inside) scope
  · intro each entry inside
    obtain ⟨target, listed, rfl⟩ := List.mem_map.1 (Entries.mem_of_mem_collect inside)
    exact (meets target).2 (each target (List.mem_filter.1 listed).1)

private theorem check_links_pass (nonempty : targets ≠ []) (shaped : Shaped actual) :
    Pass (check c (.array (targets.map linkJson)) actual path) ↔
      ∃ others, Refers actual others ∧ ∀ target ∈ targets, c.inScope (linkJson target) = true → target ∈ others := by
  have own : check c (.array (targets.map linkJson)) actual path =
      c.checkItems (itemChecks c (targets.map linkJson)) actual path := by
    obtain ⟨first, rest, rfl⟩ := List.exists_cons_of_ne_nil nonempty
    rfl
  rw [own, checkItems, byId_expected]
  by_cases links : ∃ others, Refers actual others
  · obtain ⟨others, refers⟩ := links
    rw [byId_refers refers]
    dsimp only
    rw [Finding.pass_linked, checkMembers_links]
    refine ⟨fun each => ⟨others, refers, each⟩, fun ⟨again, same, each⟩ => ?_⟩
    have equal := Schema.targets?_eq_some.2 refers
    rw [Schema.targets?_eq_some.2 same] at equal
    cases equal
    exact each
  · have plain := shaped.resolve_right links
    have some : actual ≠ .array [] := by
      rintro rfl
      exact links ⟨[], .list []⟩
    obtain ⟨item, failed⟩ := byId_plain plain some
    rw [failed]
    simp only [Finding.not_pass_mismatch, false_iff]
    exact fun ⟨others, refers, _⟩ => links ⟨others, refers⟩

theorem meets_links (nonempty : targets ≠ []) {found : Option Json}
    (shaped : ∀ actual, found = some actual → Shaped actual) :
    c.Meets (.array (targets.map linkJson)) (check c (.array (targets.map linkJson))) found path ↔
      (found = none ∧ ∀ target ∈ targets, ¬ c.inScope (linkJson target) = true) ∨
      ∃ actual others, found = some actual ∧ Refers actual others ∧
        ∀ target ∈ targets, c.inScope (linkJson target) = true → target ∈ others := by
  have scope : c.inScope (.array (targets.map linkJson)) = true := rfl
  unfold Meets
  cases found with
  | none => simp [scope, mayBeMissing]
  | some actual => simp [scope, check_links_pass nonempty (shaped actual rfl)]

/-- Every node that is asked for has to be found under its id, and to pass there. -/
theorem findings_pass_iff {found : OrderedMap Json} : Pass (c.findings found) ↔
    ∀ id node, c.nodes.get? id = some node → id ∉ c.skipped → c.inScope node = true →
      ∃ other, found.get? id = some other ∧ Pass (check c node other ["@graph", id]) := by
  rw [findings, Finding.pass_flatMap]
  constructor
  · intro each id node stored kept scope
    have asked : (id, node) ∈ c.comparedNodes :=
      List.mem_filter.2 ⟨OrderedMap.get?_eq_some_iff.1 stored, by simp [kept, scope]⟩
    have pass := each _ asked
    dsimp only at pass
    cases known : found.get? id with
    | none => simp [known] at pass
    | some other =>
      rw [known] at pass
      exact ⟨other, rfl, pass⟩
  · rintro each ⟨id, node⟩ member
    obtain ⟨stored, asked⟩ := List.mem_filter.1 member
    simp only [Bool.and_eq_true, Bool.not_eq_true', List.contains_eq_mem, decide_eq_false_iff_not] at asked
    obtain ⟨other, known, pass⟩ := each id node (OrderedMap.get?_eq_some_iff.2 stored) asked.1 asked.2
    simp only [known]
    exact pass

end Comparator

end Provenance
