import Provenance.Proofs.ScopedContainment

/-! Comparison of any values, valid or not. Of the nodes of a document and of the items of
a list the last one counts for an id, and an expected item only if it is in scope. -/

namespace Provenance

open Provenance.Graph (linkJson)
open Schema (Scalar)

namespace Json

/-- The last of some values with an id. -/
def lastNamed (id : String) (values : List Json) : Option Json :=
  (values.filter fun value => value.textAt? "@id" = some id).getLast?

/-- Every node of the graph has an id. -/
def Identified (document : Json) : Prop :=
  ∃ nodes, document.get? "@graph" = some (.array nodes) ∧ ∀ node ∈ nodes, ∃ id, node.textAt? "@id" = some id

/-- The node that counts for an id. -/
def node? (document : Json) (id : String) : Option Json :=
  ((document.get? "@graph").bind items?).bind (lastNamed id)

variable {id : String} {value : Json} {values : List Json}

theorem lastNamed_eq_some (last : lastNamed id values = some value) :
    value ∈ values ∧ value.textAt? "@id" = some id := by
  obtain ⟨member, named⟩ := List.mem_filter.1 (List.mem_of_getLast? last)
  exact ⟨member, by simpa using named⟩

theorem exists_lastNamed (member : value ∈ values) (named : value.textAt? "@id" = some id) :
    ∃ last, lastNamed id values = some last := by
  have inside : value ∈ values.filter fun value => value.textAt? "@id" = some id :=
    List.mem_filter.2 ⟨member, by simpa using named⟩
  exact ⟨_, List.getLast?_eq_some_getLast (List.ne_nil_of_mem inside)⟩

/-- The last value with an id stays the last when others are left out. -/
theorem lastNamed_filter {kept : Json → Bool} (last : lastNamed id values = some value) (keeps : kept value = true) :
    lastNamed id (values.filter kept) = some value := by
  obtain ⟨others, split⟩ := List.getLast?_eq_some_iff.1 last
  rw [lastNamed, List.filter_filter]
  have swapped : (values.filter fun value => (decide (value.textAt? "@id" = some id)) && kept value) =
      (values.filter fun value => value.textAt? "@id" = some id).filter kept := by
    rw [List.filter_filter]
    exact List.filter_congr fun value _ => Bool.and_comm _ _
  rw [swapped, split, List.filter_append, List.filter_singleton, keeps]
  simp

private theorem textAt?_object {name text : String} (named : value.textAt? name = some text) :
    ∃ members, value = .object members := by
  cases value with
  | object members => exact ⟨members, rfl⟩
  | null | bool _ | number _ | string _ | array _ => cases named

end Json

/-- Pairs that hold some items in their order, each with its own key. -/
structure Keyed {α : Type} (key : α → Option String) (items : List α) (pairs : List (String × α)) : Prop where
  items : pairs.map Prod.snd = items
  keys : ∀ pair ∈ pairs, key pair.2 = some pair.1

namespace Keyed

variable {α : Type} {key : α → Option String} {items : List α} {pairs : List (String × α)}

theorem nil : Keyed key [] [] := ⟨rfl, List.forall_mem_nil _⟩

theorem cons {item : α} {name : String} (own : key item = some name) (rest : Keyed key items pairs) :
    Keyed key (item :: items) ((name, item) :: pairs) :=
  ⟨congrArg (item :: ·) rest.items, List.forall_mem_cons.2 ⟨own, rest.keys⟩⟩

theorem keyed (keyed : Keyed key items pairs) : ∀ item ∈ items, ∃ name, key item = some name := by
  obtain ⟨rfl, keys⟩ := keyed
  exact List.forall_mem_map.2 fun pair member => ⟨pair.1, keys pair member⟩

private theorem exists_pairs (named : ∀ item ∈ items, ∃ name, key item = some name) :
    ∃ pairs, Keyed key items pairs := by
  induction items with
  | nil => exact ⟨[], nil⟩
  | cons item rest ih =>
    obtain ⟨⟨name, own⟩, others⟩ := List.forall_mem_cons.1 named
    obtain ⟨pairs, rest⟩ := ih others
    exact ⟨_, rest.cons own⟩

private theorem mapM_iff {ε : Type} {read : α → Except ε (String × α)}
    (reads : ∀ item pair, read item = .ok pair ↔ key item = some pair.1 ∧ item = pair.2) :
    items.mapM read = .ok pairs ↔ Keyed key items pairs := by
  rw [Outcome.mapM_eq_ok]
  constructor
  · intro each
    induction each with
    | nil => exact nil
    | cons own _ rest =>
      obtain ⟨own, rfl⟩ := (reads _ _).1 own
      exact rest.cons own
  · rintro ⟨rfl, keys⟩
    rw [List.forall₂_map_left_iff, List.forall₂_same]
    exact fun pair member => (reads _ _).2 ⟨keys pair member, rfl⟩

/-- Of several items with one key the last is found under it. -/
theorem get?_collect (keyed : Keyed key items pairs) (name : String) :
    Entries.get? name (Entries.collect pairs) = (items.filter fun item => key item = some name).getLast? := by
  obtain ⟨rfl, keys⟩ := keyed
  have named : ∀ pair ∈ pairs, decide (pair.1 = name) = decide (key pair.2 = some name) := by
    intro pair member
    simp only [keys pair member, Option.some.injEq]
  rw [Entries.get?_collect, List.filter_congr named, List.filter_map, List.getLast?_map]
  rfl

end Keyed

namespace Comparator

open Finding (Pass)
open Json (lastNamed)

variable {c : Comparator} {id : String} {value actual document : Json} {path : List String} {items : List Json}
  {nodes : OrderedMap Json}

private theorem byId_eq_ok {α : Type} {json : α → Json} {items : List α} {pairs : List (String × α)} :
    byId json items = .ok pairs ↔ Keyed (fun item => (json item).textAt? "@id") items pairs := by
  refine Keyed.mapM_iff fun item pair => ?_
  cases (json item).textAt? "@id" <;> simp [Prod.ext_iff]

theorem index_eq_ok : index document = .ok nodes ↔ ∃ items pairs, document.get? "@graph" = some (.array items) ∧
    Keyed (fun node => node.textAt? "@id") items pairs ∧ nodes = .ofList pairs := by
  unfold index
  cases graph : document.get? "@graph" with
  | none => simp [throw, throwThe, MonadExceptOf.throw]
  | some value =>
    cases value with
    | array items =>
      simp only [Option.bind_some, Json.items?, Outcome.bind_eq_ok, Outcome.pure_eq_ok, Option.some.injEq,
        Json.array.injEq, exists_and_left, exists_eq_left']
      apply exists_congr
      intro pairs
      refine and_congr ?_ eq_comm
      apply Keyed.mapM_iff
      intro item pair
      cases item.textAt? "@id" <;> simp [Prod.ext_iff]
    | null | bool _ | number _ | string _ | object _ => simp [Json.items?, throw, throwThe, MonadExceptOf.throw]

theorem index_succeeds (identified : document.Identified) : ∃ nodes, index document = .ok nodes := by
  obtain ⟨items, graph, named⟩ := identified
  obtain ⟨pairs, keyed⟩ := Keyed.exists_pairs named
  exact ⟨_, index_eq_ok.2 ⟨items, pairs, graph, keyed, rfl⟩⟩

theorem index_get? (read : index document = .ok nodes) (id : String) : nodes.get? id = document.node? id := by
  obtain ⟨items, pairs, graph, keyed, rfl⟩ := index_eq_ok.1 read
  rw [Json.node?, graph]
  exact keyed.get?_collect id

theorem inScope_iff : c.inScope value = true ↔ ∀ id node, value.textAt? "@id" = some id → c.nodes.get? id = some node →
    c.classify node ∈ c.parts ∨ isBare value = true ∧ c.classify node ∈ c.references := by
  cases named : value.textAt? "@id" with
  | none =>
    have free : c.inScope value = true := by
      cases value with
      | object members => simp [inScope, nodeId?, named]
      | null | bool _ | number _ | string _ | array _ => rfl
    simp [free]
  | some id =>
    obtain ⟨members, rfl⟩ := Json.textAt?_object named
    rw [inScope_named named]
    constructor
    · intro each _ node same
      cases same
      exact each node
    · exact fun each node => each id node rfl

private theorem bare_eq (bare : isBare value = true) (named : value.textAt? "@id" = some id) : value = linkJson id := by
  obtain ⟨members, rfl⟩ := Json.textAt?_object named
  match members with
  | [] | _ :: _ :: _ => cases bare
  | [(key, only)] =>
    have stored := Json.textAt?_eq_some.1 named
    simp only [Entries.get?, Option.ite_none_right_eq_some, Option.some.injEq] at stored
    obtain ⟨rfl, rfl⟩ := stored
    rfl

/-- Scope looks at an id, and at nothing else of a value that is more than a link. An item
that counts for an id among those in scope is a link, or it counts among all items. -/
theorem link_or_last (last : lastNamed id (items.filter c.inScope) = some value) :
    value = linkJson id ∨ lastNamed id items = some value := by
  obtain ⟨member, named⟩ := Json.lastNamed_eq_some last
  by_cases bare : isBare value = true
  · exact Or.inl (bare_eq bare named)
  · have inside := inScope_iff.1 (List.mem_filter.1 member).2
    have covered : ∀ item : Json, item.textAt? "@id" = some id → c.inScope item = true := by
      intro item same
      refine inScope_iff.2 fun other node own stored => ?_
      cases same.symm.trans own
      exact Or.inl ((inside id node named stored).resolve_right fun both => bare both.1)
    right
    rw [← last, lastNamed, lastNamed, List.filter_filter]
    congr 1
    refine List.filter_congr fun item _ => ?_
    by_cases same : item.textAt? "@id" = some id <;> simp [same, covered]

/-- A value with an id that is in scope has to be found. -/
private theorem meets_named (named : value.textAt? "@id" = some id) (scope : c.inScope value = true) {check : Check}
    {found : Option Json} : c.Meets value check found path ↔ ∃ other, found = some other ∧ Pass (check other path) := by
  obtain ⟨members, rfl⟩ := Json.textAt?_object named
  have required : c.mayBeMissing (.object members) = false := rfl
  unfold Meets
  cases found with
  | none => simp [scope, required]
  | some other => simp [scope]

theorem check_object_pass {members : List (String × Json)} :
    Pass (check c (.object members) actual path) ↔ ∃ found, actual = .object found ∧
      ∀ entry ∈ members, c.Meets entry.2 (check c entry.2) (Entries.get? entry.1 found) (path ++ [entry.1]) := by
  cases actual with
  | object found =>
    have own : check c (.object members) (.object found) path = c.checkMembers (memberChecks c members) found path := rfl
    rw [own, checkMembers_pass, memberChecks_eq, List.forall_mem_map]
    simp
  | null | bool _ | number _ | string _ | array _ => simp [check]

/-- Whatever has the id of a link meets the link. -/
theorem check_link_of_named (named : actual.textAt? "@id" = some id) : Pass (check c (linkJson id) actual path) := by
  obtain ⟨members, rfl⟩ := Json.textAt?_object named
  exact check_object_link.2 (Json.textAt?_eq_some.1 named)

/-- Linked items pass when all that are compared have ids, and for every id the last
expected item in scope passes against the last actual one. -/
structure ItemsPass (c : Comparator) (expected found : List Json) (path : List String) : Prop where
  expectedNamed : ∀ item ∈ expected, c.inScope item = true → ∃ id, item.textAt? "@id" = some id
  foundNamed : ∀ item ∈ found, ∃ id, item.textAt? "@id" = some id
  matched : ∀ id item, lastNamed id (expected.filter c.inScope) = some item →
    ∃ other, lastNamed id found = some other ∧ Pass (check c item other (path ++ [id]))

section Items

variable {wanted : List (String × Json × Check)} {found : List (String × Json)}

/-- The items in scope with their checks, and the ids that these are kept under. -/
abbrev Wanted (c : Comparator) (items : List Json) (wanted : List (String × Json × Check)) : Prop :=
  Keyed (fun item => item.1.textAt? "@id") ((itemChecks c items).filter fun item => c.inScope item.1) wanted

private theorem Wanted.get?_collect (keyed : c.Wanted items wanted) (id : String) :
    Entries.get? id (Entries.collect wanted) =
    (lastNamed id (items.filter c.inScope)).map fun item => (item, check c item) := by
  rw [Keyed.get?_collect keyed, itemChecks_eq, lastNamed, ← List.getLast?_map, List.filter_map, List.filter_map]
  rfl

private theorem Wanted.named (keyed : c.Wanted items wanted) :
    ∀ item ∈ items, c.inScope item = true → ∃ id, item.textAt? "@id" = some id := by
  intro item member scope
  refine Keyed.keyed keyed (item, check c item) (List.mem_filter.2 ⟨?_, scope⟩)
  rw [itemChecks_eq]
  exact List.mem_map_of_mem member

private theorem exists_wanted (named : ∀ item ∈ items, c.inScope item = true → ∃ id, item.textAt? "@id" = some id) :
    ∃ wanted, c.Wanted items wanted := by
  refine Keyed.exists_pairs fun entry member => ?_
  obtain ⟨inside, scope⟩ := List.mem_filter.1 member
  rw [itemChecks_eq] at inside
  obtain ⟨item, listed, rfl⟩ := List.mem_map.1 inside
  exact named item listed scope

private theorem checkMembers_collected (keyed : c.Wanted items wanted) {others : List Json}
    (foundKeyed : Keyed (fun item => item.textAt? "@id") others found) :
    Pass (c.checkMembers (Entries.collect wanted) (Entries.collect found) path) ↔
      ∀ id item, lastNamed id (items.filter c.inScope) = some item →
        ∃ other, lastNamed id others = some other ∧ Pass (check c item other (path ++ [id])) := by
  have stored : ∀ entry, entry ∈ Entries.collect wanted ↔ ∃ item,
      lastNamed entry.1 (items.filter c.inScope) = some item ∧ (item, check c item) = entry.2 := by
    intro entry
    rw [← Entries.get?_eq_some_iff (Entries.nodup_collect wanted), keyed.get?_collect, Option.map_eq_some_iff]
  have met : ∀ id item, lastNamed id (items.filter c.inScope) = some item →
      (c.Meets item (check c item) (Entries.get? id (Entries.collect found)) (path ++ [id]) ↔
        ∃ other, lastNamed id others = some other ∧ Pass (check c item other (path ++ [id]))) := by
    intro id item last
    obtain ⟨member, named⟩ := Json.lastNamed_eq_some last
    rw [meets_named named (List.mem_filter.1 member).2, foundKeyed.get?_collect]
    exact Iff.rfl
  rw [checkMembers_pass]
  constructor
  · intro each id item last
    exact (met id item last).1 (each (id, item, check c item) ((stored _).2 ⟨item, last, rfl⟩))
  · rintro each ⟨id, pair⟩ member
    obtain ⟨item, last, rfl⟩ := (stored _).1 member
    exact (met id item last).2 (each id item last)

end Items

private theorem checkItems_pass : Pass (c.checkItems (itemChecks c items) actual path) ↔
    c.ItemsPass items (actualItems actual) path := by
  constructor
  · intro pass
    unfold checkItems at pass
    split at pass
    · exact absurd pass Finding.not_pass_mismatch
    next wanted read =>
      split at pass
      · exact absurd pass Finding.not_pass_mismatch
      next found readFound =>
        have keyed := byId_eq_ok.1 read
        have foundKeyed := byId_eq_ok.1 readFound
        exact ⟨Wanted.named keyed, foundKeyed.keyed,
          (checkMembers_collected keyed foundKeyed).1 (Finding.pass_linked.1 pass)⟩
  · intro ⟨named, foundNamed, matched⟩
    obtain ⟨wanted, keyed⟩ := exists_wanted named
    obtain ⟨found, foundKeyed⟩ := Keyed.exists_pairs foundNamed
    have read := byId_eq_ok.2 keyed
    have readFound : byId id (actualItems actual) = .ok found := byId_eq_ok.2 foundKeyed
    rw [checkItems, read]
    dsimp only
    rw [readFound]
    exact Finding.pass_linked.2 ((checkMembers_collected keyed foundKeyed).2 matched)

/-- A list that starts with an object is compared item by item, any other as a whole. -/
theorem check_array_pass : Pass (check c (.array items) actual path) ↔
    if isObjectList (.array items) then c.ItemsPass items (actualItems actual) path
    else (Json.array items).agrees actual = true := by
  simp only [check]
  split
  · exact checkItems_pass
  · exact checkEqual_pass

end Comparator

namespace Scope

/-- A comparator for an expected document that looks at a scope. -/
def comparator (scope : Scope) (expected : Json) : Except Failure Comparator := do
  let c ← Comparator.create expected scope.parts scope.references
  return { c with classify := scope.classify, skipped := scope.skipped }

/-- Compares an actual document with an expected one, as far as a scope reaches. -/
def compare (scope : Scope) (expected actual : Json) : Except Failure Unit := do
  let c ← scope.comparator expected
  c.compare actual

/-- The comparator for the nodes of an expected document. -/
def indexed (scope : Scope) (context : Json) (nodes : OrderedMap Json) : Comparator where
  context := context
  nodes := nodes
  parts := scope.parts
  references := scope.references
  classify := scope.classify
  skipped := scope.skipped

variable {scope : Scope} {expected actual : Json} {c : Comparator}

theorem comparator_eq_ok : scope.comparator expected = .ok c ↔
    ∃ nodes, Comparator.index expected = .ok nodes ∧ c = scope.indexed (Comparator.contextOf expected) nodes := by
  unfold comparator Comparator.create indexed
  cases Comparator.index expected <;> simp [bind, Except.bind, pure, Except.pure, eq_comm]

theorem compare_eq_ok : scope.compare expected actual = .ok () ↔ ∃ nodes, Comparator.index expected = .ok nodes ∧
    (scope.indexed (Comparator.contextOf expected) nodes).compare actual = .ok () := by
  simp only [compare, Outcome.bind_eq_ok, comparator_eq_ok]
  constructor
  · rintro ⟨_, ⟨nodes, read, rfl⟩, passed⟩
    exact ⟨nodes, read, passed⟩
  · rintro ⟨nodes, read, passed⟩
    exact ⟨_, ⟨nodes, read, rfl⟩, passed⟩

end Scope

end Provenance
