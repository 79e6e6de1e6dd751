import Provenance.Flow.Encoding
import Provenance.Proofs.JsonValues

/-! Flow plans as they are written. A plan that was read is written so that the same plan is read
again, because no extra member of its states has the name of one that is looked for. -/

namespace Provenance.Flow

open Json (Source field?)
open Json.Source (sources)

variable {names : List String} {own extra members : List (String × Source)} {source : Source} {s : State} {p : Plan}
  {m : OrderedMap Json}

private theorem field?_append (absent : ∀ member ∈ extra, member.1 ∉ names) :
    field? names (own ++ extra) = field? names own := by
  have none : (extra.filter fun member => names.contains member.1) = [] := by
    simpa using absent
  rw [field?, List.filter_append, none, List.append_nil]
  rfl

private theorem mem_of_field? (found : field? names members = some (some source)) :
    ∃ name ∈ names, (name, source) ∈ members := by
  unfold field? at found
  split at found
  · cases found
  next member filtered =>
    cases found
    have inside : member ∈ members.filter fun member => names.contains member.1 := by
      rw [filtered]
      exact List.mem_singleton_self member
    obtain ⟨inside, named⟩ := List.mem_filter.1 inside
    exact ⟨member.1, by simpa using named, inside⟩
  · cases found

private theorem values_sources {entries : List (String × Json)} (distinct : ∀ entry ∈ entries, entry.2.Distinct) :
    ((sources entries).mapM fun member => member.2.value?.map (member.1, ·)) = some entries := by
  rw [Outcome.mapM_eq_some, sources, List.forall₂_map_left_iff, List.forall₂_same]
  intro entry member
  rw [Source.value?_ofJson (distinct entry member)]
  rfl

private theorem ofList_entries {α : Type} (m : OrderedMap α) : OrderedMap.ofList m.entries = m := by
  obtain ⟨entries, distinct⟩ := m
  unfold OrderedMap.ofList
  congr 1
  exact Entries.collect_of_nodup distinct

private theorem map?_ofJson (distinct : ∀ entry ∈ m.entries, entry.2.Distinct) :
    (Source.ofJson (.object m.entries)).map? = some m := by
  rw [Source.map?, Source.named?_ofJson]
  simp only [Option.bind_eq_bind, Option.bind_some, values_sources distinct, ofList_entries, Option.pure_def]

private theorem distinct_of_values {pairs : List (String × Json)} (spelled : ∀ member ∈ members, member.2.Spelled)
    (read : (members.mapM fun member => member.2.value?.map (member.1, ·)) = some pairs) :
    ∀ pair ∈ pairs, pair.2.Distinct ∧ ∃ member ∈ members, member.1 = pair.1 := by
  intro pair inside
  rw [Outcome.mapM_eq_some] at read
  obtain ⟨member, listed, own⟩ := (Outcome.forall₂_partners read).2 pair inside
  obtain ⟨value, found, rfl⟩ := Option.map_eq_some_iff.1 own
  exact ⟨(spelled member listed).distinct value found, member, listed, rfl⟩

private theorem distinct_of_map? (spelled : source.Spelled) (read : source.map? = some m) :
    ∀ entry ∈ m.entries, entry.2.Distinct := by
  simp only [Source.map?, Option.bind_eq_bind, Option.bind_eq_some_iff, Option.pure_def, Option.some.injEq] at read
  obtain ⟨members, named, pairs, values, rfl⟩ := read
  exact fun entry inside => (distinct_of_values (spelled.named named) values entry (Entries.mem_of_mem_collect inside)).1

namespace State

/-- A state that is written without loss: its extra members do not have the names of its own
members, and no object inside its values has a name twice. -/
structure Faithful (s : State) : Prop where
  parameters : ∀ entry ∈ s.parameters.entries, entry.2.Distinct
  extra : ∀ entry ∈ s.extra.entries, entry.2.Distinct
  apart : ∀ entry ∈ s.extra.entries, entry.1 ∉ memberNames

/-- The members of a state that are not extra ones. -/
def ownMembers (s : State) : List (String × Json) :=
  [("Comment", .textOrNull s.comment), ("Type", .string s.type), ("ActionUrl", .string s.action),
      ("Parameters", .object s.parameters.entries)] ++
    Json.present "ResultPath" (s.resultPath.map .string) ++
    Json.present "Next" (s.next.map .string) ++
    Json.present "End" (s.ending.map .bool)

theorem toJson_eq (s : State) : s.toJson = .object (s.ownMembers ++ s.extra.entries) := rfl

/-- What is read under each name among the members of a state. -/
structure Finds (s : State) (members : List (String × Source)) : Prop where
  comment : (field? ["Comment"] members).bind (optional? Source.optionalText?) = some s.comment
  type : (field? ["Type"] members).bind (fun found => found.elim (some "Action") Source.text?) = some s.type
  action : (field? ["ActionUrl", "actionId"] members).bind (fun found => found.bind Source.text?) = some s.action
  parameters : (field? ["Parameters", "parameters"] members).bind (fun found => found.elim (some {}) Source.map?) =
    some s.parameters
  resultPath : (field? ["ResultPath", "resultPath"] members).bind (optional? Source.optionalText?) = some s.resultPath
  next : (field? ["Next", "next"] members).bind (optional? Source.optionalText?) = some s.next
  ending : (field? ["End", "end"] members).bind (optional? Source.optionalBool?) = some s.ending

/-- Everything that is read of a state, its extra members among it. -/
structure ReadFrom (s : State) (members : List (String × Source)) : Prop extends Finds s members where
  extra : ((members.filter fun member => !memberNames.contains member.1).mapM fun member : String × Source =>
    member.2.value?.map (member.1, ·)).map OrderedMap.ofList = some s.extra

/-- A state is read member by member. A look-up that fails fails the whole. -/
private theorem ofSource?_eq (source : Source) : ofSource? source = do
    let members ← source.named?
    let comment ← (field? ["Comment"] members).bind (optional? Source.optionalText?)
    let type ← (field? ["Type"] members).bind fun found => found.elim (some "Action") Source.text?
    let action ← (field? ["ActionUrl", "actionId"] members).bind fun found => found.bind Source.text?
    let parameters ← (field? ["Parameters", "parameters"] members).bind fun found => found.elim (some {}) Source.map?
    let resultPath ← (field? ["ResultPath", "resultPath"] members).bind (optional? Source.optionalText?)
    let next ← (field? ["Next", "next"] members).bind (optional? Source.optionalText?)
    let ending ← (field? ["End", "end"] members).bind (optional? Source.optionalBool?)
    let others := members.filter fun member => !memberNames.contains member.1
    let extra ← others.mapM fun member => member.2.value?.map (member.1, ·)
    return { comment, type, action, parameters, resultPath, next, ending, extra := OrderedMap.ofList extra } := by
  unfold ofSource?
  cases source.named? with
  | none => rfl
  | some members =>
    change Option.bind (some members) _ = Option.bind (some members) _
    rw [Option.bind_some, Option.bind_some]
    generalize field? ["Comment"] members = comment
    generalize field? ["Type"] members = type
    generalize field? ["ActionUrl", "actionId"] members = action
    generalize field? ["Parameters", "parameters"] members = parameters
    generalize field? ["ResultPath", "resultPath"] members = resultPath
    generalize field? ["Next", "next"] members = next
    generalize field? ["End", "end"] members = ending
    rcases type with _ | _ | _ <;> rcases parameters with _ | _ | _ <;> cases comment <;> cases action <;>
      cases resultPath <;> cases next <;> cases ending <;> rfl

theorem ofSource?_eq_some : ofSource? source = some s ↔ ∃ members, source.named? = some members ∧ s.ReadFrom members := by
  rw [ofSource?_eq]
  constructor
  · intro read
    obtain ⟨members, named, read⟩ := Option.bind_eq_some_iff.1 read
    obtain ⟨_, comment, read⟩ := Option.bind_eq_some_iff.1 read
    obtain ⟨_, type, read⟩ := Option.bind_eq_some_iff.1 read
    obtain ⟨_, action, read⟩ := Option.bind_eq_some_iff.1 read
    obtain ⟨_, parameters, read⟩ := Option.bind_eq_some_iff.1 read
    obtain ⟨_, resultPath, read⟩ := Option.bind_eq_some_iff.1 read
    obtain ⟨_, next, read⟩ := Option.bind_eq_some_iff.1 read
    obtain ⟨_, ending, read⟩ := Option.bind_eq_some_iff.1 read
    obtain ⟨_, extra, read⟩ := Option.bind_eq_some_iff.1 read
    cases read
    exact ⟨members, named, ⟨comment, type, action, parameters, resultPath, next, ending⟩,
      Option.map_eq_some_iff.2 ⟨_, extra, rfl⟩⟩
  · rintro ⟨members, named, reads⟩
    obtain ⟨_, extra, collected⟩ := Option.map_eq_some_iff.1 reads.extra
    refine Option.bind_eq_some_iff.2 ⟨members, named, ?_⟩
    refine Option.bind_eq_some_iff.2 ⟨_, reads.comment, ?_⟩
    refine Option.bind_eq_some_iff.2 ⟨_, reads.type, ?_⟩
    refine Option.bind_eq_some_iff.2 ⟨_, reads.action, ?_⟩
    refine Option.bind_eq_some_iff.2 ⟨_, reads.parameters, ?_⟩
    refine Option.bind_eq_some_iff.2 ⟨_, reads.resultPath, ?_⟩
    refine Option.bind_eq_some_iff.2 ⟨_, reads.next, ?_⟩
    refine Option.bind_eq_some_iff.2 ⟨_, reads.ending, ?_⟩
    refine Option.bind_eq_some_iff.2 ⟨_, extra, ?_⟩
    rw [collected]
    rfl

private theorem finds_ownMembers (faithful : s.Faithful) : s.Finds (sources s.ownMembers) := by
  have parameters := map?_ofJson faithful.parameters
  have comment : Source.optionalText? (.ofJson (.textOrNull s.comment)) = some s.comment := by
    cases s.comment <;> rfl
  obtain ⟨_, type, action, _, resultPath, next, ending, extra⟩ := s
  cases resultPath <;> cases next <;> cases ending <;> exact ⟨comment, rfl, rfl, parameters, rfl, rfl, rfl⟩

private theorem ownMembers_named (s : State) : ∀ member ∈ s.ownMembers, member.1 ∈ memberNames := by
  obtain ⟨comment, type, action, parameters, resultPath, next, ending, extra⟩ := s
  cases resultPath <;> cases next <;> cases ending <;> simp [ownMembers, Json.present, memberNames]

private theorem Finds.append (finds : s.Finds own) (absent : ∀ member ∈ extra, member.1 ∉ memberNames) :
    s.Finds (own ++ extra) := by
  have apart : ∀ names ⊆ memberNames, field? names (own ++ extra) = field? names own := by
    intro names known
    exact field?_append fun member inside named => absent member inside (known named)
  constructor
  · rw [apart _ (by decide), finds.comment]
  · rw [apart _ (by decide), finds.type]
  · rw [apart _ (by decide), finds.action]
  · rw [apart _ (by decide), finds.parameters]
  · rw [apart _ (by decide), finds.resultPath]
  · rw [apart _ (by decide), finds.next]
  · rw [apart _ (by decide), finds.ending]

/-- Members that hold what a state has are read as this state. -/
theorem ofSource?_toJson (faithful : s.Faithful) : ofSource? (.ofJson s.toJson) = some s := by
  have split : sources (s.ownMembers ++ s.extra.entries) = sources s.ownMembers ++ sources s.extra.entries :=
    List.map_append
  have apart : ∀ member ∈ sources s.extra.entries, member.1 ∉ memberNames := List.forall_mem_map.2 faithful.apart
  have others : ((sources s.ownMembers ++ sources s.extra.entries).filter fun member => !memberNames.contains member.1) =
      sources s.extra.entries := by
    have known : ((sources s.ownMembers).filter fun member => !memberNames.contains member.1) = [] := by
      rw [List.filter_eq_nil_iff]
      refine List.forall_mem_map.2 fun member inside => ?_
      simpa using s.ownMembers_named member inside
    rw [List.filter_append, known, List.nil_append, List.filter_eq_self]
    simpa using apart
  rw [toJson_eq]
  refine ofSource?_eq_some.2 ⟨_, Source.named?_ofJson _, ?_⟩
  rw [split]
  refine ⟨(finds_ownMembers faithful).append apart, ?_⟩
  rw [others, values_sources faithful.extra, Option.map_some, ofList_entries]

private theorem faithful_of_ofSource? (spelled : source.Spelled) (read : ofSource? source = some s) : s.Faithful := by
  obtain ⟨members, named, reads⟩ := ofSource?_eq_some.1 read
  have spelled := spelled.named named
  obtain ⟨pairs, values, collected⟩ := Option.map_eq_some_iff.1 reads.extra
  have values := distinct_of_values (fun member inside => spelled member (List.mem_of_mem_filter inside)) values
  have listed : ∀ entry ∈ s.extra.entries, entry ∈ pairs := by
    rw [← collected]
    exact fun entry => Entries.mem_of_mem_collect
  refine ⟨?_, fun entry inside => (values entry (listed entry inside)).1, fun entry inside => ?_⟩
  · obtain ⟨found, stored, mapped⟩ := Option.bind_eq_some_iff.1 reads.parameters
    cases found with
    | none =>
      have empty : {} = s.parameters := Option.some.inj mapped
      rw [← empty]
      exact List.forall_mem_nil _
    | some inner =>
      obtain ⟨name, _, inside⟩ := mem_of_field? stored
      exact distinct_of_map? (spelled _ inside) mapped
  · obtain ⟨_, member, kept, same⟩ := values entry (listed entry inside)
    obtain ⟨_, unknown⟩ := List.mem_filter.1 kept
    rw [← same]
    simpa using unknown

private theorem ownMembers_nodup (s : State) : (s.ownMembers.map Prod.fst).Nodup := by
  obtain ⟨comment, type, action, parameters, resultPath, next, ending, extra⟩ := s
  cases resultPath <;> cases next <;> cases ending <;> simp [ownMembers, Json.present]

private theorem Faithful.ownMembers_distinct (faithful : s.Faithful) : ∀ member ∈ s.ownMembers, member.2.Distinct := by
  have parameters : (Json.object s.parameters.entries).Distinct :=
    ⟨s.parameters.distinct, Json.membersDistinct_iff.2 faithful.parameters⟩
  have comment : (Json.textOrNull s.comment).Distinct := by
    cases s.comment <;> exact True.intro
  obtain ⟨_, type, action, _, resultPath, next, ending, extra⟩ := s
  cases resultPath <;> cases next <;> cases ending <;>
    simpa [ownMembers, Json.present, Json.Distinct] using ⟨comment, parameters⟩

theorem Faithful.toJson_distinct (faithful : s.Faithful) : s.toJson.Distinct := by
  rw [toJson_eq]
  refine ⟨?_, Json.membersDistinct_iff.2 (List.forall_mem_append.2 ⟨faithful.ownMembers_distinct, faithful.extra⟩)⟩
  rw [List.map_append, List.nodup_append]
  refine ⟨s.ownMembers_nodup, s.extra.distinct, ?_⟩
  rintro _ own _ extra rfl
  obtain ⟨member, inside, same⟩ := List.mem_map.1 own
  obtain ⟨entry, outside, rfl⟩ := List.mem_map.1 extra
  exact faithful.apart entry outside (same ▸ s.ownMembers_named member inside)

end State

namespace Plan

/-- Every state of the plan is written without loss. -/
def Faithful (p : Plan) : Prop := ∀ entry ∈ p.states.entries, entry.2.Faithful

/-- The states of a plan as they are written. -/
def stateMembers (p : Plan) : List (String × Json) := p.states.entries.map fun entry => (entry.1, entry.2.toJson)

theorem toJson_eq (p : Plan) : p.toJson = .object (Json.present "Comment" (p.comment.map .string) ++
    [("StartAt", .string p.start), ("States", .object p.stateMembers)]) := rfl

theorem states?_toJson (faithful : p.Faithful) : states? (.ofJson (.object p.stateMembers)) = some p.states := by
  have read : ((sources p.stateMembers).mapM fun member => (State.ofSource? member.2).map (member.1, ·)) =
      some p.states.entries := by
    rw [Outcome.mapM_eq_some, sources, stateMembers, List.map_map, List.forall₂_map_left_iff, List.forall₂_same]
    intro entry member
    rw [Function.comp_apply, State.ofSource?_toJson (faithful entry member)]
    rfl
  rw [states?, Source.named?_ofJson]
  simp only [Option.bind_eq_bind, Option.bind_some, read, ofList_entries, Option.pure_def]

theorem ofSource?_toJson (faithful : p.Faithful) : ofSource? (.ofJson p.toJson) = some p := by
  have states := states?_toJson faithful
  have read : ofSource? (.ofJson p.toJson) =
      (states? (.ofJson (.object p.stateMembers))).bind fun states => some { p with states } := by
    obtain ⟨comment, start, stored⟩ := p
    cases comment <;> rfl
  rw [read, states]
  rfl

private theorem faithful_of_states? {states : OrderedMap State} (spelled : source.Spelled)
    (read : states? source = some states) : ∀ entry ∈ states.entries, entry.2.Faithful := by
  simp only [states?, Option.bind_eq_bind, Option.bind_eq_some_iff, Option.pure_def, Option.some.injEq] at read
  obtain ⟨members, named, pairs, values, rfl⟩ := read
  intro entry inside
  rw [Outcome.mapM_eq_some] at values
  obtain ⟨member, listed, own⟩ := (Outcome.forall₂_partners values).2 entry (Entries.mem_of_mem_collect inside)
  obtain ⟨state, found, rfl⟩ := Option.map_eq_some_iff.1 own
  exact State.faithful_of_ofSource? (spelled.named named member listed) found

private theorem faithful_of_ofSource? (spelled : source.Spelled) (read : ofSource? source = some p) : p.Faithful := by
  unfold ofSource? at read
  split at read
  next members =>
    simp only [Option.bind_eq_bind, Option.bind_eq_some_iff, Option.pure_def, Option.some.injEq] at read
    obtain ⟨members, named, _, _, _, _, _, _, _, _, found, stored, states, ⟨inner, rfl, read⟩, rfl⟩ := read
    obtain ⟨name, _, inside⟩ := mem_of_field? stored
    exact faithful_of_states? (spelled.named named _ inside) read
  next comment start states =>
    simp only [Option.bind_eq_bind, Option.bind_eq_some_iff, Option.pure_def, Option.some.injEq] at read
    obtain ⟨_, _, _, _, stored, read, rfl⟩ := read
    cases spelled with
    | array each => exact faithful_of_states? (each states (by simp)) read
  next => cases read

theorem Faithful.toJson_distinct (faithful : p.Faithful) : p.toJson.Distinct := by
  have states : (Json.object p.stateMembers).Distinct := by
    refine ⟨?_, Json.membersDistinct_iff.2 (List.forall_mem_map.2 fun entry inside => (faithful entry inside).toJson_distinct)⟩
    rw [stateMembers, List.map_map]
    exact p.states.distinct
  rw [toJson_eq]
  refine ⟨?_, Json.membersDistinct_iff.2 ?_⟩
  · cases p.comment <;> simp [Json.present]
  · cases p.comment <;> simpa [Json.present, Json.Distinct] using states

/-- What is written of a plan that was read has no name twice in an object, and it is read as
the same plan. Plans are the same when their states, the parameters of these and their extra
members are the same and in the same order. -/
theorem read_plans_are_read_back (value : Json) (read : ofSource? (.ofJson value) = some p) :
    p.toJson.Distinct ∧ ofSource? (.ofJson p.toJson) = some p := by
  have faithful := faithful_of_ofSource? (Source.spelled_ofJson value) read
  exact ⟨faithful.toJson_distinct, ofSource?_toJson faithful⟩

/-- A plan in a list, with a null comment, second names of members, a null among the optional
members, and extra members around them. -/
def listedPlan : Json :=
  .array [.null, .string "b", .object
    [("b", .object [("WaitTime", .nat 300), ("actionId", .string computeAction), ("next", .string "a"),
      ("ResultPath", .null), ("Mode", .string "slow")]),
      ("a", .object [("end", .bool true), ("ActionUrl", .string transferAction)])]]

theorem listed_plan_is_read_back : ∃ p, ofSource? (.ofJson listedPlan) = some p ∧
    p.states.entries.map (fun entry => (entry.1, entry.2.extra.entries.map Prod.fst)) =
      [("b", ["WaitTime", "Mode"]), ("a", [])] ∧
    p.toJson.Distinct ∧ ofSource? (.ofJson p.toJson) = some p := by
  obtain ⟨p, read, members⟩ : ∃ p, ofSource? (.ofJson listedPlan) = some p ∧
      p.states.entries.map (fun entry => (entry.1, entry.2.extra.entries.map Prod.fst)) =
        [("b", ["WaitTime", "Mode"]), ("a", [])] := ⟨_, rfl, rfl⟩
  exact ⟨p, read, members, read_plans_are_read_back listedPlan read⟩

end Plan

end Provenance.Flow
