import Provenance.Json.Source
import Provenance.Proofs.SchemaAcceptance

/-! Values as they are written and read. What is written of a value is read as this value, and
what is read has distinct names in each of its objects. -/

namespace Provenance.Json

open Schema (Scalar)

/-- What holds of scalars, and of arrays and objects when it holds of what they are made of,
holds of all values. -/
@[elab_as_elim]
theorem induction {holds : Json → Prop} (scalar : ∀ value, Scalar value → holds value)
    (array : ∀ items, (∀ item ∈ items, holds item) → holds (.array items))
    (object : ∀ members, (∀ member ∈ members, holds member.2) → holds (.object members)) (value : Json) :
    holds value :=
  match value with
  | .null => scalar _ .null
  | .bool value => scalar _ (.bool value)
  | .number value => scalar _ (.number value)
  | .string text => scalar _ (.string text)
  | .array items => array items fun item _ => induction scalar array object item
  | .object members => object members fun member _ => induction scalar array object member.2
termination_by sizeOf value
decreasing_by
  · have smaller := List.sizeOf_lt_of_mem ‹item ∈ items›
    simp only [Json.array.sizeOf_spec]
    omega
  · have smaller := List.sizeOf_lt_of_mem ‹member ∈ members›
    obtain ⟨name, inner⟩ := member
    simp only [Prod.mk.sizeOf_spec, Json.object.sizeOf_spec] at smaller ⊢
    omega

theorem itemsDistinct_iff {items : List Json} : ItemsDistinct items ↔ ∀ item ∈ items, item.Distinct := by
  induction items with
  | nil => simp [ItemsDistinct]
  | cons item rest ih => simp [ItemsDistinct, ih]

theorem membersDistinct_iff {members : List (String × Json)} :
    MembersDistinct members ↔ ∀ member ∈ members, member.2.Distinct := by
  induction members with
  | nil => simp [MembersDistinct]
  | cons member rest ih => simp [MembersDistinct, ih]

theorem Distinct.get? {value member : Json} {name : String} (distinct : value.Distinct)
    (found : value.get? name = some member) : member.Distinct := by
  cases value with
  | object members => exact membersDistinct_iff.1 distinct.2 _ (Entries.mem_of_get? found)
  | null | bool _ | number _ | string _ | array _ => cases found

namespace Source

/-- Only scalars stand for themselves. Containers are spelled out. -/
inductive Spelled : Source → Prop where
  | unreadable : Spelled .unreadable
  | scalar {value : Json} (scalar : Scalar value) : Spelled (.scalar value)
  | array {items : List Source} (each : ∀ item ∈ items, Spelled item) : Spelled (.array items)
  | object {members : List (Option String × Source)} (each : ∀ member ∈ members, Spelled member.2) :
      Spelled (.object members)

/-- The sources of the members of an object. -/
def sources (members : List (String × Json)) : List (String × Source) :=
  members.map fun member => (member.1, ofJson member.2)

private theorem ofItems_eq (items : List Json) : ofItems items = items.map ofJson := by
  induction items with
  | nil => rfl
  | cons item rest ih => rw [ofItems, ih, List.map_cons]

private theorem ofMembers_eq (members : List (String × Json)) :
    ofMembers members = members.map fun member => (some member.1, ofJson member.2) := by
  induction members with
  | nil => rfl
  | cons member rest ih => rw [ofMembers, ih, List.map_cons]

private theorem itemValues?_eq (items : List Source) : itemValues? items = items.mapM value? := by
  induction items with
  | nil => rfl
  | cons item rest ih => rw [itemValues?, ih, List.mapM_cons]

private theorem memberValues?_eq (members : List (Option String × Source)) :
    memberValues? members = members.mapM fun member => do return (← member.1, ← member.2.value?) := by
  induction members with
  | nil => rfl
  | cons member rest ih =>
    rw [memberValues?, ih, List.mapM_cons]
    cases member.1 <;> cases member.2.value? <;> rfl

variable {source : Source} {value : Json} {items : List Json} {members : List (String × Json)}

theorem spelled_ofJson (value : Json) : (ofJson value).Spelled := by
  induction value using Json.induction with
  | scalar value scalar => cases scalar <;> exact .scalar (by constructor)
  | array items ih =>
    refine .array ?_
    rw [ofItems_eq]
    exact List.forall_mem_map.2 ih
  | object members ih =>
    refine .object ?_
    rw [ofMembers_eq]
    exact List.forall_mem_map.2 ih

theorem Spelled.distinct (spelled : source.Spelled) : ∀ value, source.value? = some value → value.Distinct := by
  induction spelled with
  | unreadable => exact fun _ => nofun
  | scalar scalar =>
    intro value read
    cases read
    cases scalar <;> exact True.intro
  | @array items _ ih =>
    intro value read
    obtain ⟨values, items, rfl⟩ := Option.map_eq_some_iff.1 read
    rw [itemValues?_eq, Outcome.mapM_eq_some] at items
    refine itemsDistinct_iff.2 fun value member => ?_
    obtain ⟨item, inside, own⟩ := (Outcome.forall₂_partners items).2 value member
    exact ih item inside value own
  | @object members _ ih =>
    intro value read
    obtain ⟨values, members, rfl⟩ := Option.map_eq_some_iff.1 read
    rw [memberValues?_eq, Outcome.mapM_eq_some] at members
    refine ⟨Entries.nodup_collect values, membersDistinct_iff.2 fun entry member => ?_⟩
    obtain ⟨item, inside, own⟩ := (Outcome.forall₂_partners members).2 entry (Entries.mem_of_mem_collect member)
    simp only [Option.bind_eq_bind, Option.bind_eq_some_iff, Option.pure_def, Option.some.injEq] at own
    obtain ⟨name, _, value, own, rfl⟩ := own
    exact ih item inside value own

/-- What is written of a value is read as this value. -/
theorem value?_ofJson (distinct : value.Distinct) : (ofJson value).value? = some value := by
  induction value using Json.induction with
  | scalar value scalar => cases scalar <;> rfl
  | array items ih =>
    have read : (ofItems items).mapM value? = some items := by
      rw [ofItems_eq, Outcome.mapM_eq_some, List.forall₂_map_left_iff, List.forall₂_same]
      exact fun item member => ih item member (itemsDistinct_iff.1 distinct item member)
    rw [ofJson, Source.value?, itemValues?_eq, read]
    rfl
  | object members ih =>
    have read : memberValues? (ofMembers members) = some members := by
      rw [memberValues?_eq, ofMembers_eq, Outcome.mapM_eq_some, List.forall₂_map_left_iff, List.forall₂_same]
      intro member inside
      rw [ih member inside (membersDistinct_iff.1 distinct.2 member inside)]
      rfl
    rw [ofJson, Source.value?, read, Option.map_some, Json.ofMembers, Entries.collect_of_nodup distinct.1]

theorem named?_ofJson (members : List (String × Json)) : (ofJson (.object members)).named? = some (sources members) := by
  rw [ofJson, named?, ofMembers_eq, Outcome.mapM_eq_some, sources, List.forall₂_map_left_iff, List.forall₂_map_right_iff,
    List.forall₂_same]
  exact fun member _ => rfl

theorem Spelled.named {members : List (String × Source)} (spelled : source.Spelled)
    (read : source.named? = some members) : ∀ member ∈ members, member.2.Spelled := by
  cases spelled with
  | unreadable | scalar _ | array _ => cases read
  | object each =>
    rw [named?, Outcome.mapM_eq_some] at read
    intro member inside
    obtain ⟨written, listed, own⟩ := (Outcome.forall₂_partners read).2 member inside
    obtain ⟨name, _, rfl⟩ := Option.map_eq_some_iff.1 own
    exact each written listed

end Source

end Provenance.Json
