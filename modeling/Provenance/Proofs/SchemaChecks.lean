import Provenance.Proofs.Outcomes
import Provenance.Schema.Validation

/-! What the checks of a validation decide. Each check that passes is read as the
rule it stands for; the order of the checks only matters for which fault is named. -/

namespace Provenance.Schema

/-- The value of a key suits the rules: references lead to known ids unless the
key is exempt, and every other key holds plain values. -/
def Suits (rules : List Rule) (ids : List String) (key : String) (value : Json) : Prop :=
  if rules.any fun rule => rule.isReference key then
    ∃ targets, targets? value = some targets ∧ (key ∈ exemptKeys ∨ ∀ target ∈ targets, target ∈ ids)
  else isPlain value = true

/-- A node follows the rules of its types. -/
structure Follows (rules : List Rule) (ids : List String) (node : List (String × Json)) : Prop where
  permitted : ∀ member ∈ properties node, ∃ rule ∈ rules, rule.permits member.1 = true
  present : ∀ rule ∈ rules, ∀ key ∈ rule.required, key ∈ node.map Prod.fst
  suited : ∀ member ∈ properties node, Suits rules ids member.1 member.2

theorem checkPermitted_eq_ok {rules : List Rule} {id key : String} :
    checkPermitted rules id key = .ok () ↔ ∃ rule ∈ rules, rule.permits key = true := by
  rw [checkPermitted, ← List.any_eq_true]
  split <;> simp_all

theorem checkPresent_eq_ok {node : List (String × Json)} {id key : String} :
    checkPresent node id key = .ok () ↔ key ∈ node.map Prod.fst := by
  rw [checkPresent, ← Entries.isSome_get?_iff]
  split <;> simp_all

theorem checkValue_eq_ok {rules : List Rule} {ids : List String} {id key : String} {value : Json} :
    checkValue rules ids id key value = .ok () ↔ Suits rules ids key value := by
  unfold checkValue Suits
  by_cases reference : (rules.any fun rule => rule.isReference key) = true
  · simp only [reference, if_true]
    cases shape : targets? value with
    | none => simp
    | some targets =>
      by_cases exempt : key ∈ exemptKeys
      · simp [exempt]
      · simp only [List.contains_eq_mem, exempt, decide_false, Bool.false_eq_true, if_false,
          Option.some.injEq, exists_eq_left', false_or]
        cases dangling : targets.find? fun target => !decide (target ∈ ids) with
        | none => simpa using dangling
        | some target =>
          have missing : target ∉ ids := by simpa using List.find?_some dangling
          have member := List.mem_of_find?_eq_some dangling
          simp only [reduceCtorEq, false_iff]
          exact fun all => missing (all target member)
  · simp only [reference, Bool.false_eq_true, if_false]
    split <;> simp_all

theorem checkNode_eq_ok {table : Table} {ids : List String} {id : String} {node : List (String × Json)} :
    checkNode table ids id node = .ok () ↔ ∃ rules, rulesOf table id node = .ok rules ∧ Follows rules ids node := by
  simp only [checkNode, Outcome.bind_eq_ok, Outcome.forM_eq_ok, checkPermitted_eq_ok, checkPresent_eq_ok,
    checkValue_eq_ok, List.mem_flatMap]
  constructor
  · rintro ⟨rules, known, _, permitted, _, present, suited⟩
    exact ⟨rules, known, permitted, fun rule member key needed => present key ⟨rule, member, needed⟩, suited⟩
  · rintro ⟨rules, known, follows⟩
    exact ⟨rules, known, (), follows.permitted, (), fun key ⟨rule, member, needed⟩ =>
      follows.present rule member key needed, follows.suited⟩

/-- The rules of a node are those of the base type and of its types, all known. -/
theorem rulesOf_eq_ok {table : Table} {id : String} {node : List (String × Json)} {rules : List Rule} :
    rulesOf table id node = .ok rules ↔ ∃ types, typesOf id node = .ok types ∧
      List.Forall₂ (fun type rule => table.get? type = some rule) (baseType :: types) rules := by
  simp only [rulesOf, Outcome.bind_eq_ok, Outcome.mapM_eq_ok]
  refine exists_congr fun types => and_congr_right fun _ => ⟨?_, ?_⟩
  · refine List.Forall₂.imp fun type rule found => ?_
    cases known : table.get? type <;> simp_all
  · refine List.Forall₂.imp fun type rule known => ?_
    simp [known]

theorem validate_eq_ok {table : Table} {document : Json} :
    validate table document = .ok () ↔ ∃ nodes, nodesOf document = .ok nodes ∧
      ∀ node ∈ nodes, checkNode table (nodes.map Prod.fst) node.1 node.2 = .ok () := by
  simp only [validate, Outcome.bind_eq_ok, Outcome.forM_eq_ok]

end Provenance.Schema
