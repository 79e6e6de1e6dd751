import Mathlib.Data.List.Flatten
import Mathlib.Data.List.Infix

/-! Lists that are taken apart around one of their items. -/

namespace Provenance

variable {α β : Type} {first second before after : List α} {x : α}

theorem append_eq_append_cons_iff : first ++ second = before ++ x :: after ↔
    (∃ behind, first = before ++ x :: behind ∧ after = behind ++ second) ∨
      ∃ ahead, before = first ++ ahead ∧ second = ahead ++ x :: after := by
  constructor
  · intro split
    rcases List.append_eq_append_iff.1 split with ⟨ahead, same, later⟩ | ⟨behind, same, later⟩
    · exact Or.inr ⟨ahead, same, later⟩
    · cases behind with
      | nil => exact Or.inr ⟨[], by simpa using same.symm, by simpa using later.symm⟩
      | cons head behind =>
        obtain ⟨rfl, others⟩ := List.cons.inj later
        exact Or.inl ⟨behind, same, others⟩
  · intro either
    rcases either with ⟨behind, rfl, rfl⟩ | ⟨ahead, rfl, rfl⟩ <;> simp

theorem split_in_first (split : first ++ second = before ++ x :: after) (absent : x ∉ second) :
    ∃ behind, first = before ++ x :: behind ∧ after = behind ++ second := by
  rcases append_eq_append_cons_iff.1 split with inside | ⟨ahead, _, same⟩
  · exact inside
  · exact absurd (by simp [same]) absent

theorem split_in_second (split : first ++ second = before ++ x :: after) (absent : x ∉ first) :
    ∃ ahead, before = first ++ ahead ∧ second = ahead ++ x :: after := by
  rcases append_eq_append_cons_iff.1 split with ⟨behind, same, _⟩ | inside
  · exact absurd (by simp [same]) absent
  · exact inside

/-- An item of a flattened list stands in one of its parts. -/
theorem flatMap_eq_append_cons {f : β → List α} {items : List β} (split : items.flatMap f = before ++ x :: after) :
    ∃ earlier item later ahead behind, items = earlier ++ item :: later ∧ f item = ahead ++ x :: behind ∧
      before = earlier.flatMap f ++ ahead ∧ after = behind ++ later.flatMap f := by
  induction items generalizing before with
  | nil => simp at split
  | cons item rest ih =>
    rw [List.flatMap_cons] at split
    rcases append_eq_append_cons_iff.1 split with ⟨behind, same, rfl⟩ | ⟨further, rfl, others⟩
    · exact ⟨[], item, rest, before, behind, rfl, same, rfl, rfl⟩
    · obtain ⟨earlier, inner, later, ahead, behind, rfl, inside, rfl, rfl⟩ := ih others
      exact ⟨item :: earlier, inner, later, ahead, behind, rfl, inside, by simp, rfl⟩

/-- A list is split in one way at the first place of a mark. -/
theorem split_at_mark {mark : α} {rest others : List α} (clear : mark ∉ first) (unmarked : mark ∉ second)
    (same : first ++ mark :: rest = second ++ mark :: others) : first = second ∧ rest = others := by
  obtain ⟨ahead, rfl, later⟩ := split_in_second same clear
  cases ahead with
  | nil => exact ⟨by simp, (List.cons.inj later).2⟩
  | cons head ahead =>
    obtain ⟨rfl, _⟩ := List.cons.inj later
    exact absurd (by simp) unmarked

/-- A mark parts what does not have it. -/
theorem infix_joined {needle : List α} {mark : α} (clear : mark ∉ needle) :
    needle <:+: first ++ mark :: second ↔ needle <:+: first ∨ needle <:+: second := by
  constructor
  · intro ⟨before, after, split⟩
    rcases append_eq_append_cons_iff.1 split with ⟨behind, reaching, rfl⟩ | ⟨ahead, rfl, _⟩
    · rcases append_eq_append_cons_iff.1 reaching with ⟨part, _, rfl⟩ | ⟨part, _, whole⟩
      · exact Or.inr ⟨part, after, rfl⟩
      · exact absurd (by simp [whole]) clear
    · exact Or.inl ⟨before, ahead, rfl⟩
  · intro either
    rcases either with inside | inside
    · exact inside.trans (List.prefix_append _ _).isInfix
    · exact inside.trans ((List.suffix_cons mark second).trans (List.suffix_append _ _)).isInfix

end Provenance
