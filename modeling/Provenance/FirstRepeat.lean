/-! The first text of a list that repeats an earlier one. -/

namespace Provenance

def firstRepeat? (seen : List String) : List String → Option String
  | [] => none
  | text :: rest => if text ∈ seen then some text else firstRepeat? (text :: seen) rest

theorem firstRepeat?_eq_none_iff {seen texts : List String} :
    firstRepeat? seen texts = none ↔ texts.Nodup ∧ ∀ text ∈ texts, text ∉ seen := by
  induction texts generalizing seen with
  | nil => simp [firstRepeat?]
  | cons head rest ih =>
    by_cases old : head ∈ seen
    · simp [firstRepeat?, old]
    · simp only [firstRepeat?, if_neg old, ih, List.nodup_cons, List.mem_cons, not_or]
      constructor
      · rintro ⟨distinct, fresh⟩
        refine ⟨⟨fun member => (fresh head member).1 rfl, distinct⟩, ?_⟩
        rintro text (rfl | member)
        · exact old
        · exact (fresh text member).2
      · rintro ⟨⟨absent, distinct⟩, fresh⟩
        refine ⟨distinct, fun text member => ⟨?_, fresh text (Or.inr member)⟩⟩
        rintro rfl
        exact absent member

end Provenance
