import Mathlib.Data.List.Forall2

/-! How a computation that may fail comes to its outcome. A sequence succeeds when
every part of it does, and what a step keeps is kept by a run. -/

namespace Provenance.Outcome

variable {ε α β : Type}

/-- The fault of a computation that fails. -/
def fault? : Except ε α → Option ε
  | .ok _ => none
  | .error fault => some fault

theorem fault?_eq_none {outcome : Except ε α} : fault? outcome = none ↔ ∃ value, outcome = .ok value := by
  cases outcome <;> simp [fault?]

theorem fault?_eq_some {outcome : Except ε α} {fault : ε} : fault? outcome = some fault ↔ outcome = .error fault := by
  cases outcome <;> simp [fault?]

theorem bind_eq_ok {first : Except ε α} {next : α → Except ε β} {result : β} :
    first >>= next = .ok result ↔ ∃ value, first = .ok value ∧ next value = .ok result := by
  cases first <;> simp [bind, Except.bind]

theorem bind_eq_error {first : Except ε α} {next : α → Except ε β} {fault : ε} :
    first >>= next = .error fault ↔
      first = .error fault ∨ ∃ value, first = .ok value ∧ next value = .error fault := by
  cases first <;> simp [bind, Except.bind]

theorem pure_eq_ok {value result : α} : (pure value : Except ε α) = .ok result ↔ value = result := by
  simp [pure, Except.pure]

theorem ok_of_isSome {outcome : Except ε α} (some : outcome.toOption.isSome = true) :
    ∃ value, outcome = .ok value := by
  cases outcome with
  | ok value => exact ⟨value, rfl⟩
  | error _ => cases some

theorem toOption_eq_some {outcome : Except ε α} {value : α} : outcome.toOption = some value ↔ outcome = .ok value := by
  cases outcome <;> simp [Except.toOption]

theorem forM_eq_ok {items : List α} {check : α → Except ε Unit} {done : Unit} :
    items.forM check = .ok done ↔ ∀ item ∈ items, check item = .ok () := by
  induction items with
  | nil => simp [pure, Except.pure]
  | cons item rest ih =>
    rw [List.forM_eq_forM] at ih ⊢
    simp only [List.forM_cons, bind_eq_ok, ih, List.forall_mem_cons]
    exact ⟨fun ⟨_, first, others⟩ => ⟨first, others⟩, fun ⟨first, others⟩ => ⟨(), first, others⟩⟩

theorem mapM_eq_ok {items : List α} {read : α → Except ε β} {results : List β} :
    items.mapM read = .ok results ↔ List.Forall₂ (fun item result => read item = .ok result) items results := by
  induction items generalizing results with
  | nil => simp [pure, Except.pure, eq_comm]
  | cons item rest ih =>
    simp only [List.mapM_cons, bind_eq_ok, pure_eq_ok, ih, List.forall₂_cons_left_iff]
    constructor
    · rintro ⟨value, first, values, others, rfl⟩
      exact ⟨value, values, first, others, rfl⟩
    · rintro ⟨value, values, first, others, rfl⟩
      exact ⟨value, first, values, others, rfl⟩

theorem mapM_eq_some {items : List α} {read : α → Option β} {results : List β} :
    items.mapM read = some results ↔ List.Forall₂ (fun item result => read item = some result) items results := by
  induction items generalizing results with
  | nil => simp [eq_comm]
  | cons item rest ih =>
    simp only [List.mapM_cons, Option.bind_eq_bind, Option.bind_eq_some_iff, Option.pure_def, Option.some.injEq, ih,
      List.forall₂_cons_left_iff]
    constructor
    · rintro ⟨value, first, values, others, rfl⟩
      exact ⟨value, values, first, others, rfl⟩
    · rintro ⟨value, values, first, others, rfl⟩
      exact ⟨value, first, values, others, rfl⟩

theorem forall₂_partners {related : α → β → Prop} {items : List α} {others : List β}
    (pairs : List.Forall₂ related items others) :
    (∀ item ∈ items, ∃ other ∈ others, related item other) ∧ ∀ other ∈ others, ∃ item ∈ items, related item other := by
  induction pairs with
  | nil => exact ⟨by simp, by simp⟩
  | cons own _ ih =>
    constructor
    · intro item member
      rcases List.mem_cons.1 member with rfl | later
      · exact ⟨_, List.mem_cons_self, own⟩
      · obtain ⟨other, inside, related⟩ := ih.1 item later
        exact ⟨other, List.mem_cons_of_mem _ inside, related⟩
    · intro other member
      rcases List.mem_cons.1 member with rfl | later
      · exact ⟨_, List.mem_cons_self, own⟩
      · obtain ⟨item, inside, related⟩ := ih.2 other later
        exact ⟨item, List.mem_cons_of_mem _ inside, related⟩

theorem map_eq_of_forall₂ {γ : Type} {related : α → β → Prop} {first : α → γ} {second : β → γ} {items : List α}
    {others : List β} (pairs : List.Forall₂ related items others)
    (same : ∀ item other, related item other → first item = second other) : items.map first = others.map second := by
  rw [← List.forall₂_eq_eq_eq, List.forall₂_map_left_iff, List.forall₂_map_right_iff]
  exact pairs.imp same

theorem forall₂_of_map_eq {γ : Type} {first : α → γ} {second : β → γ} {related : α → β → Prop}
    {items : List α} {others : List β} (same : items.map first = others.map second)
    (each : ∀ item ∈ items, ∀ other ∈ others, first item = second other → related item other) :
    List.Forall₂ related items others := by
  induction items generalizing others with
  | nil =>
    rw [List.map_nil, eq_comm, List.map_eq_nil_iff] at same
    rw [same]
    exact .nil
  | cons item rest ih =>
    cases others with
    | nil => cases same
    | cons other more =>
      obtain ⟨equal, others⟩ := List.cons.inj same
      refine .cons (each item List.mem_cons_self other List.mem_cons_self equal) (ih others ?_)
      intro item member other inside
      exact each item (List.mem_cons_of_mem _ member) other (List.mem_cons_of_mem _ inside)

/-- What was read from a list was read from an entry of it. -/
theorem mem_of_mapM {items : List α} {read : α → Except ε β} {results : List β} {result : β}
    (done : items.mapM read = .ok results) (member : result ∈ results) : ∃ item ∈ items, read item = .ok result :=
  (forall₂_partners (mapM_eq_ok.1 done)).2 result member

/-- The first item of a list of which something does not hold. -/
def FirstWithout (holds : α → Prop) (items : List α) (item : α) : Prop :=
  ∃ before after, items = before ++ item :: after ∧ (∀ other ∈ before, holds other) ∧ ¬ holds item

theorem not_firstWithout_nil {holds : α → Prop} {item : α} : ¬ FirstWithout holds [] item := by
  rintro ⟨before, after, split, _⟩
  simp at split

theorem firstWithout_cons {holds : α → Prop} {head item : α} {rest : List α} :
    FirstWithout holds (head :: rest) item ↔
      (item = head ∧ ¬ holds head) ∨ (holds head ∧ FirstWithout holds rest item) := by
  constructor
  · rintro ⟨before, after, split, earlier, fails⟩
    cases before with
    | nil =>
      obtain ⟨rfl, _⟩ := List.cons.inj split
      exact Or.inl ⟨rfl, fails⟩
    | cons first before =>
      obtain ⟨rfl, same⟩ := List.cons.inj split
      obtain ⟨passed, earlier⟩ := List.forall_mem_cons.1 earlier
      exact Or.inr ⟨passed, before, after, same, earlier, fails⟩
  · rintro (⟨rfl, fails⟩ | ⟨passed, before, after, rfl, earlier, fails⟩)
    · exact ⟨[], rest, rfl, List.forall_mem_nil _, fails⟩
    · exact ⟨head :: before, after, rfl, List.forall_mem_cons.2 ⟨passed, earlier⟩, fails⟩

theorem FirstWithout.mem {holds : α → Prop} {items : List α} {item : α} (first : FirstWithout holds items item) :
    item ∈ items := by
  obtain ⟨before, after, rfl, _⟩ := first
  simp

theorem FirstWithout.not_holds {holds : α → Prop} {items : List α} {item : α} (first : FirstWithout holds items item) :
    ¬ holds item := by
  obtain ⟨_, _, _, _, fails⟩ := first
  exact fails

theorem firstWithout_map {holds : β → Prop} {f : α → β} {items : List α} {found : β} :
    FirstWithout holds (items.map f) found ↔
      ∃ item, FirstWithout (fun item => holds (f item)) items item ∧ f item = found := by
  induction items with
  | nil => simp [not_firstWithout_nil]
  | cons head rest ih =>
    rw [List.map_cons, firstWithout_cons, ih]
    simp only [firstWithout_cons]
    constructor
    · rintro (⟨rfl, fails⟩ | ⟨passed, item, first, same⟩)
      · exact ⟨head, Or.inl ⟨rfl, fails⟩, rfl⟩
      · exact ⟨item, Or.inr ⟨passed, first⟩, same⟩
    · rintro ⟨item, ⟨rfl, fails⟩ | ⟨passed, first⟩, same⟩
      · exact Or.inl ⟨same.symm, fails⟩
      · exact Or.inr ⟨passed, item, first, same⟩

/-- A list that cannot be read fails as its first item that cannot. -/
theorem mapM_eq_error {items : List α} {read : α → Except ε β} {fault : ε} : items.mapM read = .error fault ↔
    ∃ item, FirstWithout (fun item => ∃ result, read item = .ok result) items item ∧ read item = .error fault := by
  induction items with
  | nil => simp [not_firstWithout_nil, pure, Except.pure]
  | cons head rest ih =>
    simp only [List.mapM_cons, bind_eq_error, ih, firstWithout_cons, pure, Except.pure, reduceCtorEq, and_false,
      exists_false, or_false]
    constructor
    · rintro (failed | ⟨value, passed, item, first, failed⟩)
      · exact ⟨head, Or.inl ⟨rfl, by simp [failed]⟩, failed⟩
      · exact ⟨item, Or.inr ⟨⟨value, passed⟩, first⟩, failed⟩
    · rintro ⟨item, ⟨rfl, _⟩ | ⟨⟨value, passed⟩, first⟩, failed⟩
      · exact Or.inl failed
      · exact Or.inr ⟨value, passed, item, first, failed⟩

theorem forM_eq_error {items : List α} {check : α → Except ε Unit} {fault : ε} : items.forM check = .error fault ↔
    ∃ item, FirstWithout (fun item => check item = .ok ()) items item ∧ check item = .error fault := by
  induction items with
  | nil => simp [not_firstWithout_nil, pure, Except.pure]
  | cons head rest ih =>
    rw [List.forM_eq_forM] at ih ⊢
    simp only [List.forM_cons, bind_eq_error, ih, firstWithout_cons]
    constructor
    · rintro (failed | ⟨_, passed, item, first, failed⟩)
      · exact ⟨head, Or.inl ⟨rfl, by simp [failed]⟩, failed⟩
      · exact ⟨item, Or.inr ⟨passed, first⟩, failed⟩
    · rintro ⟨item, ⟨rfl, _⟩ | ⟨passed, first⟩, failed⟩
      · exact Or.inl failed
      · exact Or.inr ⟨(), passed, item, first, failed⟩

theorem foldlM_keeps {step : β → α → Except ε β} {kept : β → Prop}
    (preserves : ∀ state item after, kept state → step state item = .ok after → kept after)
    {items : List α} {state after : β} (initial : kept state)
    (run : items.foldlM step state = .ok after) : kept after := by
  induction items generalizing state with
  | nil => cases run; exact initial
  | cons item rest ih =>
    rw [List.foldlM_cons] at run
    obtain ⟨middle, first, later⟩ := bind_eq_ok.1 run
    exact ih (preserves state item middle initial first) later

end Provenance.Outcome
