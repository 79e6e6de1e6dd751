import Mathlib.Data.List.Count
import Mathlib.Data.List.Induction
import Mathlib.Data.List.Nodup
import Mathlib.Data.List.Perm.Subperm
import Provenance.OrderedMap

/-! Ordered maps seen through their look-ups and their keys. Writing touches one
key, and only a new key changes their order, by coming last. -/

namespace Provenance

variable {α : Type}

theorem eraseDups_concat [DecidableEq α] (items : List α) (item : α) :
    (items ++ [item]).eraseDups = if item ∈ items then items.eraseDups else items.eraseDups ++ [item] := by
  rw [List.eraseDups_append]
  split
  next old => simp [List.removeAll, old]
  next new => simp [List.removeAll, new, List.eraseDups_cons]

theorem nodup_eraseDups [DecidableEq α] (items : List α) : items.eraseDups.Nodup := by
  induction items using List.reverseRecOn with
  | nil => exact List.nodup_nil
  | append_singleton items item ih =>
    rw [eraseDups_concat]
    split
    next => exact ih
    next new =>
      rw [← List.concat_eq_append]
      exact ih.concat (List.mem_eraseDups.not.2 new)

theorem length_eraseDups_iff [DecidableEq α] {items : List α} : items.eraseDups.length = items.length ↔ items.Nodup := by
  constructor
  · intro same
    have part := (nodup_eraseDups items).subperm fun _ => List.mem_eraseDups.1
    exact (part.perm_of_length_le (Nat.le_of_eq same.symm)).nodup_iff.1 (nodup_eraseDups items)
  · intro distinct
    have same : items.eraseDups.Perm items :=
      (List.perm_ext_iff_of_nodup (nodup_eraseDups items) distinct).2 fun _ => List.mem_eraseDups
    exact same.length_eq

/-- Some items can stand for all, if they occur once and the others give nothing. -/
theorem flatMap_perm_of_count {β : Type} [DecidableEq α] {items all : List α} {f : α → List β} (distinct : items.Nodup)
    (once : ∀ item ∈ items, all.count item = 1) (others : ∀ item ∈ all, item ∉ items → f item = []) :
    (all.flatMap f).Perm (items.flatMap f) := by
  have inside : (all.filter (· ∈ items)).Perm items := by
    rw [List.perm_iff_count]
    intro item
    by_cases member : item ∈ items
    · have kept : (all.filter (· ∈ items)).count item = all.count item := List.count_filter (decide_eq_true member)
      rw [kept, once item member, List.count_eq_one_of_mem distinct member]
    · rw [List.count_eq_zero.2 member, List.count_eq_zero.2]
      simp [member]
  have outside : (all.filter fun item => !decide (item ∈ items)).flatMap f = [] := by
    simp only [List.flatMap_eq_nil_iff, List.mem_filter, Bool.not_eq_true', decide_eq_false_iff_not]
    exact fun item ⟨member, absent⟩ => others item member absent
  have parts := (List.filter_append_perm (· ∈ items) all).symm.flatMap_right f
  rw [List.flatMap_append, outside, List.append_nil] at parts
  exact parts.trans (inside.flatMap_right f)

namespace Entries

theorem get?_insert {key other : String} {value : α} {entries : List (String × α)} :
    get? other (insert key value entries) = if key = other then some value else get? other entries := by
  induction entries with
  | nil => rfl
  | cons entry rest ih =>
    obtain ⟨k, v⟩ := entry
    by_cases same : k = key
    · subst same
      by_cases asked : k = other <;> simp [insert, get?, asked]
    · by_cases asked : k = other
      · subst asked
        simp [insert, get?, same, Ne.symm same]
      · simp [insert, get?, same, asked, ih]

theorem keys_insert {key : String} {value : α} {entries : List (String × α)} :
    (insert key value entries).map Prod.fst =
      if key ∈ entries.map Prod.fst then entries.map Prod.fst else entries.map Prod.fst ++ [key] := by
  induction entries with
  | nil => rfl
  | cons entry rest ih =>
    obtain ⟨k, v⟩ := entry
    by_cases same : k = key
    · simp [insert, same]
    · have apart : key ≠ k := Ne.symm same
      simp only [insert, if_neg same, List.map_cons, ih, List.mem_cons, apart, false_or]
      split <;> rfl

theorem get?_eq_none_iff {key : String} {entries : List (String × α)} :
    get? key entries = none ↔ key ∉ entries.map Prod.fst := by
  rw [← isSome_get?_iff, Option.not_isSome_iff_eq_none]

theorem mem_of_get? {key : String} {value : α} {entries : List (String × α)}
    (found : get? key entries = some value) : (key, value) ∈ entries := by
  induction entries with
  | nil => cases found
  | cons entry rest ih =>
    obtain ⟨k, v⟩ := entry
    by_cases same : k = key
    · simp only [get?, if_pos same, Option.some.injEq] at found
      simp [same, found]
    · simp only [get?, if_neg same] at found
      exact List.mem_cons_of_mem _ (ih found)

theorem get?_eq_some_iff {key : String} {value : α} {entries : List (String × α)}
    (distinct : (entries.map Prod.fst).Nodup) : get? key entries = some value ↔ (key, value) ∈ entries := by
  refine ⟨mem_of_get?, fun member => ?_⟩
  induction entries with
  | nil => cases member
  | cons entry rest ih =>
    obtain ⟨k, v⟩ := entry
    simp only [List.map_cons, List.nodup_cons] at distinct
    rcases List.mem_cons.1 member with same | later
    · cases same
      simp [get?]
    · have apart : k ≠ key := by
        rintro rfl
        exact distinct.1 (List.mem_map.2 ⟨_, later, rfl⟩)
      simpa only [get?, if_neg apart] using ih distinct.2 later

theorem insert_of_not_mem {key : String} {value : α} {entries : List (String × α)}
    (absent : key ∉ entries.map Prod.fst) : insert key value entries = entries ++ [(key, value)] := by
  induction entries with
  | nil => rfl
  | cons entry rest ih =>
    obtain ⟨k, v⟩ := entry
    simp only [List.map_cons, List.mem_cons, not_or] at absent
    simp [insert, Ne.symm absent.1, ih absent.2]

theorem collect_of_nodup {pairs : List (String × α)} (distinct : (pairs.map Prod.fst).Nodup) :
    collect pairs = pairs := by
  have grow : ∀ (later earlier : List (String × α)), ((earlier ++ later).map Prod.fst).Nodup →
      later.foldl (fun entries pair => insert pair.1 pair.2 entries) earlier = earlier ++ later := by
    intro later
    induction later with
    | nil => simp
    | cons pair rest ih =>
      intro earlier distinct
      have absent : pair.1 ∉ earlier.map Prod.fst := by
        simp only [List.map_append, List.map_cons, List.nodup_append, List.mem_cons] at distinct
        exact fun member => distinct.2.2 _ member _ (Or.inl rfl) rfl
      rw [List.foldl_cons, insert_of_not_mem absent, ih _ (by simpa using distinct)]
      simp
  simpa [collect] using grow pairs [] (by simpa using distinct)

theorem mem_of_mem_insert {key : String} {value : α} {entries : List (String × α)}
    {entry : String × α} (member : entry ∈ insert key value entries) : entry = (key, value) ∨ entry ∈ entries := by
  induction entries with
  | nil => exact Or.inl (List.mem_singleton.1 member)
  | cons head rest ih =>
    unfold insert at member
    split at member
    next same =>
      rw [same] at member
      exact (List.mem_cons.1 member).imp_right (List.mem_cons_of_mem _)
    next =>
      rcases List.mem_cons.1 member with rfl | later
      · exact Or.inr List.mem_cons_self
      · exact (ih later).imp_right (List.mem_cons_of_mem _)

theorem collect_concat (pairs : List (String × α)) (pair : String × α) :
    collect (pairs ++ [pair]) = insert pair.1 pair.2 (collect pairs) := by
  rw [collect, List.foldl_append]
  rfl

/-- Of several values written under one key the last is found. -/
theorem get?_collect (key : String) (pairs : List (String × α)) :
    get? key (collect pairs) = ((pairs.filter (·.1 = key)).getLast?).map Prod.snd := by
  induction pairs using List.reverseRecOn with
  | nil => rfl
  | append_singleton pairs pair ih =>
    rw [collect_concat, get?_insert, ih, List.filter_append]
    by_cases same : pair.1 = key <;> simp [same]

theorem get?_collect_append (key : String) (earlier later : List (String × α)) :
    get? key (collect (earlier ++ later)) = (get? key (collect later)).or (get? key (collect earlier)) := by
  simp only [get?_collect, List.filter_append, List.getLast?_append, Option.map_or]

theorem mem_of_mem_collect {pairs : List (String × α)} {entry : String × α} (member : entry ∈ collect pairs) :
    entry ∈ pairs := by
  induction pairs using List.reverseRecOn with
  | nil => cases member
  | append_singleton pairs pair ih =>
    rw [collect_concat] at member
    rcases mem_of_mem_insert member with rfl | old
    · exact List.mem_append_right _ (List.mem_singleton_self _)
    · exact List.mem_append_left _ (ih old)

theorem insert_of_get? {key : String} {value : α} {entries : List (String × α)}
    (found : get? key entries = some value) : insert key value entries = entries := by
  induction entries with
  | nil => cases found
  | cons entry rest ih =>
    obtain ⟨k, v⟩ := entry
    by_cases same : k = key
    · simp only [get?, if_pos same, Option.some.injEq] at found
      simp [insert, same, found]
    · simp only [get?, if_neg same] at found
      simp [insert, same, ih found]

/-- Every value changed, with its key in view. -/
def mapped {β : Type} (f : String → α → β) (entries : List (String × α)) : List (String × β) :=
  entries.map fun entry => (entry.1, f entry.1 entry.2)

theorem get?_mapped {β : Type} (f : String → α → β) (key : String) (entries : List (String × α)) :
    get? key (mapped f entries) = (get? key entries).map (f key) := by
  induction entries with
  | nil => rfl
  | cons entry rest ih =>
    obtain ⟨k, v⟩ := entry
    by_cases same : k = key
    · subst same
      simp [mapped, get?]
    · simpa [mapped, get?, same] using ih

theorem mapped_insert {β : Type} (f : String → α → β) (key : String) (value : α) (entries : List (String × α)) :
    mapped f (insert key value entries) = insert key (f key value) (mapped f entries) := by
  induction entries with
  | nil => rfl
  | cons entry rest ih =>
    obtain ⟨k, v⟩ := entry
    by_cases same : k = key
    · subst same
      simp [mapped, insert]
    · simpa [mapped, insert, same] using ih

theorem mapped_collect {β : Type} (f : String → α → β) (pairs : List (String × α)) :
    mapped f (collect pairs) = collect (mapped f pairs) := by
  induction pairs using List.reverseRecOn with
  | nil => rfl
  | append_singleton pairs pair ih =>
    have split : mapped f (pairs ++ [pair]) = mapped f pairs ++ [(pair.1, f pair.1 pair.2)] := List.map_append
    rw [collect_concat, mapped_insert, ih, split, collect_concat]

theorem mem_keys_collect {pairs : List (String × α)} {key : String} :
    key ∈ (collect pairs).map Prod.fst ↔ key ∈ pairs.map Prod.fst := by
  induction pairs using List.reverseRecOn with
  | nil => exact Iff.rfl
  | append_singleton pairs pair ih => simp [collect_concat, mem_keys_insert, ih, or_comm]

def listed (entries : List (String × List α)) : List (String × α) :=
  entries.flatMap fun entry => entry.2.map (Prod.mk entry.1)

theorem listed_insert (key : String) (value : α) (entries : List (String × List α)) :
    (listed (insert key ((get? key entries).getD [] ++ [value]) entries)).Perm (listed entries ++ [(key, value)]) := by
  induction entries with
  | nil => exact .refl _
  | cons entry rest ih =>
    obtain ⟨k, values⟩ := entry
    by_cases same : k = key
    · subst same
      have moved : ([(k, value)] ++ listed rest).Perm (listed rest ++ [(k, value)]) := List.perm_append_comm
      simpa [listed, insert, get?] using moved.append_left (values.map (Prod.mk k))
    · simpa [listed, insert, get?, same] using ih.append_left (values.map (Prod.mk k))

end Entries

namespace OrderedMap

theorem get?_eq_some_iff {m : OrderedMap α} {key : String} {value : α} :
    m.get? key = some value ↔ (key, value) ∈ m.entries :=
  Entries.get?_eq_some_iff m.distinct

theorem get?_eq_none_iff {m : OrderedMap α} {key : String} : m.get? key = none ↔ key ∉ m.keys :=
  Entries.get?_eq_none_iff

/-- Where an entry stands does not matter for looking it up. -/
theorem get?_perm {m other : OrderedMap α} (reordered : m.entries.Perm other.entries) (key : String) :
    m.get? key = other.get? key := by
  ext value
  rw [get?_eq_some_iff, get?_eq_some_iff, reordered.mem_iff]

theorem get?_insert {m : OrderedMap α} {key other : String} {value : α} :
    (m.insert key value).get? other = if key = other then some value else m.get? other :=
  Entries.get?_insert

theorem keys_insert {m : OrderedMap α} {key : String} {value : α} :
    (m.insert key value).keys = if key ∈ m.keys then m.keys else m.keys ++ [key] :=
  Entries.keys_insert

theorem get?_alter {m : OrderedMap α} {key other : String} {change : Option α → α} :
    (m.alter key change).get? other =
      if key = other then some (change (m.get? key)) else m.get? other :=
  get?_insert

theorem keys_alter {m : OrderedMap α} {key : String} {change : Option α → α} :
    (m.alter key change).keys = if key ∈ m.keys then m.keys else m.keys ++ [key] :=
  keys_insert

theorem entries_ofList {pairs : List (String × α)} (distinct : (pairs.map Prod.fst).Nodup) :
    (ofList pairs).entries = pairs :=
  Entries.collect_of_nodup distinct

/-- Keys stand in the order of their first writing. -/
theorem keys_insert_after {m : OrderedMap α} {earlier : List String} (written : m.keys = earlier.eraseDups)
    (key : String) (value : α) : (m.insert key value).keys = (earlier ++ [key]).eraseDups := by
  rw [keys_insert, eraseDups_concat, written]
  simp only [List.mem_eraseDups]

theorem keys_ofList (pairs : List (String × α)) : (ofList pairs).keys = (pairs.map Prod.fst).eraseDups := by
  have insert : ∀ pairs : List (String × α), ∀ pair,
      ofList (pairs ++ [pair]) = (ofList pairs).insert pair.1 pair.2 := by
    intro pairs pair
    unfold ofList OrderedMap.insert
    congr 1
    exact Entries.collect_concat pairs pair
  induction pairs using List.reverseRecOn with
  | nil => rfl
  | append_singleton pairs pair ih =>
    rw [insert, List.map_append]
    exact keys_insert_after ih _ _

/-- Every value of every group with its key. -/
def listed (m : OrderedMap (List α)) : List (String × α) := Entries.listed m.entries

theorem values_flatten (m : OrderedMap (List α)) : m.values.flatten = m.listed.map Prod.snd := by
  simp [values, listed, Entries.listed, List.flatMap_def, Function.comp_def]

private theorem listed_grow (m : OrderedMap (List α)) (key : String) (value : α) :
    (m.alter key fun old => old.getD [] ++ [value]).listed.Perm (m.listed ++ [(key, value)]) :=
  Entries.listed_insert key value m.entries

theorem groups_concat (pairs : List (String × α)) (pair : String × α) :
    groups (pairs ++ [pair]) = (groups pairs).alter pair.1 fun old => old.getD [] ++ [pair.2] := by
  simp [groups]

/-- Grouping keeps every pair, once for each time that it is given. -/
theorem listed_groups (pairs : List (String × α)) : (groups pairs).listed.Perm pairs := by
  induction pairs using List.reverseRecOn with
  | nil => exact .refl _
  | append_singleton pairs pair ih =>
    rw [groups_concat]
    exact (listed_grow _ _ _).trans (ih.append_right [pair])

theorem keys_groups (pairs : List (String × α)) : (groups pairs).keys = (pairs.map Prod.fst).eraseDups := by
  induction pairs using List.reverseRecOn with
  | nil => rfl
  | append_singleton pairs pair ih =>
    rw [groups_concat, List.map_append]
    exact keys_insert_after ih _ _

/-- The group of a key has the values that were given with it, in their order. -/
theorem get?_groups (pairs : List (String × α)) (key : String) :
    ((groups pairs).get? key).getD [] = (pairs.filter (·.1 = key)).map Prod.snd := by
  induction pairs using List.reverseRecOn with
  | nil => rfl
  | append_singleton pairs pair ih =>
    rw [groups_concat, get?_alter, List.filter_append, List.map_append, ← ih]
    by_cases same : pair.1 = key
    · subst same
      simp
    · simp [same]

end OrderedMap

end Provenance
