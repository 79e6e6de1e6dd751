/-! Maps keyed by text that remember the order in which keys were first written.
Writing a present key keeps its place. -/

namespace Provenance

namespace Entries

variable {α : Type}

def get? (key : String) : List (String × α) → Option α
  | [] => none
  | (k, v) :: rest => if k = key then some v else get? key rest

def insert (key : String) (value : α) : List (String × α) → List (String × α)
  | [] => [(key, value)]
  | (k, v) :: rest => if k = key then (k, value) :: rest else (k, v) :: insert key value rest

/-- Writes the pairs one after the other into an empty map. -/
def collect (pairs : List (String × α)) : List (String × α) :=
  pairs.foldl (fun entries pair => insert pair.1 pair.2 entries) []

theorem isSome_get?_iff {key : String} {entries : List (String × α)} :
    (get? key entries).isSome ↔ key ∈ entries.map Prod.fst := by
  induction entries with
  | nil => simp [get?]
  | cons entry rest ih =>
    obtain ⟨k, v⟩ := entry
    by_cases same : k = key
    · simp [get?, same]
    · simp only [get?, if_neg same, List.map_cons, List.mem_cons, ih]
      exact ⟨Or.inr, fun member => member.resolve_left (Ne.symm same)⟩

theorem mem_keys_insert {key other : String} {value : α} {entries : List (String × α)} :
    other ∈ (insert key value entries).map Prod.fst ↔
      other = key ∨ other ∈ entries.map Prod.fst := by
  induction entries with
  | nil => simp [insert]
  | cons entry rest ih =>
    obtain ⟨k, v⟩ := entry
    by_cases same : k = key
    · simp [insert, same]
    · simp only [insert, if_neg same, List.map_cons, List.mem_cons, ih]
      constructor
      · rintro (h | h | h) <;> simp [h]
      · rintro (h | h | h) <;> simp [h]

theorem nodup_insert {key : String} {value : α} {entries : List (String × α)}
    (distinct : (entries.map Prod.fst).Nodup) :
    ((insert key value entries).map Prod.fst).Nodup := by
  induction entries with
  | nil => simp [insert]
  | cons entry rest ih =>
    obtain ⟨k, v⟩ := entry
    by_cases same : k = key
    · simpa only [insert, if_pos same, List.map_cons] using distinct
    · simp only [List.map_cons, List.nodup_cons] at distinct
      simp only [insert, if_neg same, List.map_cons, List.nodup_cons, mem_keys_insert, not_or]
      exact ⟨⟨same, distinct.1⟩, ih distinct.2⟩

theorem nodup_collect (pairs : List (String × α)) :
    ((collect pairs).map Prod.fst).Nodup := by
  have grow : ∀ (pairs entries : List (String × α)), (entries.map Prod.fst).Nodup →
      ((pairs.foldl (fun entries pair => insert pair.1 pair.2 entries) entries).map
        Prod.fst).Nodup := by
    intro pairs
    induction pairs with
    | nil => intro entries distinct; exact distinct
    | cons pair rest ih => intro entries distinct; exact ih _ (nodup_insert distinct)
  exact grow pairs [] List.nodup_nil

end Entries

structure OrderedMap (α : Type) where
  entries : List (String × α) := []
  distinct : (entries.map Prod.fst).Nodup := by exact List.nodup_nil

namespace OrderedMap

variable {α β : Type}

instance : Inhabited (OrderedMap α) := ⟨{}⟩

def get? (m : OrderedMap α) (key : String) : Option α :=
  Entries.get? key m.entries

def contains (m : OrderedMap α) (key : String) : Bool :=
  (m.get? key).isSome

def insert (m : OrderedMap α) (key : String) (value : α) : OrderedMap α :=
  ⟨Entries.insert key value m.entries, Entries.nodup_insert m.distinct⟩

def ofList (pairs : List (String × α)) : OrderedMap α :=
  ⟨Entries.collect pairs, Entries.nodup_collect pairs⟩

/-- Changes the value under a key, or writes `change none` under a new one. -/
def alter (m : OrderedMap α) (key : String) (change : Option α → α) : OrderedMap α :=
  m.insert key (change (m.get? key))

/-- The values written under each key, in order. -/
def groups (pairs : List (String × α)) : OrderedMap (List α) :=
  pairs.foldl (fun m pair => m.alter pair.1 fun old => old.getD [] ++ [pair.2]) {}

def keys (m : OrderedMap α) : List String := m.entries.map Prod.fst

theorem isSome_get?_iff {m : OrderedMap α} {key : String} :
    (m.get? key).isSome ↔ key ∈ m.keys :=
  Entries.isSome_get?_iff

def values (m : OrderedMap α) : List α := m.entries.map Prod.snd

def size (m : OrderedMap α) : Nat := m.entries.length

def isEmpty (m : OrderedMap α) : Bool := m.entries.isEmpty

end OrderedMap

end Provenance
