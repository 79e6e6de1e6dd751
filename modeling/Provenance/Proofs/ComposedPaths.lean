import Provenance.Flow.Field
import Provenance.Proofs.Outcomes
import Provenance.Proofs.TextPieces

/-! Lookup paths that are put together. A path is followed segment by segment from the value
that the segments before it lead to, so to follow a long path is to follow its parts in turn.
Marks are dropped at the ends of a whole path only; inside it they belong to the names. -/

namespace Provenance.Flow

/-- A part of a value under a segment: the member of an object with this name, or the item of
a list with this number. -/
inductive Child : Json → String → Json → Prop where
  | member {members : List (String × Json)} {name : String} {value : Json}
      (found : Entries.get? name members = some value) : Child (.object members) name value
  | item {items : List Json} {segment : String} {number : Nat} {value : Json}
      (numeral : Text.natBelow? indexLimit segment.toList = some number)
      (listed : items[number]? = some value) : Child (.array items) segment value

/-- The value that a walk along segments comes to. -/
inductive Reaches : Json → List String → Json → Prop where
  | here {data : Json} : Reaches data [] data
  | further {data next value : Json} {segment : String} {rest : List String}
      (child : Child data segment next) (reached : Reaches next rest value) : Reaches data (segment :: rest) value

/-- The first segment of a walk at which the value that it has come to has no part. -/
def StopsAt (data : Json) (segments : List String) (segment : String) : Prop :=
  ∃ before after stop, segments = before ++ segment :: after ∧ Reaches data before stop ∧
    ∀ next, ¬ Child stop segment next

/-- A path without marks at its ends. -/
structure BarePath (path : String) : Prop where
  nonempty : path ≠ ""
  front : path.toList.head? ∉ [some '$', some '.']
  back : path.toList.getLast? ∉ [some '$', some '.']

variable {data next value : Json} {segment name path p q : String} {segments first second rest : List String}

private theorem child?_eq_some : child? data segment = some next ↔ Child data segment next := by
  constructor
  · intro found
    cases data with
    | object members => exact .member found
    | array items =>
      obtain ⟨number, numeral, listed⟩ := Option.bind_eq_some_iff.1 found
      exact .item numeral listed
    | null | bool _ | number _ | string _ => cases found
  · intro child
    cases child with
    | member found => exact found
    | item numeral listed => exact Option.bind_eq_some_iff.2 ⟨_, numeral, listed⟩

private theorem child?_eq_none : child? data segment = none ↔ ∀ next, ¬ Child data segment next := by
  simp only [Option.eq_none_iff_forall_not_mem, Option.mem_def, child?_eq_some]

private theorem reaches_nil : Reaches data [] value ↔ data = value := by
  constructor
  · rintro ⟨⟩
    rfl
  · rintro rfl
    exact .here

private theorem reaches_cons :
    Reaches data (segment :: rest) value ↔ ∃ next, Child data segment next ∧ Reaches next rest value := by
  constructor
  · rintro ⟨⟩
    exact ⟨_, ‹_›, ‹_›⟩
  · rintro ⟨next, child, reached⟩
    exact .further child reached

private theorem not_stopsAt_nil : ¬ StopsAt data [] segment := by
  rintro ⟨before, after, _, split, _⟩
  simp at split

private theorem stopsAt_cons : StopsAt data (name :: rest) segment ↔
    (name = segment ∧ ∀ next, ¬ Child data name next) ∨
      ∃ next, Child data name next ∧ StopsAt next rest segment := by
  constructor
  · rintro ⟨before, after, stop, split, reached, ends⟩
    cases reached with
    | here =>
      obtain ⟨rfl, rfl⟩ := List.cons.inj split
      exact Or.inl ⟨rfl, ends⟩
    | further child reached =>
      obtain ⟨rfl, same⟩ := List.cons.inj split
      exact Or.inr ⟨_, child, _, after, stop, same, reached, ends⟩
  · rintro (⟨rfl, ends⟩ | ⟨next, child, before, after, stop, rfl, reached, ends⟩)
    · exact ⟨[], rest, data, rfl, .here, ends⟩
    · exact ⟨name :: before, after, stop, rfl, .further child reached, ends⟩

theorem descend_eq_ok : descend data segments = .ok value ↔ Reaches data segments value := by
  induction segments generalizing data with
  | nil => rw [descend, reaches_nil, Except.ok.injEq]
  | cons name rest ih =>
    rw [descend, reaches_cons]
    cases found : child? data name with
    | none => simp [child?_eq_none.1 found]
    | some next => simp [← child?_eq_some, found, ih]

theorem descend_eq_error : descend data segments = .error segment ↔ StopsAt data segments segment := by
  induction segments generalizing data with
  | nil => simp [descend, not_stopsAt_nil]
  | cons name rest ih =>
    rw [descend, stopsAt_cons]
    cases found : child? data name with
    | none => simp [child?_eq_none.1 found]
    | some next => simp [← child?_eq_some, found, ih]

/-- A walk goes on where its first part ends. -/
theorem descend_append : descend data (first ++ second) = descend data first >>= (descend · second) := by
  induction first generalizing data with
  | nil => rfl
  | cons name rest ih =>
    rw [List.cons_append, descend, descend]
    cases child? data name with
    | none => rfl
    | some next => exact ih

theorem lookup_eq_ok : lookup data path = .ok value ↔ descend data (pathSegments path) = .ok value := by
  rw [lookup]
  cases descend data (pathSegments path) <;> simp

theorem lookup_eq_error {fault : Failure} : lookup data path = .error fault ↔
    ∃ segment, descend data (pathSegments path) = .error segment ∧ fault = .missingInputReference path segment := by
  rw [lookup]
  cases descend data (pathSegments path) <;> simp [eq_comm]

namespace BarePath

private theorem unmarked {letter : Char} (bare : some letter ∉ [some '$', some '.']) : isPathMark letter = false := by
  simpa [isPathMark] using bare

/-- Marks before a bare path are dropped, and the dots inside it cut it. -/
private theorem segments_after {marks : String} (bare : BarePath path)
    (marked : ∀ mark ∈ marks.toList, isPathMark mark = true) :
    pathSegments (marks ++ path) = Text.pieces '.' path := by
  have inner : Text.trim isPathMark (marks ++ path).toList = path.toList := by
    rw [String.toList_append]
    apply Text.trim_append marked
    · exact fun letter found => unmarked (found ▸ bare.front)
    · exact fun letter found => unmarked (found ▸ bare.back)
  have inhabited : path.toList.isEmpty = false := by
    simpa using bare.nonempty
  rw [pathSegments, inner]
  simp only [inhabited, Bool.false_eq_true, if_false, Text.pieces]

private theorem pathSegments_eq (bare : BarePath path) : pathSegments path = Text.pieces '.' path := by
  have alone : pathSegments ("" ++ path) = Text.pieces '.' path := bare.segments_after (by simp)
  rwa [String.empty_append] at alone

private theorem joined (bare : BarePath p) (other : BarePath q) : BarePath (p ++ "." ++ q) := by
  have inhabited : p.toList ≠ [] := by simpa using bare.nonempty
  have inhabited' : q.toList ≠ [] := by simpa using other.nonempty
  have front : (p ++ "." ++ q).toList.head? = p.toList.head? := by
    rw [String.append_assoc, String.toList_append, List.head?_append_of_ne_nil _ inhabited]
  have back : (p ++ "." ++ q).toList.getLast? = q.toList.getLast? := by
    rw [String.toList_append, List.getLast?_append_of_ne_nil _ inhabited']
  refine ⟨?_, ?_, ?_⟩
  · intro empty
    exact other.nonempty (String.append_eq_empty_iff.1 empty).2
  · rw [front]
    exact bare.front
  · rw [back]
    exact other.back

private theorem segments_joined (bare : BarePath p) (other : BarePath q) :
    pathSegments ("$." ++ p ++ "." ++ q) = Text.pieces '.' (p ++ "." ++ q) := by
  have whole : "$." ++ p ++ "." ++ q = "$." ++ (p ++ "." ++ q) := by simp only [String.append_assoc]
  rw [whole]
  exact (bare.joined other).segments_after (by simp [isPathMark])

private theorem descend_joined (bare : BarePath p) (other : BarePath q) :
    descend data (Text.pieces '.' (p ++ "." ++ q)) =
      descend data (pathSegments p) >>= (descend · (pathSegments q)) := by
  have dot : "." = String.singleton '.' := by decide
  rw [dot, Text.pieces_joined, descend_append, bare.pathSegments_eq, other.pathSegments_eq]

end BarePath

/-- A path that is put together is followed part by part: its second part from the value that
the first one leads to. It leads nowhere exactly where one of the parts does, and the fault
names the whole path and the first segment that is missing. -/
theorem joined_paths_are_followed_in_turn (data : Json) (p q : String) (bare : BarePath p) (other : BarePath q) :
    (∀ value, lookup data ("$." ++ p ++ "." ++ q) = .ok value ↔
      ∃ middle, lookup data p = .ok middle ∧ lookup middle q = .ok value) ∧
    ∃ segments, Text.Cut '.' (p ++ "." ++ q) segments ∧
      (∀ value, lookup data ("$." ++ p ++ "." ++ q) = .ok value ↔ Reaches data segments value) ∧
      (∀ fault, lookup data ("$." ++ p ++ "." ++ q) = .error fault ↔
        ∃ segment, StopsAt data segments segment ∧ fault = .missingInputReference ("$." ++ p ++ "." ++ q) segment) ∧
      ∀ segment, StopsAt data segments segment ↔
        lookup data p = .error (.missingInputReference p segment) ∨
          ∃ middle, lookup data p = .ok middle ∧ lookup middle q = .error (.missingInputReference q segment) := by
  have whole := bare.segments_joined other
  refine ⟨?_, Text.pieces '.' (p ++ "." ++ q), Text.pieces_cut '.' _, ?_, ?_, ?_⟩
  · intro value
    simp only [lookup_eq_ok, whole, bare.descend_joined other, Outcome.bind_eq_ok]
  · intro value
    rw [lookup_eq_ok, whole, descend_eq_ok]
  · intro fault
    simp only [lookup_eq_error, whole, descend_eq_error]
  · intro segment
    rw [← descend_eq_error, bare.descend_joined other, Outcome.bind_eq_error]
    simp only [lookup_eq_ok, lookup_eq_error, Failure.missingInputReference.injEq, true_and, exists_eq_right']

/-- A document with a list of files. -/
def listedFiles : Json :=
  .object [("input", .object [("files", .array [.object [("name", .string "text")], .null])])]

theorem first_file_is_found_and_the_second_has_no_name :
    BarePath "input.files" ∧ BarePath "0.name" ∧ BarePath "1.name" ∧
    lookup listedFiles "$.input.files.0.name" = .ok (.string "text") ∧
    lookup listedFiles "$.input.files.1.name" = .error (.missingInputReference "$.input.files.1.name" "name") := by
  have bare : BarePath "input.files" := ⟨by decide, by decide, by decide⟩
  have first : BarePath "0.name" := ⟨by decide, by decide, by decide⟩
  have second : BarePath "1.name" := ⟨by decide, by decide, by decide⟩
  obtain ⟨found, _⟩ := joined_paths_are_followed_in_turn listedFiles "input.files" "0.name" bare first
  obtain ⟨_, segments, _, _, missing, parts⟩ :=
    joined_paths_are_followed_in_turn listedFiles "input.files" "1.name" bare second
  have stops : StopsAt listedFiles segments "name" := (parts "name").2 (Or.inr ⟨_, rfl, rfl⟩)
  exact ⟨bare, first, second, (found _).2 ⟨_, rfl, rfl⟩, (missing _).2 ⟨"name", stops, rfl⟩⟩

end Provenance.Flow
