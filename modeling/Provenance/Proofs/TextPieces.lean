import Mathlib.Data.List.Basic
import Provenance.Text.Chars

/-! Texts between separators. Every text is cut into pieces in one way, and a text that is
joined with a separator has the pieces of both its parts. -/

namespace Provenance.Text

/-- The pieces of a text between separators, as texts. -/
def pieces (separator : Char) (text : String) : List String :=
  (split separator text.toList).map String.ofList

/-- A list of pieces that the separator joins to a text, and that it does not occur in. -/
structure Cut (separator : Char) (text : String) (parts : List String) : Prop where
  joined : (String.singleton separator).intercalate parts = text
  clear : ∀ part ∈ parts, separator ∉ part.toList
  inhabited : parts ≠ []

variable {separator : Char} {text first second : String} {drop : Char → Bool} {letters : List Char}

theorem split_eq (separator : Char) (letters : List Char) : split separator letters = letters.splitOn separator := by
  induction letters with
  | nil => rfl
  | cons letter rest ih =>
    rw [split, List.splitOn_cons_eq_if_modifyHead, ih]
    by_cases same : letter = separator
    · rw [if_pos same, if_pos (beq_iff_eq.2 same)]
    · rw [if_neg same, if_neg (mt beq_iff_eq.1 same)]
      cases cut : rest.splitOn separator with
      | nil => exact absurd cut (List.splitOn_ne_nil separator rest)
      | cons piece others => rfl

private theorem split_clear (separator : Char) (letters : List Char) :
    ∀ piece ∈ split separator letters, separator ∉ piece := by
  induction letters with
  | nil => simp [split]
  | cons letter rest ih =>
    rw [split]
    by_cases same : letter = separator
    · rw [if_pos same]
      exact List.forall_mem_cons.2 ⟨List.not_mem_nil, ih⟩
    · rw [if_neg same]
      cases cut : split separator rest with
      | nil => exact List.forall_mem_singleton.2 (mt List.mem_singleton.1 (Ne.symm same))
      | cons piece others =>
        rw [cut] at ih
        obtain ⟨clear, later⟩ := List.forall_mem_cons.1 ih
        exact List.forall_mem_cons.2 ⟨mt List.mem_cons.1 (not_or.2 ⟨Ne.symm same, clear⟩), later⟩

theorem pieces_cut (separator : Char) (text : String) : Cut separator text (pieces separator text) := by
  refine ⟨?_, ?_, ?_⟩
  · have letters : (pieces separator text).map String.toList = text.toList.splitOn separator := by
      rw [pieces, split_eq, List.map_map]
      exact List.map_id'' (fun _ => String.toList_ofList) _
    rw [← String.toList_inj, String.toList_intercalate, letters, String.toList_singleton]
    exact List.intercalate_splitOn separator
  · intro part member
    obtain ⟨piece, inside, rfl⟩ := List.mem_map.1 member
    rw [String.toList_ofList]
    exact split_clear separator text.toList piece inside
  · rw [pieces, split_eq]
    exact mt List.map_eq_nil_iff.1 (List.splitOn_ne_nil separator _)

theorem Cut.unique {parts : List String} (cut : Cut separator text parts) : parts = pieces separator text := by
  have letters : text.toList = [separator].intercalate (parts.map String.toList) := by
    rw [← cut.joined, String.toList_intercalate, String.toList_singleton]
  have clear : ∀ part ∈ parts.map String.toList, separator ∉ part := by
    intro _ member
    obtain ⟨part, inside, rfl⟩ := List.mem_map.1 member
    exact cut.clear part inside
  rw [pieces, split_eq, letters, List.splitOn_intercalate _ clear (mt List.map_eq_nil_iff.1 cut.inhabited), List.map_map]
  exact (List.map_id'' (fun _ => String.ofList_toList) _).symm

theorem Cut.append {parts others : List String} (cut : Cut separator first parts) (after : Cut separator second others) :
    Cut separator (first ++ String.singleton separator ++ second) (parts ++ others) := by
  refine ⟨?_, List.forall_mem_append.2 ⟨cut.clear, after.clear⟩, ?_⟩
  · rw [String.intercalate_append_of_ne_nil cut.inhabited after.inhabited, cut.joined, after.joined]
  · exact List.append_ne_nil_of_left_ne_nil cut.inhabited others

theorem pieces_joined : pieces separator (first ++ String.singleton separator ++ second) =
    pieces separator first ++ pieces separator second :=
  ((pieces_cut separator first).append (pieces_cut separator second)).unique.symm

theorem pieces_injective (separator : Char) : Function.Injective (pieces separator) := by
  intro first second same
  rw [← (pieces_cut separator first).joined, same, (pieces_cut separator second).joined]

/-- There is one more piece than there are separators. -/
theorem length_pieces : (pieces separator text).length = text.toList.count separator + 1 := by
  rw [pieces, List.length_map]
  induction text.toList with
  | nil => rfl
  | cons letter rest ih =>
    rw [split]
    by_cases same : letter = separator
    · rw [if_pos same, List.length_cons, ih, same, List.count_cons_self]
    · rw [if_neg same, List.count_cons_of_ne same, ← ih]
      cases cut : split separator rest with
      | nil => exact absurd cut (split_eq separator rest ▸ List.splitOn_ne_nil separator rest)
      | cons piece others => rfl

private theorem dropWhile_eq_self (front : ∀ letter, letters.head? = some letter → drop letter = false) :
    letters.dropWhile drop = letters := by
  cases letters with
  | nil => rfl
  | cons letter rest => exact List.dropWhile_cons_of_neg (Bool.eq_false_iff.1 (front letter rfl))

/-- Trimming stops at both ends of a text at once when neither is in the class. -/
theorem trim_append {marks : List Char} (marked : ∀ mark ∈ marks, drop mark = true)
    (front : ∀ letter, letters.head? = some letter → drop letter = false)
    (back : ∀ letter, letters.getLast? = some letter → drop letter = false) :
    trim drop (marks ++ letters) = letters := by
  rw [← List.head?_reverse] at back
  rw [trim, List.dropWhile_append_of_pos marked, dropWhile_eq_self front, dropWhile_eq_self back, List.reverse_reverse]

end Provenance.Text
