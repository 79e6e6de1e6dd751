import Mathlib.Data.List.Nodup
import Provenance.Proofs.TextPieces
import Provenance.Tool.Tool

/-! The places of files below their tools. A localized path is the name of the tool, that of
the function and the declared path between slashes, and any of them may have slashes of its
own. So two files have one place exactly when the three together are cut into the same
segments, which files of different functions can be when one name goes on where another ends. -/

namespace Provenance

/-- Everything between the slashes of a localized path. -/
def FileUsage.segments (usage : FileUsage) : List String :=
  Text.pieces '/' usage.tool ++ Text.pieces '/' usage.function ++ Text.pieces '/' usage.declaredPath

/-- As many slashes in the names of the tools, and in those of the functions. -/
def FileUsage.SameSlashes (first second : FileUsage) : Prop :=
  first.tool.toList.count '/' = second.tool.toList.count '/' ∧
    first.function.toList.count '/' = second.function.toList.count '/'

/-- The files that the functions of a tool read and write. -/
def ProvenanceTool.files (tool : ProvenanceTool) : List FileUsage := tool.fileInputs ++ tool.fileOutputs

/-- Names of tools and functions without slashes. -/
def UnslashedNames (tools : List ProvenanceTool) : Prop :=
  ∀ tool ∈ tools, '/' ∉ tool.name.toList ∧ ∀ function ∈ tool.functions.keys, '/' ∉ function.toList

variable {tools : List ProvenanceTool} {tool other : ProvenanceTool} {usage first second : FileUsage}

namespace FileUsage

/-- A file of a tool, put below the tool and one of its functions. -/
structure Below (usage : FileUsage) (tool : ProvenanceTool) : Prop where
  name : usage.tool = tool.name
  declared : usage.function ∈ tool.functions.keys
  localized : usage.localizedPath = usage.tool ++ "/" ++ usage.function ++ "/" ++ usage.declaredPath

private theorem below_of_mem (member : usage ∈ tool.files) : usage.Below tool := by
  have placed : ∀ direction, usage ∈ tool.fileUsages direction → usage.Below tool := by
    intro direction used
    obtain ⟨⟨function, uses⟩, declared, inside⟩ := List.mem_flatMap.1 used
    obtain ⟨_, _, rfl⟩ := List.mem_map.1 inside
    exact ⟨rfl, List.mem_map_of_mem declared, rfl⟩
  rcases List.mem_append.1 member with read | written
  · exact placed .input read
  · exact placed .output written

private theorem Below.pieces (below : usage.Below tool) : Text.pieces '/' usage.localizedPath = usage.segments := by
  have slash : "/" = String.singleton '/' := by decide
  rw [below.localized, slash, Text.pieces_joined, Text.pieces_joined, segments]

theorem Below.localizedPath_eq_iff (below : first.Below tool) (below' : second.Below other) :
    first.localizedPath = second.localizedPath ↔ first.segments = second.segments := by
  rw [← below.pieces, ← below'.pieces]
  exact (Text.pieces_injective '/').eq_iff.symm

/-- The slashes of the names tell where each of them ends. -/
theorem SameSlashes.segments_eq (slashes : first.SameSlashes second) (same : first.segments = second.segments) :
    first.tool = second.tool ∧ first.function = second.function ∧ first.declaredPath = second.declaredPath := by
  have tools : (Text.pieces '/' first.tool).length = (Text.pieces '/' second.tool).length := by
    rw [Text.length_pieces, Text.length_pieces, slashes.1]
  have functions : (Text.pieces '/' first.function).length = (Text.pieces '/' second.function).length := by
    rw [Text.length_pieces, Text.length_pieces, slashes.2]
  rw [segments, segments, List.append_assoc, List.append_assoc] at same
  obtain ⟨tool, later⟩ := List.append_inj same tools
  obtain ⟨function, path⟩ := List.append_inj later functions
  have injective := Text.pieces_injective '/'
  exact ⟨injective tool, injective function, injective path⟩

end FileUsage

private theorem UnslashedNames.sameSlashes (unslashed : UnslashedNames tools) (member : tool ∈ tools)
    (inside : other ∈ tools) (below : first.Below tool) (below' : second.Below other) : first.SameSlashes second := by
  obtain ⟨name, functions⟩ := unslashed tool member
  obtain ⟨name', functions'⟩ := unslashed other inside
  constructor
  · rw [below.name, below'.name, List.count_eq_zero.2 name, List.count_eq_zero.2 name']
  · rw [List.count_eq_zero.2 (functions _ below.declared), List.count_eq_zero.2 (functions' _ below'.declared)]

/-- Two files have one place exactly when their names and declared paths are cut into the same
segments. Where the slashes of the names tell the names apart, and so whenever names have none,
such files are of one function and declared under one path. -/
theorem localized_paths_meet_at_equal_segments (tools : List ProvenanceTool)
    (distinct : (tools.map ProvenanceTool.name).Nodup) (tool other : ProvenanceTool) (member : tool ∈ tools)
    (inside : other ∈ tools) (first second : FileUsage) (used : first ∈ tool.files) (used' : second ∈ other.files) :
    (first.localizedPath = second.localizedPath ↔ first.segments = second.segments) ∧
    (first.SameSlashes second ∨ UnslashedNames tools →
      (first.localizedPath = second.localizedPath ↔
        tool = other ∧ first.function = second.function ∧ first.declaredPath = second.declaredPath)) := by
  have below := FileUsage.below_of_mem used
  have below' := FileUsage.below_of_mem used'
  refine ⟨below.localizedPath_eq_iff below', ?_⟩
  intro either
  have slashes : first.SameSlashes second :=
    either.elim id fun unslashed => unslashed.sameSlashes member inside below below'
  constructor
  · intro same
    obtain ⟨name, rest⟩ := slashes.segments_eq ((below.localizedPath_eq_iff below').1 same)
    rw [below.name, below'.name] at name
    exact ⟨List.inj_on_of_nodup_map distinct member inside name, rest⟩
  · rintro ⟨rfl, function, path⟩
    rw [below.localized, below'.localized, below.name, below'.name, function, path]

/-- A tool whose first function reads a text and whose second one reads an image. -/
def readingTool (path function : String) : ProvenanceTool :=
  let input (name path : String) : Usage :=
    { parameter := ⟨name, .file none⟩, direction := .input, localValue := some path }
  { name := "A", endpoint := "at A"
    functions := OrderedMap.ofList
      [("sort", { args := [input "text" path] }), (function, { args := [input "image" "in"] })] }

theorem text_and_image_are_put_apart : ∃ first second, (readingTool "in" "draw").files = [first, second] ∧
    first.declaredPath = second.declaredPath ∧ UnslashedNames [readingTool "in" "draw"] ∧
    first.localizedPath ≠ second.localizedPath := by
  have unslashed : UnslashedNames [readingTool "in" "draw"] := by
    unfold UnslashedNames
    decide
  refine ⟨_, _, rfl, rfl, unslashed, ?_⟩
  have apart := localized_paths_meet_at_equal_segments [readingTool "in" "draw"] (by decide) _ _ List.mem_cons_self
    List.mem_cons_self _ _ List.mem_cons_self (List.mem_cons_of_mem _ List.mem_cons_self)
  intro same
  exact absurd ((apart.2 (Or.inr unslashed)).1 same).2.1 (by decide)

/-- The image is read from the place of the text: the function that reads it is named like the
folder that the text is declared in. -/
theorem image_takes_the_place_of_the_text : ([readingTool "raw/in" "sort/raw"].map ProvenanceTool.name).Nodup ∧
    ∃ first second, (readingTool "raw/in" "sort/raw").fileInputs = [first, second] ∧
      first.function ≠ second.function ∧ first.declaredPath ≠ second.declaredPath ∧
      first.localizedPath = "A/sort/raw/in" ∧ second.localizedPath = first.localizedPath :=
  ⟨by decide, _, _, rfl, by decide, by decide, by decide, by decide⟩

end Provenance
